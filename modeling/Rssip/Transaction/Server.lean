import Rssip.Lib.Machine
import Rssip.Transaction.Fsm
import Rssip.Transaction.Key
import Rssip.Utils.PeekableReceiver

namespace Rssip

open Lib

/-!
# Server transactions

A server transaction as a machine: its steps are the arrival of messages, the passing of time,
the calls of its user, the outcomes of its transmissions and the polls of its call or tasks.

* `ProvisionalTask` — the task that answers retransmissions until the final response;
* `ServerActivity` — the call that waits, or the task that outlives the final response;
* `ServerTransaction.step` — one step.
-/

/-- The task of `spawn_retransmit_provisional_task`.  `stateRx` is the number of its
    subscription to the state; the task ends by giving the receiver back. -/
structure ProvisionalTask where
  response : OutgoingResponse
  provisionals : List OutgoingResponse := []
  stateRx : Nat
  sending : Bool := false
  returned : Bool := false
deriving DecidableEq

/-- Who holds the transaction: its user, a call that waits for its transmission or for the
    provisional task, the task that repeats the final response, or nobody. -/
inductive ServerActivity where
  | idle
  | sendingProvisional (response : OutgoingResponse)
  | sendingFinal (response : OutgoingResponse)
  | joining (response : OutgoingResponse) (deadline : Nat)
  | retransmitting (response : OutgoingResponse) (interval expires deadline : Nat)
      (sending : Bool)
  | confirmed (wakeup : Nat)
  | absorbing (response : OutgoingResponse) (deadline : Nat) (sending : Bool)
  | dropped
deriving DecidableEq

/-- What a transaction does: it hands a response to the transport, takes a message out of its
    channel, or returns from a call. -/
inductive ServerOutput where
  | sent (response : OutgoingResponse)
  | received (msg : IncomingMessage)
  | returned (res : Except Error Unit)
  | panicked
deriving DecidableEq

/-- A server transaction with the call and the tasks that run on it, its clock, and what it has done
    so far. -/
structure ServerTransaction where
  transactionKey : TransactionKey
  stateMachine : StateMachine
  request : IncomingRequest
  targetInfo : Option TargetTransportInfo := none
  /-- The receiver of the channel is still the transaction's own. -/
  hasReceiver : Bool := true
  channel : Receiver IncomingMessage := {}
  provisionalRetransHandle : Option ProvisionalTask := none
  now : Nat
  activity : ServerActivity := .idle
  trace : List ServerOutput := []
deriving DecidableEq

/-- The steps of a run.  `sent` ends the transmission of the call, or of the task that repeats
    the final response, with the target that took it; `retransmitted` ends one of the
    provisional task. -/
inductive ServerEvent where
  | deliver (msg : IncomingMessage)
  | close
  | elapse (ms : Nat)
  | sendProvisionalResponse (response : OutgoingResponse)
  | sendFinalResponse (response : OutgoingResponse)
  | sent (res : Except Error TargetTransportInfo)
  | retransmitted (res : Except Error TargetTransportInfo)
  | poll
  | pollTask
  | cancel
  | drop
  | subscribeState
  | recvState (i : Nat)

/-- The status code of a response. -/
def OutgoingResponse.code (r : OutgoingResponse) : StatusCode := r.response.statusLine.code

/-- A response after a transmission: it remembers the target that took it. -/
def OutgoingResponse.after (res : Except Error TargetTransportInfo) (r : OutgoingResponse) :
    OutgoingResponse :=
  match res with
  | .ok target => { r with destInfo := { r.destInfo with transport := some target } }
  | .error _ => r

/-- The message is an `ACK` request. -/
def IncomingMessage.isAck : IncomingMessage → Bool
  | .request r => r.method = .ack
  | .response _ => false

namespace ServerTransaction

/-- The state of the transaction. -/
def state (s : ServerTransaction) : State := s.stateMachine.state

/-- The request is an `INVITE`. -/
def isInviteTsx (s : ServerTransaction) : Bool := s.request.method = .invite

/-- The transport by which the request came keeps what is sent. -/
def isReliable (s : ServerTransaction) : Bool :=
  s.request.incomingInfo.transportMsg.transport.isReliable

/-- The transaction that `from_request` makes. -/
def new (transactionKey : TransactionKey) (request : IncomingRequest) (now : Nat) :
    ServerTransaction :=
  let initialState := if request.method = .invite then .proceeding else .trying
  { transactionKey := transactionKey
    stateMachine := StateMachine.new initialState
    request := request
    now := now }

/-- `from_request`, `none` where the code panics. -/
def fromRequest (request : IncomingRequest) (now : Nat) : Option ServerTransaction :=
  if request.method = .ack then none
  else (TransactionKey.fromRequest request).map fun key => new key request now

/-! ### What a transaction does -/

/-- What the transaction does is added to its trace. -/
def record (out : ServerOutput) (s : ServerTransaction) : ServerTransaction :=
  { s with trace := s.trace ++ [out] }

/-- The transaction goes to a state, and its subscribers are told. -/
def setState (state : State) (s : ServerTransaction) : ServerTransaction :=
  { s with stateMachine := s.stateMachine.setState state }

/-- The call or the task goes on to wait for something else. -/
def become (activity : ServerActivity) (s : ServerTransaction) : ServerTransaction :=
  { s with activity := activity }

/-- A call returns. -/
def ret (res : Except Error Unit) (s : ServerTransaction) : ServerTransaction :=
  s.record (.returned res)

/-- The target that took the first response is kept for the later ones. -/
def keepTarget (res : Except Error TargetTransportInfo) (s : ServerTransaction) :
    ServerTransaction :=
  match res with
  | .ok target => if s.targetInfo.isNone then { s with targetInfo := some target } else s
  | .error _ => s

/-! ### Provisional responses -/

/-- A call of `send_provisional_response` starts. -/
def sendProvisionalResponse (response : OutgoingResponse) (s : ServerTransaction) :
    ServerTransaction :=
  if response.code.isProvisional then
    (s.record (.sent response)).become (.sendingProvisional response)
  else
    s.ret (.error (.custom
      ("Invalid provisional response (expected 1xx) got " ++ response.code.debug)))

/-- The receiver goes to a task, which hears of the state changes after `Proceeding`. -/
def spawnRetransmitProvisionalTask (response : OutgoingResponse) (s : ServerTransaction) :
    ServerTransaction :=
  let s := { s with hasReceiver := false }.setState .proceeding
  let stateRx := s.stateMachine.subscribers.length
  { s with
    stateMachine := s.stateMachine.subscribeState
    provisionalRetransHandle := some { response := response, stateRx := stateRx } }

/-- The rest of `send_provisional_response`. -/
def finishProvisional (response : OutgoingResponse) (s : ServerTransaction) :
    ServerTransaction :=
  match s.provisionalRetransHandle with
  | some task =>
    -- a task that has returned has dropped its end of the channel
    if task.returned then (s.ret (.error .channelClosed)).become .idle
    else
      let task := { task with provisionals := task.provisionals ++ [response] }
      ({ s with provisionalRetransHandle := some task }.ret (.ok ())).become .idle
  | none =>
    -- the `expect` of `spawn_retransmit_provisional_task`
    if s.hasReceiver then ((s.spawnRetransmitProvisionalTask response).ret (.ok ())).become .idle
    else (s.record .panicked).become .dropped

/-- A change of the state is waiting for the task, or there are none to come. -/
def stateRxReady (task : ProvisionalTask) (s : ServerTransaction) : Bool :=
  s.activity = .dropped ||
    (s.stateMachine.subscribers[task.stateRx]?).any fun sub => !sub.buffer.isEmpty

/-- One pass of the loop of the provisional task, in the order of its `select!`. -/
def pollTask (s : ServerTransaction) : ServerTransaction :=
  match s.provisionalRetransHandle with
  | none => s
  | some task =>
    if task.returned || task.sending then s
    else if s.stateRxReady task then
      { s with provisionalRetransHandle := some { task with returned := true } }
    else
      match task.provisionals with
      | response :: provisionals =>
        let task := { task with response := response, provisionals := provisionals }
        { s with provisionalRetransHandle := some task }
      | [] =>
        match s.channel.pollRecv with
        | (.ready (some msg), channel) =>
          -- whatever the message is, the last response is sent again
          let task := { task with sending := true }
          ({ s with channel := channel, provisionalRetransHandle := some task }.record
            (.received msg)).record (.sent task.response)
        | (_, channel) => { s with channel := channel }

/-- A transmission of the provisional task ends. -/
def retransmitted (res : Except Error TargetTransportInfo) (s : ServerTransaction) :
    ServerTransaction :=
  match s.provisionalRetransHandle with
  | none => s
  | some task =>
    if task.sending then
      let task := { task with response := task.response.after res, sending := false }
      { s with provisionalRetransHandle := some task }
    else s

/-! ### The final response -/

/-- A call of `send_final_response` starts. -/
def sendFinalResponse (response : OutgoingResponse) (s : ServerTransaction) :
    ServerTransaction :=
  if response.code.isFinal then
    (s.record (.sent response)).become (.sendingFinal response)
  else
    (s.ret (.error (.custom
      ("Invalid final response (expected 2xx-6xx) got " ++ response.code.debug)))).become .dropped

/-- The call returns, and a task is left that repeats the final response. -/
def spawnFinalTask (response : OutgoingResponse) (deadline : Nat) (s : ServerTransaction) :
    ServerTransaction :=
  let s := s.ret (.ok ())
  if s.isInviteTsx && !s.isReliable then
    s.become (.retransmitting response T1 (s.now + T1) deadline false)
  else s.become (.absorbing response deadline false)

/-- The rest of `send_final_response`, up to where it waits for the receiver. -/
def finishFinal (response : OutgoingResponse) (s : ServerTransaction) : ServerTransaction :=
  -- the range of the source is half open
  if s.isInviteTsx && (200 ≤ response.code.asU16 && response.code.asU16 < 299) then
    ((s.setState .terminated).ret (.ok ())).become .dropped
  else
    let s := s.setState .completed
    if s.isReliable then ((s.setState .terminated).ret (.ok ())).become .dropped
    else
      let deadline := s.now + if s.isInviteTsx then T4 else T1 * 64
      -- the receiver comes back from the task that holds it
      match s.provisionalRetransHandle with
      | some _ => s.become (.joining response deadline)
      | none =>
        if s.hasReceiver then { s with hasReceiver := false }.spawnFinalTask response deadline
        else (s.record .panicked).become .dropped

/-- A transmission of the call, or of the task that repeats the final response, ends. -/
def sent (res : Except Error TargetTransportInfo) (s : ServerTransaction) : ServerTransaction :=
  match s.activity, res with
  | .sendingProvisional response, .ok _ =>
    (s.keepTarget res).finishProvisional (response.after res)
  | .sendingProvisional _, .error e => (s.ret (.error e)).become .idle
  | .sendingFinal response, .ok _ => (s.keepTarget res).finishFinal (response.after res)
  | .sendingFinal _, .error e => (s.ret (.error e)).become .dropped
  -- the errors of the tasks are ignored, and the interval starts anew
  | .retransmitting response interval _ deadline true, res =>
    (s.keepTarget res).become
      (.retransmitting (response.after res) interval (s.now + interval) deadline false)
  | .absorbing response deadline true, res =>
    (s.keepTarget res).become (.absorbing (response.after res) deadline false)
  | _, _ => s

/-- The transaction ends. -/
def terminate (s : ServerTransaction) : ServerTransaction :=
  (s.setState .terminated).become .dropped

/-- One pass of the loop that waits for the `ACK`. -/
def pollRetransmitting (response : OutgoingResponse) (interval expires deadline : Nat)
    (s : ServerTransaction) : ServerTransaction :=
  match s.channel.pollRecv with
  | (.ready (some msg), channel) =>
    let s := { s with channel := channel }.record (.received msg)
    if msg.isAck then (s.setState .confirmed).become (.confirmed (s.now + T4))
    else
      -- any other message counts as a retransmission
      (s.record (.sent response)).become
        (.retransmitting response interval expires deadline true)
  | (.ready none, channel) => { s with channel := channel }.become .dropped
  | (.pending, channel) =>
    let s := { s with channel := channel }
    -- the inner timeout is looked at before the one around it
    if expires ≤ s.now then
      (s.record (.sent response)).become
        (.retransmitting response (min (interval * 2) T2) expires deadline true)
    else if deadline ≤ s.now then s.terminate
    else s

/-- One pass of the loop that absorbs retransmissions. -/
def pollAbsorbing (response : OutgoingResponse) (deadline : Nat) (s : ServerTransaction) :
    ServerTransaction :=
  match s.channel.pollRecv with
  | (.ready (some msg), channel) =>
    (({ s with channel := channel }.record (.received msg)).record (.sent response)).become
      (.absorbing response deadline true)
  | (.ready none, channel) => { s with channel := channel }.terminate
  | (.pending, channel) =>
    let s := { s with channel := channel }
    if deadline ≤ s.now then s.terminate else s

/-- The call that waits for the provisional task, or the task that repeats the final response,
    is polled. -/
def poll (s : ServerTransaction) : ServerTransaction :=
  match s.activity with
  | .joining response deadline =>
    if s.provisionalRetransHandle.any ProvisionalTask.returned then
      { s with provisionalRetransHandle := none }.spawnFinalTask response deadline
    else s
  | .retransmitting response interval expires deadline false =>
    s.pollRetransmitting response interval expires deadline
  | .confirmed wakeup => if wakeup ≤ s.now then s.terminate else s
  | .absorbing response deadline false => s.pollAbsorbing response deadline
  -- a transmission is under way
  | .retransmitting _ _ _ _ true | .absorbing _ _ true => s
  | .idle | .sendingProvisional _ | .sendingFinal _ | .dropped => s

/-- The call is cancelled.  `send_final_response` owns the transaction. -/
def cancel (s : ServerTransaction) : ServerTransaction :=
  match s.activity with
  | .sendingProvisional _ => s.become .idle
  | .sendingFinal _ | .joining _ _ => s.become .dropped
  -- the call has returned, and the task belongs to nobody
  | .retransmitting _ _ _ _ _ | .confirmed _ | .absorbing _ _ _ => s
  | .idle | .dropped => s

/-! ### Runs -/

/-- One step.  A call, and a subscription, need the transaction in the hands of its user, and
    the subscription of the provisional task is its own. -/
def step (s : ServerTransaction) : ServerEvent → ServerTransaction
  | .deliver msg => if s.channel.closed then s else { s with channel := s.channel.send msg }
  | .close => { s with channel := s.channel.close }
  | .elapse ms => { s with now := s.now + ms }
  | .sendProvisionalResponse response =>
    if s.activity = .idle then s.sendProvisionalResponse response else s
  | .sendFinalResponse response =>
    if s.activity = .idle then s.sendFinalResponse response else s
  | .sent res => s.sent res
  | .retransmitted res => s.retransmitted res
  | .poll => s.poll
  | .pollTask => s.pollTask
  | .cancel => s.cancel
  | .drop => if s.activity = .idle then s.become .dropped else s
  | .subscribeState =>
    if s.activity = .idle then { s with stateMachine := s.stateMachine.subscribeState } else s
  | .recvState i =>
    if s.provisionalRetransHandle.any (fun task => task.stateRx = i) then s
    else { s with stateMachine := s.stateMachine.recv i }

/-- The transaction after a run. -/
def run (s : ServerTransaction) (es : List ServerEvent) : ServerTransaction := exec step s es

/-! ### Steps that change nothing -/

/-- The step needs the transaction in the hands of its user. -/
def IsCall : ServerEvent → Prop
  | .sendProvisionalResponse _ | .sendFinalResponse _ | .drop | .subscribeState => True
  | _ => False

theorem step_of_busy {s : ServerTransaction} (hidle : s.activity ≠ .idle) {e : ServerEvent}
    (he : IsCall e) : s.step e = s := by
  cases e with
  | sendProvisionalResponse _ | sendFinalResponse _ | drop | subscribeState => exact if_neg hidle
  | _ => exact he.elim

theorem isInviteTsx_eq {s s' : ServerTransaction} (h : s'.request = s.request) :
    s'.isInviteTsx = s.isInviteTsx := by
  unfold isInviteTsx
  rw [h]

theorem isReliable_eq {s s' : ServerTransaction} (h : s'.request = s.request) :
    s'.isReliable = s.isReliable := by
  unfold isReliable
  rw [h]

theorem pollTask_of_none {s : ServerTransaction} (h : s.provisionalRetransHandle = none) :
    s.pollTask = s := by
  unfold pollTask
  rw [h]

theorem retransmitted_of_none {s : ServerTransaction} (h : s.provisionalRetransHandle = none)
    (res : Except Error TargetTransportInfo) : s.retransmitted res = s := by
  unfold retransmitted
  rw [h]

end ServerTransaction

end Rssip
