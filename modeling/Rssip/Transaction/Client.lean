import Rssip.Lib.Machine
import Rssip.Transaction.Fsm
import Rssip.Transaction.Key
import Rssip.Utils.PeekableReceiver

namespace Rssip

open Lib

/-!
# Client transactions

A client transaction as a machine: its steps are the arrival of messages, the passing of time,
the calls of its user and the polls of the call or task that is waiting.  A transmission takes
no time, and its outcome is not seen by the transaction: a failure is only logged.

* `ClientTransaction` — the fields of the transaction, and what it has done so far;
* `Wait` — where a call of `receive_response_if` waits;
* `ClientTransaction.step` — one step;
* `pollResponse_cases` — everything a poll of a waiting call can do.
-/

/-- Where a call of `receive_response_if` waits: in the loop of retransmissions, for the
    deadline of the transaction, or for a message alone. -/
inductive Wait where
  | retransmitting (interval expires : Nat)
  | untilDeadline
  | untilReceived
deriving DecidableEq

/-- Who holds the transaction: its user, a call that waits, the task that outlives the final
    response, or nobody. -/
inductive ClientActivity where
  | idle
  | provisional (state : State) (wait : Wait)
  | final (wait : Wait)
  | completed (timer : Nat) (ack : Option OutgoingRequest)
  | dropped
deriving DecidableEq

/-- What a call gives back. -/
inductive CallResult where
  | provisional (res : Except Error (Option IncomingResponse))
  | final (res : Except Error IncomingResponse)
  | panicked
deriving DecidableEq

/-- What a transaction does: it hands a request to the transport, takes a message out of its
    channel, or returns from a call. -/
inductive ClientOutput where
  | sent (request : OutgoingRequest)
  | received (msg : IncomingMessage)
  | returned (res : CallResult)
deriving DecidableEq

/-- A client transaction with the call or the task that runs on it, its clock, and what it has done
    so far. -/
structure ClientTransaction where
  key : TransactionKey
  stateMachine : StateMachine
  request : OutgoingRequest
  channel : PeekableReceiver IncomingMessage := {}
  timeout : Nat
  now : Nat
  activity : ClientActivity := .idle
  trace : List ClientOutput := []
deriving DecidableEq

/-- The steps of a run. -/
inductive ClientEvent where
  | deliver (msg : IncomingMessage)
  | close
  | elapse (ms : Nat)
  | receiveProvisionalResponse
  | receiveFinalResponse
  | poll
  | cancel
  | drop
  | subscribeState
  | recvState (i : Nat)

/-! ### Requests -/

/-- A socket address as the sender of a `Via`. -/
def SocketAddr.hostPort (addr : SocketAddr) : HostPort := ⟨.ipAddr addr.ip, some addr.port⟩

/-- A `Via` with the fields that a sender sets. -/
def Via.newWithTransport (transport : TransportProtocol) (sentBy : HostPort)
    (branch : Option String) (rport : Option Rport) : Via :=
  { transport := transport, sentBy := sentBy, branch := branch, rport := rport }

/-- The branch of the first `Via`, set to `generated` if it has none. -/
def Headers.viaBranch (generated : String) : Headers → Option (String × Headers)
  | [] => none
  | .via via :: hs =>
    match via.branch with
    | some branch => some (branch, .via via :: hs)
    | none => some (generated, .via { via with branch := some generated } :: hs)
  | h :: hs => (viaBranch generated hs).map fun found => (found.1, h :: found.2)

/-- The branch of a request that is about to be sent, and the request with it. -/
def OutgoingRequest.withBranch (generated : String) (outgoing : OutgoingRequest) :
    String × OutgoingRequest :=
  let request := outgoing.request
  match Headers.viaBranch generated request.headers with
  | some (branch, headers) =>
    (branch, { outgoing with request := { request with headers := headers } })
  | none =>
    let transport := outgoing.targetInfo.transport
    let via := Via.newWithTransport transport.protocol transport.localAddr.hostPort
      (some generated) (some ⟨none⟩)
    (generated, { outgoing with request := { request with headers := .via via :: request.headers } })

/-- The method of a request. -/
def OutgoingRequest.method (r : OutgoingRequest) : SipMethod := r.request.reqLine.method

namespace ClientTransaction

/-- The state of the transaction. -/
def state (c : ClientTransaction) : State := c.stateMachine.state

/-- The request is an `INVITE`. -/
def isInvite (c : ClientTransaction) : Bool := c.request.method = .invite

/-- The transport keeps what is sent. -/
def isReliable (c : ClientTransaction) : Bool := c.request.targetInfo.transport.isReliable

/-! ### What a transaction does -/

/-- What the transaction does is added to its trace. -/
def record (out : ClientOutput) (c : ClientTransaction) : ClientTransaction :=
  { c with trace := c.trace ++ [out] }

/-- The transaction goes to a state, and its subscribers are told. -/
def setState (state : State) (c : ClientTransaction) : ClientTransaction :=
  { c with stateMachine := c.stateMachine.setState state }

/-- The call or the task goes on to wait for something else. -/
def become (activity : ClientActivity) (c : ClientTransaction) : ClientTransaction :=
  { c with activity := activity }

/-- A call returns, or panics. -/
def ret (res : CallResult) (c : ClientTransaction) : ClientTransaction := c.record (.returned res)

/-- `send_outgoing_request`. -/
def sendRequest (request : OutgoingRequest) (c : ClientTransaction) : ClientTransaction :=
  c.record (.sent request)

/-- The transaction that `send` makes once the request is sent. -/
def new (generated : String) (outgoing : OutgoingRequest) (now : Nat) : ClientTransaction :=
  let method := outgoing.method
  let (branch, outgoing) := outgoing.withBranch generated
  { key := TransactionKey.newKey3261 .uac method branch
    stateMachine := StateMachine.new (if method = .invite then .calling else .trying)
    request := outgoing
    timeout := now + T1 * 64
    now := now
    trace := [.sent outgoing] }

/-- `send`, for a request that `create_outgoing_request` has made; `none` where the code
    asserts.  `generated` is the branch that a request without one gets. -/
def send (generated : String) (outgoing : OutgoingRequest) (now : Nat) :
    Option ClientTransaction :=
  if outgoing.method = .ack then none else some (new generated outgoing now)

/-- The `ACK` for a final response, `none` where the code asserts. -/
def createAckRequest (outgoing : OutgoingRequest) (response : IncomingResponse) :
    Option OutgoingRequest :=
  if 300 ≤ response.code.asU16 ∧ response.code.asU16 < 699 then
    let mandatory := response.incomingInfo.mandatoryHeaders
    let headers := { mandatory with cseq := ⟨mandatory.cseq.cseq, .ack⟩ }.intoHeaders
    some {
      request := { reqLine := ⟨.ack, outgoing.request.reqLine.uri⟩, headers := headers }
      targetInfo := outgoing.targetInfo }
  else none

/-! ### Waiting for a response -/

/-- Where `receive_response_if` starts to wait, `none` where it is `unreachable!()`. -/
def startWait (c : ClientTransaction) : Option Wait :=
  match c.state with
  | .calling | .trying =>
    some (if c.isReliable then .untilDeadline else .retransmitting T1 (c.now + T1))
  | .proceeding => some (if c.isInvite then .untilReceived else .untilDeadline)
  | .completed | .confirmed | .terminated => none

/-- The condition `recv_if` hands to the channel. -/
def isResponseWhere (cond : IncomingResponse → Bool) : IncomingMessage → Bool
  | .response r => cond r
  | .request _ => false

/-- One poll of `recv_if`. -/
def pollRecvIf (cond : IncomingResponse → Bool) (c : ClientTransaction) :
    Poll (Option IncomingResponse) × ClientTransaction :=
  match c.channel.pollRecvIf (isResponseWhere cond) with
  | (.ready (some (.response r)), channel) =>
    (.ready (some r), { c with channel := channel }.record (.received (.response r)))
  | (.ready (some (.request r)), channel) =>
    (.ready none, { c with channel := channel }.record (.received (.request r)))
  | (.ready none, channel) => (.ready none, { c with channel := channel })
  | (.pending, channel) => (.pending, { c with channel := channel })

/-- What a poll of `receive_response_if` comes to. -/
inductive Polled where
  | done (res : Except Error (Option IncomingResponse))
  | waiting (wait : Wait)

/-- One pass of `receive_response_if`.  The timers are looked at when there is no message, the
    retransmission interval first. -/
def pollResponse (cond : IncomingResponse → Bool) (wait : Wait) (c : ClientTransaction) :
    Polled × ClientTransaction :=
  match c.pollRecvIf cond with
  | (.ready msg, c) => (.done (.ok msg), c)
  | (.pending, c) =>
    let untilDeadline :=
      if c.timeout ≤ c.now then
        (.done (.error (.transaction .timeout)), c.setState .terminated)
      else (.waiting wait, c)
    match wait with
    | .retransmitting interval expires =>
      if expires ≤ c.now then
        let interval := interval * 2
        (.waiting (.retransmitting interval (c.now + interval)), c.sendRequest c.request)
      else untilDeadline
    | .untilDeadline => untilDeadline
    | .untilReceived => (.waiting wait, c)

/-! ### The calls -/

/-- A call of `receive_provisional_response` starts, with the state it saw. -/
def receiveProvisionalResponse (c : ClientTransaction) : ClientTransaction :=
  let state := c.state
  if state ≤ .proceeding then
    match c.startWait with
    | some wait => c.become (.provisional state wait)
    | none => (c.ret .panicked).become .dropped
  else c.ret (.provisional (.ok none))

/-- The rest of `receive_provisional_response`. -/
def finishProvisional (state : State) (res : Except Error (Option IncomingResponse))
    (c : ClientTransaction) : ClientTransaction :=
  match res with
  | .ok response =>
    -- whether or not there is a response
    let c := if state ≠ .proceeding then c.setState .proceeding else c
    (c.ret (.provisional (.ok response))).become .idle
  | .error e => (c.ret (.provisional (.error e))).become .idle

/-- A call of `receive_final_response` starts. -/
def receiveFinalResponse (c : ClientTransaction) : ClientTransaction :=
  match c.startWait with
  | some wait => c.become (.final wait)
  | none => (c.ret .panicked).become .dropped

/-- A final response was received. -/
def finishResponse (response : IncomingResponse) (c : ClientTransaction) : ClientTransaction :=
  -- the range of the source is half open
  if c.isReliable || (c.isInvite
      && (200 ≤ response.code.asU16 && response.code.asU16 < 299)
      && (c.state = .calling || c.state = .proceeding)) then
    ((c.setState .terminated).ret (.final (.ok response))).become .dropped
  else
    let c := c.setState .completed
    if c.isInvite then
      -- timer D, in which the `ACK` is repeated
      match createAckRequest c.request response with
      | some ack =>
        ((c.sendRequest ack).ret (.final (.ok response))).become
          (.completed (c.now + 64 * T1) (some ack))
      | none => (c.ret .panicked).become .dropped
    -- timer K
    else (c.ret (.final (.ok response))).become (.completed (c.now + T4) none)

/-- The rest of `receive_final_response`.  No response at all counts as a closed channel. -/
def finishFinal (res : Except Error (Option IncomingResponse)) (c : ClientTransaction) :
    ClientTransaction :=
  match res with
  | .ok (some response) => c.finishResponse response
  | .ok none => (c.ret (.final (.error .channelClosed))).become .dropped
  | .error e => (c.ret (.final (.error e))).become .dropped

/-- One pass of the loop of the task that outlives the final response. -/
def pollCompleted (timer : Nat) (ack : Option OutgoingRequest) (c : ClientTransaction) :
    ClientTransaction :=
  match c.channel.pollRecv with
  | (.ready (some msg), channel) =>
    let c := { c with channel := channel }.record (.received msg)
    match msg, ack with
    | .response _, some ack => c.sendRequest ack
    | .response _, none => c
    | .request _, _ => (c.setState .terminated).become .dropped
  | (.ready none, channel) =>
    ({ c with channel := channel }.setState .terminated).become .dropped
  | (.pending, channel) =>
    let c := { c with channel := channel }
    if timer ≤ c.now then (c.setState .terminated).become .dropped else c

/-- The waiting call or task is polled. -/
def poll (c : ClientTransaction) : ClientTransaction :=
  match c.activity with
  | .provisional state wait =>
    match c.pollResponse (fun r => r.code.isProvisional) wait with
    | (.done res, c) => c.finishProvisional state res
    | (.waiting wait, c) => c.become (.provisional state wait)
  | .final wait =>
    match c.pollResponse (fun r => r.code.isFinal) wait with
    | (.done res, c) => c.finishFinal res
    | (.waiting wait, c) => c.become (.final wait)
  | .completed timer ack => c.pollCompleted timer ack
  | .idle | .dropped => c

/-- The waiting call is cancelled.  `receive_final_response` owns the transaction. -/
def cancel (c : ClientTransaction) : ClientTransaction :=
  match c.activity with
  | .provisional _ _ => c.become .idle
  | .final _ => c.become .dropped
  | .idle | .completed _ _ | .dropped => c

/-- To record an output does not change the method. -/
@[simp] theorem isInvite_record (out : ClientOutput) (c : ClientTransaction) :
    (c.record out).isInvite = c.isInvite := rfl

/-- To set the state does not change the method. -/
@[simp] theorem isInvite_setState (s : State) (c : ClientTransaction) :
    (c.setState s).isInvite = c.isInvite := rfl

/-- To record an output does not change the state. -/
@[simp] theorem state_record (out : ClientOutput) (c : ClientTransaction) :
    (c.record out).state = c.state := rfl

/-- The state is the one that was set last. -/
@[simp] theorem state_setState (s : State) (c : ClientTransaction) : (c.setState s).state = s := rfl

/-! ### What a poll can do -/

/-- **What a poll of `recv_if` does**, by the messages in the channel. -/
theorem pollRecvIf_cases (cond : IncomingResponse → Bool) (c : ClientTransaction) :
    (∃ r rest channel, c.channel.messages = .response r :: rest ∧ cond r = true ∧
        channel.messages = rest ∧ channel.closed = c.channel.closed ∧
        c.pollRecvIf cond =
          (.ready (some r), { c with channel := channel }.record (.received (.response r)))) ∨
      (∃ channel, (∀ r, c.channel.messages.head? = some (.response r) → cond r = false) ∧
        (c.channel.closed = false → c.channel.messages ≠ []) ∧
        channel.messages = c.channel.messages ∧ channel.closed = c.channel.closed ∧
        c.pollRecvIf cond = (.ready none, { c with channel := channel })) ∨
      (c.channel.messages = [] ∧ c.channel.closed = false ∧
        c.pollRecvIf cond = (.pending, c)) := by
  rcases c.channel.pollRecvIf_cases (isResponseWhere cond) with
    ⟨msg, rest, channel, hmsgs, hcond, hpoll, hrest, hclosed⟩ |
    ⟨msg, rest, channel, hmsgs, hcond, hpoll, hrest, hclosed⟩ |
    ⟨hmsgs, hclosed, channel, hpoll, hrest, hstill⟩ | ⟨hmsgs, hclosed, hpoll⟩
  · -- a message that satisfies the condition is a response
    cases msg with
    | request r => cases hcond
    | response r =>
      exact .inl ⟨r, rest, channel, hmsgs, hcond, hrest, hclosed, by rw [pollRecvIf, hpoll]⟩
  · refine .inr (.inl ⟨channel, fun r hr => ?_, fun _ => ?_, hrest, hclosed, ?_⟩)
    · rw [hmsgs, List.head?_cons, Option.some.injEq] at hr
      rw [hr] at hcond
      exact hcond
    · rw [hmsgs]
      exact List.cons_ne_nil _ _
    · rw [pollRecvIf, hpoll]
  · refine .inr (.inl ⟨channel, fun r hr => ?_, fun hopen => ?_, ?_, ?_, ?_⟩)
    · rw [hmsgs] at hr
      cases hr
    · rw [hclosed] at hopen
      cases hopen
    · rw [hrest, hmsgs]
    · rw [hstill, hclosed]
    · rw [pollRecvIf, hpoll]
  · exact .inr (.inr ⟨hmsgs, hclosed, by rw [pollRecvIf, hpoll]⟩)

/-- **What a poll of `receive_response_if` does**: it takes a response, finds none it wants,
    sends the request again, runs into the deadline or goes on waiting. -/
theorem pollResponse_cases (cond : IncomingResponse → Bool) (wait : Wait)
    (c : ClientTransaction) :
    (∃ r rest channel, c.channel.messages = .response r :: rest ∧ cond r = true ∧
        channel.messages = rest ∧ channel.closed = c.channel.closed ∧
        c.pollResponse cond wait =
          (.done (.ok (some r)),
            { c with channel := channel }.record (.received (.response r)))) ∨
      (∃ channel, (∀ r, c.channel.messages.head? = some (.response r) → cond r = false) ∧
        (c.channel.closed = false → c.channel.messages ≠ []) ∧
        channel.messages = c.channel.messages ∧ channel.closed = c.channel.closed ∧
        c.pollResponse cond wait = (.done (.ok none), { c with channel := channel })) ∨
      (c.channel.messages = [] ∧ c.channel.closed = false ∧
        ((∃ wait', c.pollResponse cond wait = (.waiting wait', c.sendRequest c.request)) ∨
          (c.timeout ≤ c.now ∧ c.pollResponse cond wait =
            (.done (.error (.transaction .timeout)), c.setState .terminated)) ∨
          c.pollResponse cond wait = (.waiting wait, c))) := by
  rcases c.pollRecvIf_cases cond with
    ⟨r, rest, channel, hmsgs, hcond, hrest, hclosed, hpoll⟩ |
    ⟨channel, hcond, hopen, hmsgs, hclosed, hpoll⟩ | ⟨hmsgs, hclosed, hpoll⟩
  · exact .inl ⟨r, rest, channel, hmsgs, hcond, hrest, hclosed, by rw [pollResponse, hpoll]⟩
  · exact .inr (.inl ⟨channel, hcond, hopen, hmsgs, hclosed, by rw [pollResponse, hpoll]⟩)
  · refine .inr (.inr ⟨hmsgs, hclosed, ?_⟩)
    simp only [pollResponse, hpoll]
    -- the interval of a retransmission is looked at before the deadline
    by_cases hdeadline : c.timeout ≤ c.now
    · cases wait with
      | retransmitting interval expires =>
        by_cases hexpired : expires ≤ c.now
        · exact .inl ⟨_, if_pos hexpired⟩
        · exact .inr (.inl ⟨hdeadline, (if_neg hexpired).trans (if_pos hdeadline)⟩)
      | untilDeadline => exact .inr (.inl ⟨hdeadline, if_pos hdeadline⟩)
      | untilReceived => exact .inr (.inr rfl)
    · cases wait with
      | retransmitting interval expires =>
        by_cases hexpired : expires ≤ c.now
        · exact .inl ⟨_, if_pos hexpired⟩
        · exact .inr (.inr ((if_neg hexpired).trans (if_neg hdeadline)))
      | untilDeadline => exact .inr (.inr (if_neg hdeadline))
      | untilReceived => exact .inr (.inr rfl)

/-- There is nothing to poll while the user holds the transaction. -/
theorem poll_of_idle {c : ClientTransaction} (h : c.activity = .idle) : c.poll = c := by
  rw [poll, h]

/-- Nobody polls a transaction that is gone. -/
theorem poll_of_dropped {c : ClientTransaction} (h : c.activity = .dropped) : c.poll = c := by
  rw [poll, h]

/-- In the background a poll is one of the task that outlives the final response. -/
theorem poll_of_completed {c : ClientTransaction} {timer : Nat} {ack : Option OutgoingRequest}
    (h : c.activity = .completed timer ack) : c.poll = c.pollCompleted timer ack := by
  rw [poll, h]

/-! ### Runs -/

/-- One step.  A call, and a subscription, need the transaction in the hands of its user. -/
def step (c : ClientTransaction) : ClientEvent → ClientTransaction
  | .deliver msg => if c.channel.closed then c else { c with channel := c.channel.send msg }
  | .close => { c with channel := c.channel.close }
  | .elapse ms => { c with now := c.now + ms }
  | .receiveProvisionalResponse =>
    if c.activity = .idle then c.receiveProvisionalResponse else c
  | .receiveFinalResponse => if c.activity = .idle then c.receiveFinalResponse else c
  | .poll => c.poll
  | .cancel => c.cancel
  | .drop => if c.activity = .idle then c.become .dropped else c
  | .subscribeState =>
    if c.activity = .idle then { c with stateMachine := c.stateMachine.subscribeState } else c
  | .recvState i => { c with stateMachine := c.stateMachine.recv i }

/-- The transaction after a run. -/
def run (c : ClientTransaction) (es : List ClientEvent) : ClientTransaction := exec step c es

/-! ### What a poll does not change -/

/-- The request, the deadline and the clock. -/
def unmoved (c : ClientTransaction) : OutgoingRequest × Nat × Nat := (c.request, c.timeout, c.now)

/-- The end of a call for a provisional response touches only the state, the trace and who holds the
    transaction. -/
theorem unmoved_finishProvisional (seen : State) (res : Except Error (Option IncomingResponse))
    (c : ClientTransaction) : (c.finishProvisional seen res).unmoved = c.unmoved := by
  unfold finishProvisional
  split
  · split <;> rfl
  · rfl

/-- The end of a call for the final response touches no more, whether it sends an `ACK` or not. -/
theorem unmoved_finishFinal (res : Except Error (Option IncomingResponse))
    (c : ClientTransaction) : (c.finishFinal res).unmoved = c.unmoved := by
  unfold finishFinal
  split
  · unfold finishResponse
    split
    · rfl
    · simp only []
      split
      · split <;> rfl
      · rfl
  · rfl
  · rfl

/-- The task that outlives the final response takes messages out, sends and ends, and leaves the
    rest. -/
theorem unmoved_pollCompleted (timer : Nat) (ack : Option OutgoingRequest)
    (c : ClientTransaction) : (c.pollCompleted timer ack).unmoved = c.unmoved := by
  rcases c.channel.pollRecv_cases with
    ⟨msg, rest, channel, -, hpoll, -, -⟩ | ⟨-, -, hpoll⟩ | ⟨-, -, hpoll⟩
  · simp only [pollCompleted, hpoll]
    split <;> rfl
  · simp only [pollCompleted, hpoll]
    rfl
  · simp only [pollCompleted, hpoll]
    split <;> rfl

/-- The wait for a response takes messages out and sends the request again, and leaves the rest. -/
theorem unmoved_pollResponse (cond : IncomingResponse → Bool) (wait : Wait)
    (c : ClientTransaction) : (c.pollResponse cond wait).2.unmoved = c.unmoved := by
  rcases c.pollResponse_cases cond wait with
    ⟨r, rest, channel, -, -, -, -, hpoll⟩ | ⟨channel, -, -, -, -, hpoll⟩ |
    ⟨-, -, ⟨wait', hpoll⟩ | ⟨-, hpoll⟩ | hpoll⟩ <;>
  exact congrArg (fun polled => polled.2.unmoved) hpoll

/-- Whoever holds the transaction, a poll leaves alone the request, the deadline and the clock. -/
theorem unmoved_poll (c : ClientTransaction) : c.poll.unmoved = c.unmoved := by
  unfold poll
  split
  · have hunmoved := c.unmoved_pollResponse (fun r => r.code.isProvisional) ‹_›
    split <;> rename_i hpoll <;> rw [hpoll] at hunmoved
    · rw [unmoved_finishProvisional, hunmoved]
    · exact hunmoved
  · have hunmoved := c.unmoved_pollResponse (fun r => r.code.isFinal) ‹_›
    split <;> rename_i hpoll <;> rw [hpoll] at hunmoved
    · rw [unmoved_finishFinal, hunmoved]
    · exact hunmoved
  · exact unmoved_pollCompleted _ _ c
  · rfl
  · rfl

/-- The request is among what a poll leaves alone. -/
theorem request_poll (c : ClientTransaction) : c.poll.request = c.request :=
  congrArg Prod.fst c.unmoved_poll

/-- The timeout is among what a poll leaves alone. -/
theorem timeout_poll (c : ClientTransaction) : c.poll.timeout = c.timeout :=
  congrArg (fun unmoved => unmoved.2.1) c.unmoved_poll

/-- Time does not pass in a poll. -/
theorem now_poll (c : ClientTransaction) : c.poll.now = c.now :=
  congrArg (fun unmoved => unmoved.2.2) c.unmoved_poll

/-- What the step `e`, which is no poll, does not change on its way from `c` to `c'`.  Only the
    passing of time and the last sender's leaving are seen in the clock and in the channel's
    being open, and a call that returns at once returns no response. -/
structure Framed (e : ClientEvent) (c c' : ClientTransaction) : Prop where
  request : c'.request = c.request
  timeout : c'.timeout = c.timeout
  history : c'.stateMachine.history = c.stateMachine.history
  now : (∀ ms, e ≠ .elapse ms) → c'.now = c.now
  closed : e ≠ .close → c'.channel.closed = c.channel.closed
  trace : ∃ new, c'.trace = c.trace ++ new ∧ (c.activity ≠ .idle → new = []) ∧
    ∀ out ∈ new, out = .returned (.provisional (.ok none)) ∨ out = .returned .panicked

/-- A step that changes nothing is within its frame. -/
theorem Framed.refl (e : ClientEvent) (c : ClientTransaction) : Framed e c c :=
  ⟨rfl, rfl, rfl, fun _ => rfl, fun _ => rfl, [], by simp⟩

/-- Who holds the transaction is not part of the frame. -/
theorem Framed.become {e : ClientEvent} {c c' : ClientTransaction} (h : Framed e c c')
    (activity : ClientActivity) : Framed e c (c'.become activity) :=
  ⟨h.request, h.timeout, h.history, h.now, h.closed, h.trace⟩

/-- A call that returns at once. -/
theorem framed_ret (e : ClientEvent) {c : ClientTransaction} (hidle : c.activity = .idle)
    {res : CallResult} (hres : res = .provisional (.ok none) ∨ res = .panicked) :
    Framed e c (c.ret res) := by
  refine ⟨rfl, rfl, rfl, fun _ => rfl, fun _ => rfl, [.returned res], rfl, fun h => absurd hidle h, ?_⟩
  intro out hout
  rw [List.mem_singleton.mp hout]
  exact hres.imp (congrArg _) (congrArg _)

/-- **What a step that is no poll does not change.** -/
theorem framed_step (c : ClientTransaction) {e : ClientEvent} (he : e ≠ .poll) :
    Framed e c (c.step e) := by
  cases e with
  | poll => exact absurd rfl he
  | close => exact { Framed.refl _ c with closed := fun h => absurd rfl h }
  | elapse ms => exact { Framed.refl _ c with now := fun h => absurd rfl (h ms) }
  | recvState i => exact { Framed.refl _ c with history := rfl }
  | deliver msg =>
    simp only [step]
    split
    · exact Framed.refl _ c
    · exact { Framed.refl _ c with closed := fun _ => rfl }
  | drop =>
    simp only [step]
    split
    · exact (Framed.refl _ c).become _
    · exact Framed.refl _ c
  | subscribeState =>
    simp only [step]
    split
    · exact { Framed.refl _ c with history := rfl }
    · exact Framed.refl _ c
  | cancel =>
    -- a call that is given up has taken nothing
    simp only [step, cancel]
    split
    · exact (Framed.refl _ c).become _
    · exact (Framed.refl _ c).become _
    all_goals exact Framed.refl _ c
  | receiveProvisionalResponse =>
    by_cases hidle : c.activity = .idle
    -- a call begins to wait, or returns at once
    · simp only [step, if_pos hidle, receiveProvisionalResponse]
      split
      · split
        · exact (Framed.refl _ c).become _
        · exact (framed_ret _ hidle (.inr rfl)).become _
      · exact framed_ret _ hidle (.inl rfl)
    · rw [step, if_neg hidle]
      exact Framed.refl _ c
  | receiveFinalResponse =>
    by_cases hidle : c.activity = .idle
    · simp only [step, if_pos hidle, receiveFinalResponse]
      split
      · exact (Framed.refl _ c).become _
      · exact (framed_ret _ hidle (.inr rfl)).become _
    · rw [step, if_neg hidle]
      exact Framed.refl _ c

/-- A step leaves the request of the transaction alone. -/
theorem request_step (c : ClientTransaction) (e : ClientEvent) :
    (c.step e).request = c.request := by
  by_cases he : e = .poll
  · rw [he]
    exact c.request_poll
  · exact (framed_step c he).request

/-- Nor does it move the deadline. -/
theorem timeout_step (c : ClientTransaction) (e : ClientEvent) :
    (c.step e).timeout = c.timeout := by
  by_cases he : e = .poll
  · rw [he]
    exact c.timeout_poll
  · exact (framed_step c he).timeout

/-- A transaction is about one request in all of a run. -/
theorem request_run (c : ClientTransaction) (es : List ClientEvent) :
    (c.run es).request = c.request :=
  exec_invariant (fun s e hs => (request_step s e).trans hs) rfl es

/-! ### The start of a transaction -/

/-- A branch that is added does not change the method of the request. -/
theorem withBranch_method (generated : String) (outgoing : OutgoingRequest) :
    (outgoing.withBranch generated).2.method = outgoing.method := by
  simp only [OutgoingRequest.withBranch]
  split <;> rfl

/-- The transaction has the method of the request that it was made from. -/
theorem method_new (generated : String) (outgoing : OutgoingRequest) (now : Nat) :
    (new generated outgoing now).request.method = outgoing.method :=
  withBranch_method generated outgoing

/-- What `send` leaves. -/
theorem send_eq_some {generated : String} {outgoing : OutgoingRequest} {now : Nat}
    {c : ClientTransaction} (h : send generated outgoing now = some c) :
    c.request.method ≠ .ack ∧
      c.stateMachine = StateMachine.new (if c.isInvite then .calling else .trying) ∧
      c.channel = {} ∧ c.timeout = now + T1 * 64 ∧ c.now = now ∧ c.activity = .idle ∧
      c.trace = [.sent c.request] := by
  by_cases hmethod : outgoing.method = .ack
  · rw [send, if_pos hmethod] at h
    cases h
  · rw [send, if_neg hmethod] at h
    rw [← Option.some.inj h]
    refine ⟨?_, ?_, rfl, rfl, rfl, rfl, rfl⟩
    · rw [method_new]
      exact hmethod
    · rw [isInvite, method_new]
      simp only [decide_eq_true_eq]
      rfl

end ClientTransaction

end Rssip
