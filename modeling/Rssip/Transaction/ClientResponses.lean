import Rssip.Transaction.ClientStates

namespace Rssip

open Lib

/-!
# The responses a client transaction receives

What `receive_final_response` gives back, and how many `ACK`s a transaction sends.

* `finishResponse_cases` — what becomes of a final response;
* `finalResults_run` — the result of `receive_final_response` is decided by the first message
  in the channel;
* `run_receiveFinalResponse_iff` — when it is the first final response;
* `run_acks_iff` — when as many `ACK`s are sent as final responses other than 2xx received.
-/

/-- A response with a code from 300 to 699. -/
def IncomingResponse.isNonSuccess (r : IncomingResponse) : Bool :=
  300 ≤ r.code.asU16 && r.code.asU16 ≤ 699

/-- A final response is a success below 299, or else one an `ACK` can be made for. -/
theorem StatusCode.isFinal_cases {code : StatusCode} (h : code.isFinal = true) :
    (200 ≤ code.asU16 && code.asU16 < 299) = true ∧ (300 ≤ code.asU16 && code.asU16 ≤ 699) = false ∨
      (200 ≤ code.asU16 && code.asU16 < 299) = false ∧ 300 ≤ code.asU16 ∧ code.asU16 < 699 := by
  cases code <;> first | (exact absurd h (by decide)) | decide

/-- A provisional response is none that has to be acknowledged. -/
theorem StatusCode.isNonSuccess_of_isFinal_eq_false {code : StatusCode} (h : code.isFinal = false) :
    (300 ≤ code.asU16 && code.asU16 ≤ 699) = false := by
  cases code <;> first | rfl | (exact absurd h (by decide))

namespace ClientTransaction

/-- An `ACK` is made for a final response that is no success. -/
theorem createAckRequest_eq_some (outgoing : OutgoingRequest) {r : IncomingResponse}
    (h : 300 ≤ r.code.asU16 ∧ r.code.asU16 < 699) :
    ∃ ack, createAckRequest outgoing r = some ack ∧ ack.method = .ack := by
  rw [createAckRequest, if_pos h]
  exact ⟨_, rfl, rfl⟩

/-- **What becomes of a final response**: the transaction ends, an `INVITE` is acknowledged, or
    the transaction waits for retransmissions of the response. -/
theorem finishResponse_cases {c : ClientTransaction} {r : IncomingResponse}
    (hle : c.state ≤ .proceeding) (hkind : c.isInvite = true → c.state ≠ .trying)
    (hfinal : r.code.isFinal = true) :
    ((c.isReliable = true ∨ c.isInvite = true ∧ r.isNonSuccess = false) ∧
        c.finishResponse r = ((c.setState .terminated).ret (.final (.ok r))).become .dropped) ∨
      (c.isReliable = false ∧ r.isNonSuccess = true ∧ ∃ ack timer, ack.method = .ack ∧
        c.finishResponse r =
          (((c.setState .completed).sendRequest ack).ret (.final (.ok r))).become
            (.completed timer (some ack))) ∨
      (c.isReliable = false ∧ c.isInvite = false ∧ ∃ timer,
        c.finishResponse r =
          ((c.setState .completed).ret (.final (.ok r))).become (.completed timer none)) := by
  unfold finishResponse
  cases hreliable : c.isReliable with
  | true => exact .inl ⟨.inl rfl, rfl⟩
  | false =>
    cases hinvite : c.isInvite with
    | false =>
      refine .inr (.inr ⟨rfl, rfl, c.now + T4, ?_⟩)
      simp only [isInvite_setState, hinvite]
      rfl
    | true =>
      -- an `INVITE` is in `Calling` or `Proceeding` here
      have hstate : (c.state = .calling || c.state = .proceeding) = true := by
        have hne := hkind hinvite
        cases hs : c.state with
        | calling | proceeding => rfl
        | trying => exact absurd hs hne
        | completed | confirmed | terminated =>
          rw [hs] at hle
          exact absurd hle (by decide)
      rcases StatusCode.isFinal_cases hfinal with ⟨hsuccess, hnon⟩ | ⟨hsuccess, hcode⟩
      · refine .inl ⟨.inr ⟨rfl, hnon⟩, if_pos ?_⟩
        rw [hsuccess, hstate]
        rfl
      · obtain ⟨ack, hack, hmethod⟩ := createAckRequest_eq_some c.request hcode
        have hnon : r.isNonSuccess = true := by
          simp only [IncomingResponse.isNonSuccess, Bool.and_eq_true, decide_eq_true_eq]
          exact ⟨hcode.1, hcode.2.le⟩
        refine .inr (.inl ⟨rfl, hnon, ack, c.now + 64 * T1, hmethod, ?_⟩)
        have hack' : createAckRequest (c.setState .completed).request r = some ack := hack
        rw [hsuccess]
        simp only [isInvite_setState, hinvite, hack']
        rfl

/-! ### The result of `receive_final_response` -/

/-- The result of `receive_final_response`, if the output is its return. -/
def returnedFinal : ClientOutput → Option (Except Error IncomingResponse)
  | .returned (.final res) => some res
  | .returned (.provisional _) | .returned .panicked | .sent _ | .received _ => none

/-- What the calls of `receive_final_response` gave back. -/
def finalResults (c : ClientTransaction) : List (Except Error IncomingResponse) :=
  c.trace.filterMap returnedFinal

/-- To set the state gives nothing back. -/
@[simp] theorem finalResults_setState (s : State) (c : ClientTransaction) :
    (c.setState s).finalResults = c.finalResults := rfl

/-- To change what is under way gives nothing back. -/
@[simp] theorem finalResults_become (activity : ClientActivity) (c : ClientTransaction) :
    (c.become activity).finalResults = c.finalResults := rfl

/-- To record an output adds a result exactly if it is the return of `receive_final_response`. -/
theorem finalResults_record (out : ClientOutput) (c : ClientTransaction) :
    (c.record out).finalResults = c.finalResults ++ (returnedFinal out).toList := by
  unfold finalResults record
  rw [List.filterMap_append]
  cases h : returnedFinal out with
  | none => rw [List.filterMap_cons_none h]; rfl
  | some res => rw [List.filterMap_cons_some h]; rfl

/-- To take a message out of the channel gives nothing back. -/
@[simp] theorem finalResults_received (msg : IncomingMessage) (c : ClientTransaction) :
    (c.record (.received msg)).finalResults = c.finalResults :=
  (finalResults_record _ c).trans (List.append_nil _)

/-- To transmit the request gives nothing back. -/
@[simp] theorem finalResults_sendRequest (request : OutgoingRequest) (c : ClientTransaction) :
    (c.sendRequest request).finalResults = c.finalResults :=
  (finalResults_record _ c).trans (List.append_nil _)

/-- The return of the call adds its result. -/
@[simp] theorem finalResults_ret_final (res : Except Error IncomingResponse)
    (c : ClientTransaction) : (c.ret (.final res)).finalResults = c.finalResults ++ [res] :=
  finalResults_record _ c

/-- What `receive_final_response` makes of the first message it sees. -/
def finalResult : IncomingMessage → Except Error IncomingResponse
  | .response r => if r.code.isFinal then .ok r else .error .channelClosed
  | .request _ => .error .channelClosed

/-- The first final response among the messages. -/
def firstFinal (msgs : List IncomingMessage) : Option IncomingResponse :=
  msgs.findSome? fun
    | .response r => if r.code.isFinal then some r else none
    | .request _ => none

end ClientTransaction

/-- The steps that happen to a call that waits. -/
def ClientEvent.IsWake : ClientEvent → Prop
  | .deliver _ | .elapse _ | .poll => True
  | _ => False

/-- A task that outlives the final response has an `ACK` to repeat. -/
def ClientActivity.HasAck : ClientActivity → Prop
  | .completed _ ack => ∃ request, ack = some request ∧ request.method = .ack
  | .idle | .provisional _ _ | .final _ | .dropped => True

/-- The messages that are delivered before the deadline. -/
def arrivals (deadline : Nat) : Nat → List ClientEvent → List IncomingMessage
  | _, [] => []
  | now, .deliver msg :: es =>
    if now < deadline then msg :: arrivals deadline now es else arrivals deadline now es
  | now, .elapse ms :: es => arrivals deadline (now + ms) es
  | now, _ :: es => arrivals deadline now es

/-- When the deadline is over, no message counts as in time. -/
theorem arrivals_eq_nil {deadline now : Nat} (h : deadline ≤ now) (es : List ClientEvent) :
    arrivals deadline now es = [] := by
  induction es generalizing now with
  | nil => rfl
  | cons e es ih =>
    cases e with
    | deliver msg =>
      rw [arrivals, if_neg (Nat.not_lt.mpr h)]
      exact ih h
    | elapse ms => exact ih (Nat.le_add_right_of_le h)
    | _ => exact ih h

namespace ClientTransaction

/-- The transaction is out of the hands of its user. -/
def Settled (c : ClientTransaction) : Prop :=
  match c.activity with
  | .completed _ _ | .dropped => True
  | .idle | .provisional _ _ | .final _ => False

/-- A transaction out of the user's hands stays so, and its polls give nothing back. -/
theorem settled_poll {c : ClientTransaction} (h : c.Settled) :
    c.poll.Settled ∧ c.poll.finalResults = c.finalResults := by
  unfold poll
  cases hactivity : c.activity with
  | idle => rw [Settled, hactivity] at h; exact h.elim
  | provisional seen wait => rw [Settled, hactivity] at h; exact h.elim
  | final wait => rw [Settled, hactivity] at h; exact h.elim
  | dropped => exact ⟨h, rfl⟩
  | completed timer ack =>
    rcases c.channel.pollRecv_cases with
      ⟨msg, rest, channel, -, hpoll, -, -⟩ | ⟨-, -, hpoll⟩ | ⟨-, -, hpoll⟩
    · simp only [pollCompleted, hpoll]
      split
      · exact ⟨h, by simp; rfl⟩
      · exact ⟨h, by simp; rfl⟩
      · exact ⟨trivial, by simp; rfl⟩
    · simp only [pollCompleted, hpoll]
      exact ⟨trivial, rfl⟩
    · simp only [pollCompleted, hpoll]
      split
      · exact ⟨trivial, rfl⟩
      · exact ⟨h, rfl⟩

/-- Nothing is returned any more once the transaction is settled. -/
theorem settled_step {c : ClientTransaction} (h : c.Settled) (e : ClientEvent) :
    (c.step e).Settled ∧ (c.step e).finalResults = c.finalResults := by
  have hidle : c.activity ≠ .idle := by
    intro hidle
    rw [Settled, hidle] at h
    exact h
  cases e with
  | deliver msg =>
    simp only [step]
    split <;> exact ⟨h, rfl⟩
  | close => exact ⟨h, rfl⟩
  | elapse ms => exact ⟨h, rfl⟩
  | recvState i => exact ⟨h, rfl⟩
  | receiveProvisionalResponse => rw [step, if_neg hidle]; exact ⟨h, rfl⟩
  | receiveFinalResponse => rw [step, if_neg hidle]; exact ⟨h, rfl⟩
  | drop => rw [step, if_neg hidle]; exact ⟨h, rfl⟩
  | subscribeState => rw [step, if_neg hidle]; exact ⟨h, rfl⟩
  | cancel =>
    simp only [step, cancel]
    split
    · next hactivity => rw [Settled, hactivity] at h; exact h.elim
    · next hactivity => rw [Settled, hactivity] at h; exact h.elim
    all_goals exact ⟨h, rfl⟩
  | poll => exact settled_poll h

/-- The same for a whole run. -/
theorem settled_run {c : ClientTransaction} (h : c.Settled) (es : List ClientEvent) :
    (c.run es).finalResults = c.finalResults := by
  have hinv : ∀ c' : ClientTransaction, c'.Settled ∧ c'.finalResults = c.finalResults → ∀ e,
      (c'.step e).Settled ∧ (c'.step e).finalResults = c.finalResults := by
    rintro c' ⟨hsettled, hresults⟩ e
    have hstep := settled_step hsettled e
    exact ⟨hstep.1, hstep.2.trans hresults⟩
  exact (exec_invariant (fun c' e hc' => hinv c' hc' e) ⟨h, rfl⟩ es).2

/-- A poll of `receive_final_response` when there is a message. -/
theorem poll_final_cons {c : ClientTransaction} (hok : c.StatesOk) {wait : Wait}
    (hactivity : c.activity = .final wait) {msg : IncomingMessage} {rest : List IncomingMessage}
    (hmsgs : c.channel.messages = msg :: rest) :
    c.poll.Settled ∧ c.poll.finalResults = c.finalResults ++ [finalResult msg] := by
  have hphase : c.state ≤ .proceeding := hok.admits hactivity
  simp only [poll, hactivity]
  rcases c.pollResponse_cases (fun r => r.code.isFinal) wait with
    ⟨r, rest', channel, hmsgs', hfinal, -, -, hpoll⟩ | ⟨channel, hcond, -, -, -, hpoll⟩ |
    ⟨hmsgs', -⟩
  · -- a final response
    obtain ⟨rfl, -⟩ := List.cons.inj (hmsgs.symm.trans hmsgs')
    have hresult : finalResult (.response r) = .ok r := if_pos hfinal
    rw [hresult]
    simp only [hpoll, finishFinal]
    have hcases := finishResponse_cases
      (c := ({ c with channel := channel }.record (.received (.response r)))) (r := r)
      hphase hok.kind hfinal
    rcases hcases with ⟨-, hfinish⟩ | ⟨-, -, ack, timer, -, hfinish⟩ | ⟨-, -, timer, hfinish⟩
    all_goals
      rw [hfinish]
      refine ⟨trivial, ?_⟩
      simp
      rfl
  · -- anything else
    have hresult : finalResult msg = .error .channelClosed := by
      cases msg with
      | request r => rfl
      | response r => exact if_neg (by rw [hcond r (by rw [hmsgs]; rfl)]; decide)
    rw [hresult]
    simp only [hpoll, finishFinal]
    exact ⟨trivial, finalResults_ret_final _ _⟩
  · rw [hmsgs] at hmsgs'
    cases hmsgs'

/-- A poll of `receive_final_response` when there is no message, and time is left. -/
theorem poll_final_nil {c : ClientTransaction} {wait : Wait}
    (hactivity : c.activity = .final wait) (hopen : c.channel.closed = false)
    (hmsgs : c.channel.messages = []) (hearly : c.now < c.timeout) :
    ∃ wait', c.poll.activity = .final wait' ∧ c.poll.channel = c.channel ∧
      c.poll.timeout = c.timeout ∧ c.poll.now = c.now ∧
      c.poll.finalResults = c.finalResults := by
  simp only [poll, hactivity]
  rcases c.pollResponse_cases (fun r => r.code.isFinal) wait with
    ⟨r, rest', channel, hmsgs', -⟩ | ⟨channel, -, hne, -⟩ |
    ⟨-, -, ⟨wait', hpoll⟩ | ⟨hlate, -⟩ | hpoll⟩
  · rw [hmsgs] at hmsgs'
    cases hmsgs'
  · exact absurd hmsgs (hne hopen)
  · simp only [hpoll]
    exact ⟨wait', rfl, rfl, rfl, rfl, finalResults_sendRequest _ _⟩
  · exact absurd hearly (Nat.not_lt.mpr hlate)
  · simp only [hpoll]
    exact ⟨wait, rfl, rfl, rfl, rfl, rfl⟩

/-- The result of the call is decided by the first message that is there, or arrives before the
    deadline. -/
theorem finalResults_run {c : ClientTransaction} (hok : c.StatesOk) {wait : Wait}
    (hactivity : c.activity = .final wait) (hopen : c.channel.closed = false)
    {es : List ClientEvent} (hes : ∀ e ∈ es, e.IsWake) {msg : IncomingMessage}
    (hmsg : (c.channel.messages ++ arrivals c.timeout c.now es).head? = some msg) :
    (c.run (es ++ [.poll])).finalResults = c.finalResults ++ [finalResult msg] := by
  induction es generalizing c wait with
  | nil =>
    rw [arrivals, List.append_nil] at hmsg
    obtain ⟨rest, hmsgs⟩ := List.head?_eq_some_iff.mp hmsg
    exact (poll_final_cons hok hactivity hmsgs).2
  | cons e es ih =>
    have hwakes : ∀ e ∈ es, e.IsWake := fun e he => hes e (List.mem_cons_of_mem _ he)
    cases e with
    | deliver msg' =>
      have hstep : c.step (.deliver msg') = { c with channel := c.channel.send msg' } := by
        rw [step, hopen]
        rfl
      show ((c.step (.deliver msg')).run (es ++ [.poll])).finalResults = _
      rw [hstep]
      refine ih hok hactivity hopen hwakes ?_
      show ((c.channel.send msg').messages ++ arrivals c.timeout c.now es).head? = some msg
      rw [PeekableReceiver.messages_send, List.append_assoc]
      rw [arrivals] at hmsg
      split at hmsg
      · exact hmsg
      · next hlate =>
        -- too late to be the first message
        rw [arrivals_eq_nil (Nat.not_lt.mp hlate), List.append_nil] at hmsg
        rw [List.head?_append, hmsg]
        rfl
    | elapse ms => exact ih hok hactivity hopen hwakes hmsg
    | poll =>
      have hmsg : (c.channel.messages ++ arrivals c.timeout c.now es).head? = some msg := hmsg
      show (c.poll.run (es ++ [.poll])).finalResults = _
      cases hmsgs : c.channel.messages with
      | cons msg' rest =>
        rw [hmsgs, List.cons_append, List.head?_cons, Option.some.injEq] at hmsg
        subst hmsg
        obtain ⟨hsettled, hresults⟩ := poll_final_cons hok hactivity hmsgs
        exact (settled_run hsettled _).trans hresults
      | nil =>
        -- the deadline has not passed, or nothing would arrive
        have hearly : c.now < c.timeout := by
          by_contra hlate
          rw [hmsgs, arrivals_eq_nil (Nat.not_lt.mp hlate)] at hmsg
          cases hmsg
        obtain ⟨wait', hactivity', hchannel, htimeout, hnow, hresults⟩ :=
          poll_final_nil hactivity hopen hmsgs hearly
        rw [← hresults]
        refine ih (StatesOk.poll hok) hactivity' (by rw [hchannel]; exact hopen) hwakes ?_
        rw [hchannel, htimeout, hnow]
        exact hmsg
    | _ => exact (hes _ List.mem_cons_self).elim

/-- The first final response of some messages is final. -/
theorem isFinal_of_firstFinal {msgs : List IncomingMessage} {r : IncomingResponse}
    (h : firstFinal msgs = some r) : r.code.isFinal = true := by
  obtain ⟨before, msg, after, -, hmsg, -⟩ := List.findSome?_eq_some_iff.mp h
  cases msg with
  | request r' => cases hmsg
  | response r' =>
    simp only at hmsg
    split at hmsg
    · next hfinal => exact Option.some.inj hmsg ▸ hfinal
    · cases hmsg

/-- **When a final response is not missed.** A call of `receive_final_response` that is polled
    often enough returns the first final response that arrives before the deadline exactly when
    no other message is in front of it. -/
theorem run_receiveFinalResponse_iff {generated : String} {outgoing : OutgoingRequest}
    {now : Nat} {c₀ c : ClientTransaction} (hsend : send generated outgoing now = some c₀)
    {es₀ : List ClientEvent} (hc : c = c₀.run es₀) (hidle : c.activity = .idle)
    (hle : c.state ≤ .proceeding) (hopen : c.channel.closed = false) {es : List ClientEvent}
    (hes : ∀ e ∈ es, e.IsWake) {r : IncomingResponse}
    (hr : firstFinal (c.channel.messages ++ arrivals c.timeout c.now es) = some r) :
    (c.run (.receiveFinalResponse :: es ++ [.poll])).finalResults = c.finalResults ++ [.ok r] ↔
      (c.channel.messages ++ arrivals c.timeout c.now es).head? = some (.response r) := by
  have hok : c.StatesOk := hc ▸ (statesOk_send hsend).run es₀
  obtain ⟨wait, hstep⟩ := call_final hidle hle
  have hcons : c.run (.receiveFinalResponse :: es ++ [.poll]) =
      (c.become (.final wait)).run (es ++ [.poll]) := by
    rw [← hstep]
    rfl
  rw [hcons]
  cases hmsgs : c.channel.messages ++ arrivals c.timeout c.now es with
  | nil =>
    rw [hmsgs] at hr
    cases hr
  | cons msg rest =>
    have hfirst : (c.channel.messages ++ arrivals c.timeout c.now es).head? = some msg := by
      rw [hmsgs]
      rfl
    have hresults := finalResults_run (c := c.become (.final wait)) (ClientStates.become hok hle)
      rfl hopen hes hfirst
    rw [hresults, finalResults_become, List.append_cancel_left_eq, List.head?_cons,
      List.singleton_inj, Option.some.injEq]
    -- the call returns what is made of the first message, whatever follows it
    constructor
    · intro hresult
      cases msg with
      | request r' => cases hresult
      | response r' =>
        simp only [finalResult] at hresult
        split at hresult
        · exact congrArg _ (Except.ok.inj hresult)
        · cases hresult
    · rintro rfl
      exact if_pos (isFinal_of_firstFinal hr)

/-- A `200` for an `INVITE` that has rung for a while. -/
theorem run_receiveFinalResponse_ok :
    (((new "z9hG4bK1" (.toLocalhost .invite false) 0).run
      [.receiveProvisionalResponse, .deliver (.response (.ofCode .ringing)), .poll]).run
        (.receiveFinalResponse :: [.elapse 600, .poll, .deliver (.response (.ofCode .ok))] ++
          [.poll])).finalResults = [.ok (.ofCode .ok)] := by
  have hsend : send "z9hG4bK1" (.toLocalhost .invite false) 0 =
      some (new "z9hG4bK1" (.toLocalhost .invite false) 0) := rfl
  have hwakes : ∀ e ∈ [ClientEvent.elapse 600, .poll, .deliver (.response (.ofCode .ok))],
      e.IsWake := by
    simp [ClientEvent.IsWake]
  exact (run_receiveFinalResponse_iff hsend rfl rfl (by decide) rfl hwakes rfl).mpr rfl

/-- A provisional response that was not received first hides the final one. -/
theorem not_forall_receiveFinalResponse :
    ¬ ∀ (generated : String) (outgoing : OutgoingRequest) (now : Nat) (c₀ : ClientTransaction)
      (es₀ : List ClientEvent), send generated outgoing now = some c₀ →
      (c₀.run es₀).activity = .idle → (c₀.run es₀).state ≤ .proceeding →
      (c₀.run es₀).channel.closed = false → ∀ (es : List ClientEvent), (∀ e ∈ es, e.IsWake) →
      ∀ r, firstFinal ((c₀.run es₀).channel.messages ++
        arrivals (c₀.run es₀).timeout (c₀.run es₀).now es) = some r →
      (c₀.run (es₀ ++ (.receiveFinalResponse :: es ++ [.poll]))).finalResults =
        (c₀.run es₀).finalResults ++ [.ok r] := by
  intro hall
  have h := hall "z9hG4bK1" (.toLocalhost .invite false) 0 _
    [.deliver (.response (.ofCode .ringing)), .deliver (.response (.ofCode .ok))] rfl rfl
    (by decide) rfl [] (by simp) (.ofCode .ok) rfl
  exact absurd h (by decide)

/-! ### The `ACK`s -/

/-- An `ACK` is handed to the transport. -/
def isAck : ClientOutput → Bool
  | .sent request => request.method = .ack
  | .received _ | .returned _ => false

/-- A final response other than a 2xx is received. -/
def isNonSuccess : ClientOutput → Bool
  | .received (.response r) => r.isNonSuccess
  | .received (.request _) | .sent _ | .returned _ => false

/-- The `ACK`s sent so far. -/
def acks (c : ClientTransaction) : Nat := c.trace.countP isAck

/-- The final responses other than 2xx received so far. -/
def nonSuccesses (c : ClientTransaction) : Nat := c.trace.countP isNonSuccess

/-- The condition on a step: over a reliable transport no final response other than a 2xx is
    there to be taken by `receive_final_response`, and later there is nothing else. -/
def AckStep (c : ClientTransaction) : ClientEvent → Prop
  | .poll =>
    match c.activity with
    | .final _ => c.isReliable = true →
        ∀ r, c.channel.messages.head? = some (.response r) → r.isNonSuccess = false
    | .completed _ _ =>
        ∀ r, c.channel.messages.head? = some (.response r) → r.isNonSuccess = true
    | .idle | .provisional _ _ | .dropped => True
  | _ => True

section

variable (c : ClientTransaction)

/-- To set the state receives nothing. -/
@[simp] theorem acks_setState (s : State) : (c.setState s).acks = c.acks := rfl
@[simp] theorem acks_become (activity : ClientActivity) : (c.become activity).acks = c.acks := rfl
@[simp] theorem nonSuccesses_setState (s : State) :
    (c.setState s).nonSuccesses = c.nonSuccesses := rfl

/-- To change what is under way receives nothing. -/
@[simp] theorem nonSuccesses_become (activity : ClientActivity) :
    (c.become activity).nonSuccesses = c.nonSuccesses := rfl

/-- To record an output adds an `ACK` exactly if it hands one over. -/
theorem acks_record (out : ClientOutput) :
    (c.record out).acks = c.acks + if isAck out then 1 else 0 := by
  unfold acks record
  rw [List.countP_append, List.countP_singleton]

/-- To record an output adds a response exactly if it receives one other than a 2xx. -/
theorem nonSuccesses_record (out : ClientOutput) :
    (c.record out).nonSuccesses = c.nonSuccesses + if isNonSuccess out then 1 else 0 := by
  unfold nonSuccesses record
  rw [List.countP_append, List.countP_singleton]

/-- To take a message out of the channel sends no `ACK`. -/
@[simp] theorem acks_received (msg : IncomingMessage) : (c.record (.received msg)).acks = c.acks :=
  acks_record c _

/-- The return of a call sends no `ACK`. -/
@[simp] theorem acks_ret (res : CallResult) : (c.ret res).acks = c.acks := acks_record c _

/-- The return of a call receives nothing. -/
@[simp] theorem nonSuccesses_ret (res : CallResult) :
    (c.ret res).nonSuccesses = c.nonSuccesses := nonSuccesses_record c _

/-- To transmit a request receives nothing. -/
@[simp] theorem nonSuccesses_sendRequest (request : OutgoingRequest) :
    (c.sendRequest request).nonSuccesses = c.nonSuccesses := nonSuccesses_record c _

/-- To transmit a request sends an `ACK` exactly if it is one. -/
theorem acks_sendRequest (request : OutgoingRequest) :
    (c.sendRequest request).acks = c.acks + if request.method = .ack then 1 else 0 := by
  rw [sendRequest, acks_record]
  simp only [isAck, decide_eq_true_eq]

/-- To take a response out of the channel counts exactly if its code is from 300 to 699. -/
theorem nonSuccesses_received (r : IncomingResponse) :
    (c.record (.received (.response r))).nonSuccesses =
      c.nonSuccesses + if r.isNonSuccess then 1 else 0 :=
  nonSuccesses_record c _

/-- The end of a call for a provisional response sends no `ACK` and receives nothing. -/
theorem acks_finishProvisional (seen : State) (res : Except Error (Option IncomingResponse)) :
    (c.finishProvisional seen res).acks = c.acks ∧
      (c.finishProvisional seen res).nonSuccesses = c.nonSuccesses := by
  cases res with
  | error e => exact ⟨acks_ret _ _, nonSuccesses_ret _ _⟩
  | ok response =>
    simp only [finishProvisional]
    split
    · exact ⟨by simp, by simp⟩
    · exact ⟨by simp, by simp⟩

end

/-- A request that is sent again is no `ACK`. -/
theorem acks_retransmit {c : ClientTransaction} (hinvite : c.isInvite = true) :
    (c.sendRequest c.request).acks = c.acks := by
  have hmethod : c.request.method = .invite := of_decide_eq_true hinvite
  rw [acks_sendRequest, hmethod]
  rfl

/-- A poll of a call for a provisional response leaves both counts alone: it takes provisional
    responses only. -/
theorem poll_counts_provisional {c : ClientTransaction} (hinvite : c.isInvite = true)
    {seen : State} {wait : Wait} (hactivity : c.activity = .provisional seen wait) :
    c.poll.activity.HasAck ∧ c.poll.acks = c.acks ∧ c.poll.nonSuccesses = c.nonSuccesses := by
  have hreturns : ∀ (res : Except Error (Option IncomingResponse)) (c : ClientTransaction),
      (c.finishProvisional seen res).activity.HasAck := by
    intro res c
    cases res <;> trivial
  simp only [poll, hactivity]
  rcases c.pollResponse_cases (fun r => r.code.isProvisional) wait with
    ⟨r, rest, channel, -, hprovisional, -, -, hpoll⟩ | ⟨channel, -, -, -, -, hpoll⟩ |
    ⟨-, -, ⟨wait', hpoll⟩ | ⟨-, hpoll⟩ | hpoll⟩
  · simp only [hpoll]
    obtain ⟨hacks, hnon⟩ := acks_finishProvisional
      ({ c with channel := channel }.record (.received (.response r))) seen (.ok (some r))
    -- what this call takes is no final response
    have hr : r.isNonSuccess = false := by
      refine StatusCode.isNonSuccess_of_isFinal_eq_false ?_
      rw [StatusCode.isFinal, hprovisional]
      rfl
    refine ⟨hreturns _ _, hacks.trans (acks_received _ _), hnon.trans ?_⟩
    rw [nonSuccesses_received, hr]
    rfl
  · simp only [hpoll]
    exact ⟨hreturns _ _, acks_finishProvisional { c with channel := channel } seen (.ok none)⟩
  · simp only [hpoll]
    exact ⟨trivial, acks_retransmit hinvite, nonSuccesses_sendRequest _ _⟩
  · simp only [hpoll]
    exact ⟨hreturns _ _, acks_finishProvisional (c.setState .terminated) seen
      (.error (.transaction .timeout))⟩
  · simp only [hpoll]
    exact ⟨trivial, rfl, rfl⟩

/-- A poll of `receive_final_response` adds as much to both counts unless it takes a final
    response other than a 2xx from a reliable transport. -/
theorem poll_counts_final {c : ClientTransaction} (hok : c.StatesOk) (hinvite : c.isInvite = true)
    {wait : Wait} (hactivity : c.activity = .final wait) :
    c.poll.activity.HasAck ∧ ∃ n m, c.poll.acks = c.acks + n ∧
      c.poll.nonSuccesses = c.nonSuccesses + m ∧ (n = m ↔ (c.isReliable = true →
        ∀ r, c.channel.messages.head? = some (.response r) → r.isNonSuccess = false)) := by
  have hphase : c.state ≤ .proceeding := hok.admits hactivity
  simp only [poll, hactivity]
  rcases c.pollResponse_cases (fun r => r.code.isFinal) wait with
    ⟨r, rest, channel, hmsgs, hfinal, -, -, hpoll⟩ | ⟨channel, hcond, -, -, -, hpoll⟩ |
    ⟨hmsgs, -, hpoll⟩
  · simp only [hpoll, finishFinal, hmsgs]
    have hcond : (∀ r', (IncomingMessage.response r :: rest).head? = some (.response r') →
        r'.isNonSuccess = false) ↔ r.isNonSuccess = false := by
      simp
    rw [hcond]
    rcases finishResponse_cases
      (c := ({ c with channel := channel }.record (.received (.response r)))) (r := r)
      hphase hok.kind hfinal with
      ⟨hwhy, hfinish⟩ | ⟨hreliable, hnon, ack, timer, hmethod, hfinish⟩ | ⟨-, hnot, -⟩
    · -- no `ACK` is sent over a reliable transport, or for a `2xx`
      rw [hfinish]
      refine ⟨trivial, 0, if r.isNonSuccess then 1 else 0, by simp; rfl, ?_, ?_⟩
      · simp only [nonSuccesses_become, nonSuccesses_ret, nonSuccesses_setState]
        exact nonSuccesses_received _ r
      · rcases hwhy with hreliable | ⟨-, hnon⟩
        · have hreliable : c.isReliable = true := hreliable
          cases hr : r.isNonSuccess <;> simp [hreliable]
        · simp [hnon]
    · -- the one branch that sends one
      rw [hfinish]
      refine ⟨⟨ack, rfl, hmethod⟩, 1, 1, ?_, ?_, ?_⟩
      · simp only [acks_become, acks_ret]
        rw [acks_sendRequest, if_pos hmethod]
        simp
        rfl
      · simp only [nonSuccesses_become, nonSuccesses_ret, nonSuccesses_setState,
          nonSuccesses_sendRequest]
        rw [nonSuccesses_received, if_pos hnon]
        rfl
      · have hreliable : c.isReliable = false := hreliable
        simp [hreliable]
    · have hnot : c.isInvite = false := hnot
      rw [hinvite] at hnot
      cases hnot
  · -- no final response is there
    simp only [hpoll, finishFinal]
    refine ⟨trivial, 0, 0, by simp; rfl, by simp; rfl, iff_of_true rfl fun _ r hr => ?_⟩
    exact StatusCode.isNonSuccess_of_isFinal_eq_false (hcond r hr)
  · -- nothing is taken off
    have hempty : c.isReliable = true → ∀ r : IncomingResponse,
        c.channel.messages.head? = some (.response r) → r.isNonSuccess = false := by
      intro _ r hr
      rw [hmsgs] at hr
      cases hr
    rcases hpoll with ⟨wait', hpoll⟩ | ⟨-, hpoll⟩ | hpoll
    · simp only [hpoll]
      exact ⟨trivial, 0, 0, acks_retransmit hinvite, nonSuccesses_sendRequest _ _,
        iff_of_true rfl hempty⟩
    · simp only [hpoll, finishFinal]
      exact ⟨trivial, 0, 0, by simp, by simp, iff_of_true rfl hempty⟩
    · simp only [hpoll]
      exact ⟨trivial, 0, 0, rfl, rfl, iff_of_true rfl hempty⟩

/-- A pass of the task that outlives the final response repeats the `ACK` for every response. -/
theorem pollCompleted_counts {c : ClientTransaction} {timer : Nat} {ack : OutgoingRequest}
    (hmethod : ack.method = .ack) (hactivity : c.activity = .completed timer (some ack)) :
    (c.pollCompleted timer (some ack)).activity.HasAck ∧ ∃ n m,
      (c.pollCompleted timer (some ack)).acks = c.acks + n ∧
      (c.pollCompleted timer (some ack)).nonSuccesses = c.nonSuccesses + m ∧
      (n = m ↔ ∀ r, c.channel.messages.head? = some (.response r) → r.isNonSuccess = true) := by
  have hsame : c.activity.HasAck := by
    rw [hactivity]
    exact ⟨ack, rfl, hmethod⟩
  rcases c.channel.pollRecv_cases with
    ⟨msg, rest, channel, hmsgs, hpoll, -, -⟩ | ⟨hmsgs, -, hpoll⟩ | ⟨hmsgs, -, hpoll⟩
  · simp only [pollCompleted, hpoll, hmsgs]
    cases msg with
    | request r =>
      exact ⟨trivial, 0, 0, by simp; rfl, nonSuccesses_record _ _, iff_of_true rfl (by simp)⟩
    -- any response is answered with the `ACK`, whatever its code
    | response r =>
      refine ⟨hsame, 1, if r.isNonSuccess then 1 else 0, ?_, ?_, ?_⟩
      · rw [acks_sendRequest, if_pos hmethod]
        simp
        rfl
      · rw [nonSuccesses_sendRequest]
        exact nonSuccesses_received _ r
      · cases hr : r.isNonSuccess <;> simp [hr]
  · simp only [pollCompleted, hpoll, hmsgs]
    exact ⟨trivial, 0, 0, rfl, rfl, iff_of_true rfl (by simp)⟩
  · simp only [pollCompleted, hpoll, hmsgs]
    split
    · exact ⟨trivial, 0, 0, rfl, rfl, iff_of_true rfl (by simp)⟩
    · exact ⟨hsame, 0, 0, rfl, rfl, iff_of_true rfl (by simp)⟩

/-- What holds of an `INVITE` transaction in every state. -/
structure AckOk (c : ClientTransaction) : Prop where
  states : c.StatesOk
  invite : c.isInvite = true
  hasAck : c.activity.HasAck

/-- A step that is no poll leaves both counts alone. -/
theorem step_counts_of_ne_poll {c : ClientTransaction} (hack : c.activity.HasAck)
    {e : ClientEvent} (he : e ≠ .poll) :
    (c.step e).activity.HasAck ∧ (c.step e).acks = c.acks ∧
      (c.step e).nonSuccesses = c.nonSuccesses := by
  -- a call that returns at once leaves both counts alone
  cases e with
  | poll => exact absurd rfl he
  | close => exact ⟨hack, rfl, rfl⟩
  | elapse ms => exact ⟨hack, rfl, rfl⟩
  | recvState i => exact ⟨hack, rfl, rfl⟩
  | deliver msg =>
    simp only [step]
    split <;> exact ⟨hack, rfl, rfl⟩
  | receiveProvisionalResponse =>
    simp only [step, receiveProvisionalResponse]
    repeat' split
    · exact ⟨trivial, rfl, rfl⟩
    · exact ⟨trivial, acks_ret _ _, nonSuccesses_ret _ _⟩
    · exact ⟨hack, acks_ret _ _, nonSuccesses_ret _ _⟩
    · exact ⟨hack, rfl, rfl⟩
  | receiveFinalResponse =>
    simp only [step, receiveFinalResponse]
    repeat' split
    · exact ⟨trivial, rfl, rfl⟩
    · exact ⟨trivial, acks_ret _ _, nonSuccesses_ret _ _⟩
    · exact ⟨hack, rfl, rfl⟩
  | cancel =>
    simp only [step, cancel]
    split
    · exact ⟨trivial, rfl, rfl⟩
    · exact ⟨trivial, rfl, rfl⟩
    all_goals exact ⟨hack, rfl, rfl⟩
  | drop =>
    simp only [step]
    split
    · exact ⟨trivial, rfl, rfl⟩
    · exact ⟨hack, rfl, rfl⟩
  | subscribeState =>
    simp only [step]
    split <;> exact ⟨hack, rfl, rfl⟩

/-- **What a step adds to the two counts**: the same to both exactly when it meets `AckStep`. -/
theorem AckOk.step_counts {c : ClientTransaction} (h : c.AckOk) (e : ClientEvent) :
    (c.step e).AckOk ∧ ∃ n m, (c.step e).acks = c.acks + n ∧
      (c.step e).nonSuccesses = c.nonSuccesses + m ∧ (n = m ↔ c.AckStep e) := by
  have hstates := h.states.step e
  have hinvite : (c.step e).isInvite = true := by
    rw [isInvite, request_step]
    exact h.invite
  by_cases he : e = .poll
  · subst he
    show c.poll.AckOk ∧ ∃ n m, c.poll.acks = c.acks + n ∧
      c.poll.nonSuccesses = c.nonSuccesses + m ∧ (n = m ↔ c.AckStep .poll)
    unfold AckStep
    -- only a call for the final response and the task behind it count anything
    cases hactivity : c.activity with
    | idle =>
      rw [poll_of_idle hactivity]
      exact ⟨h, 0, 0, rfl, rfl, iff_of_true rfl trivial⟩
    | dropped =>
      rw [poll_of_dropped hactivity]
      exact ⟨h, 0, 0, rfl, rfl, iff_of_true rfl trivial⟩
    | provisional seen wait =>
      obtain ⟨hack, hacks, hnon⟩ := poll_counts_provisional h.invite hactivity
      exact ⟨⟨hstates, hinvite, hack⟩, 0, 0, hacks, hnon, iff_of_true rfl trivial⟩
    | final wait =>
      obtain ⟨hack, hcounts⟩ := poll_counts_final h.states h.invite hactivity
      exact ⟨⟨hstates, hinvite, hack⟩, hcounts⟩
    | completed timer ack =>
      have hhas := h.hasAck
      rw [hactivity] at hhas
      obtain ⟨request, rfl, hmethod⟩ := hhas
      obtain ⟨hack, hcounts⟩ := pollCompleted_counts hmethod hactivity
      rw [← poll_of_completed hactivity] at hack hcounts
      exact ⟨⟨hstates, hinvite, hack⟩, hcounts⟩
  · obtain ⟨hack, hacks, hnon⟩ := step_counts_of_ne_poll h.hasAck he
    refine ⟨⟨hstates, hinvite, hack⟩, 0, 0, hacks, hnon, iff_of_true rfl ?_⟩
    cases e <;> trivial

/-- A client transaction starts with both counts at zero. -/
theorem ackOk_send {generated : String} {outgoing : OutgoingRequest} {now : Nat}
    {c : ClientTransaction} (h : send generated outgoing now = some c)
    (hinvite : c.isInvite = true) : c.AckOk ∧ c.acks = 0 ∧ c.nonSuccesses = 0 := by
  obtain ⟨hmethod, -, -, -, -, hidle, htrace⟩ := send_eq_some h
  refine ⟨⟨statesOk_send h, hinvite, by rw [hidle]; trivial⟩, ?_, ?_⟩
  · rw [acks, htrace, List.countP_singleton]
    exact if_neg (by rw [isAck, decide_eq_true_eq]; exact hmethod)
  · rw [nonSuccesses, htrace]
    rfl

/-- **When every final response other than a 2xx is acknowledged.** All along a run of an
    `INVITE` transaction as many `ACK`s are sent as such responses are received exactly when
    every step meets `AckStep`: the transport is not reliable, and the responses that follow
    the first one are such responses too. -/
theorem run_acks_iff {generated : String} {outgoing : OutgoingRequest} {now : Nat}
    {c : ClientTransaction} (h : send generated outgoing now = some c)
    (hinvite : c.isInvite = true) (es : List ClientEvent) :
    Always step (fun c => c.acks = c.nonSuccesses) c es ↔ Meets step AckStep c es := by
  obtain ⟨hok, hacks, hnon⟩ := ackOk_send h hinvite
  have hinv : ∀ c e, AckOk c → AckOk (c.step e) := fun c e hok => (hok.step_counts e).1
  refine always_iff_meets hinv ?_ hok (hacks.trans hnon.symm) es
  intro c e hok heq
  obtain ⟨-, n, m, hn, hm, hiff⟩ := hok.step_counts e
  rw [hn, hm, heq, Nat.add_left_cancel_iff]
  exact hiff

/-- A busy callee is acknowledged, and again when it repeats itself. -/
theorem run_acks_busy :
    Always step (fun c => c.acks = c.nonSuccesses)
      (new "z9hG4bK1" (.toLocalhost .invite false) 0)
      [.receiveFinalResponse, .deliver (.response (.ofCode .busyHere)), .poll,
        .deliver (.response (.ofCode .busyHere)), .poll] := by
  have hsend : send "z9hG4bK1" (.toLocalhost .invite false) 0 =
      some (new "z9hG4bK1" (.toLocalhost .invite false) 0) := rfl
  refine (run_acks_iff hsend (by decide) _).mpr ⟨trivial, trivial, ?_, trivial, ?_, trivial⟩
  · exact fun hreliable => absurd hreliable (by decide)
  · intro r hr
    cases hr
    rfl

/-- Over a reliable transport a refusal of an `INVITE` is returned at once, and nothing is
    acknowledged. -/
theorem run_acks_reliable :
    ¬ Always step (fun c => c.acks = c.nonSuccesses)
      (new "z9hG4bK1" (.toLocalhost .invite true) 0)
      [.receiveFinalResponse, .deliver (.response (.ofCode .busyHere)), .poll] := by
  intro h
  exact absurd (h _ (List.prefix_refl _)) (by decide)

end ClientTransaction

end Rssip
