import Rssip.Endpoint.SendResponse
import Rssip.Transaction.Layer

namespace Rssip

open Lib

/-!
# Failures of the transport

A transmission of a request may fail.  The endpoint logs the failure, and says that the request
was sent.

* `Endpoint.sendOutgoingRequest` — a transmission;
* `ClientTransaction.sendVia`, `ClientTransaction.stepVia` — what a transaction does with the
  outcome of its transmission;
* `stepVia_ok` — with the outcomes there are it does what it does in `ClientTransaction.step`;
* `transmission_not_reported` — no failure is reported.
-/

/-- A request on its way, with its encoding, which is empty before the first transmission. -/
structure EncodedRequest where
  outgoing : OutgoingRequest
  encoded : Bytes := []
deriving DecidableEq

namespace Endpoint

/-- `send_outgoing_request`: the request as it is left, and the outcome; `none` where the printer
    of a header panics. -/
def sendOutgoingRequest (plugins : List (EncodedRequest → EncodedRequest))
    (sendMsg : Attempt → Except Error Nat) (r : EncodedRequest) :
    Option (EncodedRequest × Except Error Unit) :=
  let r := plugins.foldl (fun r onOutgoing => onOutgoing r) r
  let encoded := if r.encoded.isEmpty then r.outgoing.encode else some r.encoded
  encoded.map fun encoded =>
    let r := { r with encoded := encoded }
    let target := r.outgoing.targetInfo
    match sendMsg ⟨target.transport, encoded, target.socketAddr⟩ with
    -- the error is logged
    | .error _ => (r, .ok ())
    | .ok _ => (r, .ok ())

/-- The outcome of a transmission of some request over a transport that answers with
    `sendMsg`. -/
def OutcomeOf (sendMsg : Attempt → Except Error Nat) (outcome : Except Error Unit) : Prop :=
  ∃ plugins r r', sendOutgoingRequest plugins sendMsg r = some (r', outcome)

/-- **Every transmission counts as one that was made.** -/
theorem OutcomeOf.eq_ok {sendMsg : Attempt → Except Error Nat} {outcome : Except Error Unit}
    (h : OutcomeOf sendMsg outcome) : outcome = .ok () := by
  obtain ⟨plugins, r, r', hsent⟩ := h
  obtain ⟨encoded, -, heq⟩ := Option.map_eq_some_iff.mp hsent
  simp only [] at heq
  split at heq
  · exact (congrArg Prod.snd heq).symm
  · exact (congrArg Prod.snd heq).symm

end Endpoint

namespace ClientTransaction

/-! ### Transmissions with an outcome -/

/-- `send`, for a request that was transmitted with the given outcome: the transaction or the
    error, and the table; `none` where the code asserts. -/
def sendVia (outcome : Except Error Unit) (generated : String) (outgoing : OutgoingRequest)
    (now : Nat) (sender : ChannelId) (p : TsxPlugin) :
    Option (Except Error ClientTransaction × TsxPlugin) :=
  if outgoing.method = .ack then none
  else
    match outcome with
    | .error e => some (.error e, p)
    | .ok () =>
      let c := new generated outgoing now
      some (.ok c, p.addTransaction c.key sender)

/-- One pass of `receive_response_if`, in which a retransmission has the given outcome. -/
def pollResponseVia (outcome : Except Error Unit) (cond : IncomingResponse → Bool) (wait : Wait)
    (c : ClientTransaction) : Polled × ClientTransaction :=
  match c.pollRecvIf cond with
  | (.ready msg, c) => (.done (.ok msg), c)
  | (.pending, c) =>
    let untilDeadline :=
      if c.timeout ≤ c.now then
        (.done (.error (.transaction .timeout)), c.setState .terminated)
      else (.waiting wait, c)
    match wait with
    | .retransmitting interval expires =>
      if expires ≤ c.now then
        let c := c.sendRequest c.request
        match outcome with
        | .error e => (.done (.error e), c)
        | .ok () =>
          let interval := interval * 2
          (.waiting (.retransmitting interval (c.now + interval)), c)
      else untilDeadline
    | .untilDeadline => untilDeadline
    | .untilReceived => (.waiting wait, c)

/-- A final response was received, and the transmission of its `ACK` has the given outcome. -/
def finishResponseVia (outcome : Except Error Unit) (response : IncomingResponse)
    (c : ClientTransaction) : ClientTransaction :=
  if c.isReliable || (c.isInvite
      && (200 ≤ response.code.asU16 && response.code.asU16 < 299)
      && (c.state = .calling || c.state = .proceeding)) then
    ((c.setState .terminated).ret (.final (.ok response))).become .dropped
  else
    let c := c.setState .completed
    if c.isInvite then
      match createAckRequest c.request response with
      | some ack =>
        let c := c.sendRequest ack
        match outcome with
        | .error e => (c.ret (.final (.error e))).become .dropped
        | .ok () =>
          (c.ret (.final (.ok response))).become (.completed (c.now + 64 * T1) (some ack))
      | none => (c.ret .panicked).become .dropped
    else (c.ret (.final (.ok response))).become (.completed (c.now + T4) none)

/-- The rest of `receive_final_response`. -/
def finishFinalVia (outcome : Except Error Unit) (res : Except Error (Option IncomingResponse))
    (c : ClientTransaction) : ClientTransaction :=
  match res with
  | .ok (some response) => c.finishResponseVia outcome response
  | .ok none => (c.ret (.final (.error .channelClosed))).become .dropped
  | .error e => (c.ret (.final (.error e))).become .dropped

/-- The waiting call or task is polled.  The task logs the outcomes of its transmissions. -/
def pollVia (outcome : Except Error Unit) (c : ClientTransaction) : ClientTransaction :=
  match c.activity with
  | .provisional state wait =>
    match c.pollResponseVia outcome (fun r => r.code.isProvisional) wait with
    | (.done res, c) => c.finishProvisional state res
    | (.waiting wait, c) => c.become (.provisional state wait)
  | .final wait =>
    match c.pollResponseVia outcome (fun r => r.code.isFinal) wait with
    | (.done res, c) => c.finishFinalVia outcome res
    | (.waiting wait, c) => c.become (.final wait)
  | .completed timer ack => c.pollCompleted timer ack
  | .idle | .dropped => c

/-- A step in which a transmission, if there is one, has the given outcome. -/
def stepVia (outcome : Except Error Unit) (c : ClientTransaction) (e : ClientEvent) :
    ClientTransaction :=
  match e with
  | .poll => c.pollVia outcome
  | e => c.step e

/-! ### With the outcomes of the endpoint -/

theorem pollResponseVia_ok (cond : IncomingResponse → Bool) (wait : Wait)
    (c : ClientTransaction) : c.pollResponseVia (.ok ()) cond wait = c.pollResponse cond wait := by
  unfold pollResponseVia pollResponse
  rcases c.pollRecvIf cond with ⟨msg | _, c'⟩
  · rfl
  · cases wait <;> rfl

/-- **A transaction whose transmissions are all made** goes the steps of
    `ClientTransaction.step`. -/
theorem stepVia_ok (c : ClientTransaction) (e : ClientEvent) : c.stepVia (.ok ()) e = c.step e := by
  cases e with
  | poll =>
    show c.pollVia (.ok ()) = c.poll
    unfold pollVia poll
    cases c.activity with
    | provisional state wait =>
      exact congrArg (fun polled : Polled × ClientTransaction =>
        match polled with
        | (.done res, c) => c.finishProvisional state res
        | (.waiting wait, c) => c.become (.provisional state wait))
        (pollResponseVia_ok _ wait c)
    | final wait =>
      exact congrArg (fun polled : Polled × ClientTransaction =>
        match polled with
        | (.done res, c) => c.finishFinal res
        | (.waiting wait, c) => c.become (.final wait))
        (pollResponseVia_ok _ wait c)
    | completed timer ack => rfl
    | idle => rfl
    | dropped => rfl
  | _ => rfl

end ClientTransaction

/-- A request is handed to the transport. -/
def ClientOutput.IsSent : ClientOutput → Prop
  | .sent _ => True
  | .received _ | .returned _ => False

/-- A call returns an error. -/
def ClientOutput.IsError : ClientOutput → Prop
  | .returned (.provisional (.error _)) | .returned (.final (.error _)) => True
  | .returned (.provisional (.ok _)) | .returned (.final (.ok _)) | .returned .panicked
  | .sent _ | .received _ => False

namespace ClientTransaction

/-- A call is waiting. -/
def InCall (c : ClientTransaction) : Prop :=
  match c.activity with
  | .provisional _ _ | .final _ => True
  | .idle | .completed _ _ | .dropped => False

/-- Between the two states there is an output as described. -/
def Outputs (kind : ClientOutput → Prop) (c c' : ClientTransaction) : Prop :=
  ∃ out ∈ c'.trace.drop c.trace.length, kind out

/-- From `c` to `c'` the outputs are `new`, of which no two are a transmission and an error. -/
def Apart (c c' : ClientTransaction) : Prop :=
  ∃ new, c'.trace = c.trace ++ new ∧ ((∀ out ∈ new, ¬ out.IsSent) ∨ ∀ out ∈ new, ¬ out.IsError)

theorem Apart.outputs {c c' : ClientTransaction} (h : Apart c c')
    (hsent : Outputs ClientOutput.IsSent c c') :
    ¬ Outputs ClientOutput.IsError c c' := by
  obtain ⟨new, htrace, hnew⟩ := h
  unfold Outputs at hsent ⊢
  rw [htrace, List.drop_left] at hsent ⊢
  obtain ⟨out, hout, hkind⟩ := hsent
  rcases hnew with hnone | hnone
  · exact absurd hkind (hnone out hout)
  · rintro ⟨out', hout', hkind'⟩
    exact hnone out' hout' hkind'

theorem apart_of_same {c c' : ClientTransaction} (h : c'.trace = c.trace) : Apart c c' :=
  ⟨[], by rw [h, List.append_nil], .inl fun _ hout => nomatch hout⟩

/-- What is put in front of the outputs is no error. -/
theorem Apart.after_received {c c₁ c₂ : ClientTransaction} {msg : IncomingMessage}
    (h : c₁.trace = c.trace ++ [.received msg]) (h' : Apart c₁ c₂) : Apart c c₂ := by
  obtain ⟨new, htrace, hnew⟩ := h'
  refine ⟨.received msg :: new, ?_, ?_⟩
  · rw [htrace, h, List.append_assoc]
    rfl
  · exact hnew.imp (fun hnone => List.forall_mem_cons.mpr ⟨id, hnone⟩)
      (fun hnone => List.forall_mem_cons.mpr ⟨id, hnone⟩)

theorem apart_finishResponse (response : IncomingResponse) (c : ClientTransaction) :
    Apart c (c.finishResponse response) := by
  unfold finishResponse
  split
  · exact ⟨[.returned (.final (.ok response))], rfl, .inl (by simp [ClientOutput.IsSent])⟩
  · simp only []
    split
    · split
      · -- the `ACK` is sent, and the call returns the response
        next ack _ =>
        refine ⟨[.sent ack, .returned (.final (.ok response))], ?_,
          .inr (by simp [ClientOutput.IsError])⟩
        exact List.append_assoc _ _ _
      · exact ⟨[.returned .panicked], rfl, .inl (by simp [ClientOutput.IsSent])⟩
    · exact ⟨[.returned (.final (.ok response))], rfl, .inl (by simp [ClientOutput.IsSent])⟩

theorem apart_finishFinal (res : Except Error (Option IncomingResponse)) (c : ClientTransaction) :
    Apart c (c.finishFinal res) := by
  unfold finishFinal
  split
  · exact apart_finishResponse _ c
  · exact ⟨_, rfl, .inl (by simp [ClientOutput.IsSent])⟩
  · exact ⟨_, rfl, .inl (by simp [ClientOutput.IsSent])⟩

theorem apart_finishProvisional (seen : State) (res : Except Error (Option IncomingResponse))
    (c : ClientTransaction) : Apart c (c.finishProvisional seen res) := by
  unfold finishProvisional
  split
  · next response =>
    refine ⟨[.returned (.provisional (.ok response))], ?_, .inl (by simp [ClientOutput.IsSent])⟩
    simp only []
    split
    · rfl
    · rfl
  · exact ⟨_, rfl, .inl (by simp [ClientOutput.IsSent])⟩

/-- What follows a poll of `receive_response_if`. -/
theorem apart_pollResponse (cond : IncomingResponse → Bool) (wait : Wait) (c : ClientTransaction)
    {finish : Except Error (Option IncomingResponse) → ClientTransaction → ClientTransaction}
    (hfinish : ∀ res c', Apart c' (finish res c')) (resume : Wait → ClientActivity) :
    Apart c (match c.pollResponse cond wait with
      | (.done res, c) => finish res c
      | (.waiting wait, c) => c.become (resume wait)) := by
  rcases c.pollResponse_cases cond wait with
    ⟨r, rest, channel, -, -, -, -, hpoll⟩ | ⟨channel, -, -, -, -, hpoll⟩ |
    ⟨-, -, ⟨wait', hpoll⟩ | ⟨-, hpoll⟩ | hpoll⟩
  · rw [hpoll]
    exact Apart.after_received rfl (hfinish _ _)
  · rw [hpoll]
    exact hfinish _ _
  · -- a retransmission, after which the call goes on
    rw [hpoll]
    exact ⟨[.sent c.request], rfl, .inr (by simp [ClientOutput.IsError])⟩
  · rw [hpoll]
    exact hfinish _ _
  · rw [hpoll]
    exact apart_of_same rfl

/-- **A call that makes a transmission does not return an error at it.** -/
theorem apart_step {c : ClientTransaction} (hcall : c.InCall) (e : ClientEvent) :
    Apart c (c.step e) := by
  by_cases he : e = .poll
  · rw [he]
    show Apart c c.poll
    unfold poll
    split
    · exact apart_pollResponse _ _ c (fun res c' => apart_finishProvisional _ res c') _
    · exact apart_pollResponse _ _ c (fun res c' => apart_finishFinal res c') _
    · next hactivity => simp [InCall, hactivity] at hcall
    all_goals exact apart_of_same rfl
  · obtain ⟨new, htrace, hnew, -⟩ := (framed_step c he).trace
    have hbusy : c.activity ≠ .idle := by
      intro hidle
      simp [InCall, hidle] at hcall
    rw [hnew hbusy, List.append_nil] at htrace
    exact apart_of_same htrace

/-- A failure of the first transmission is reported: `send` returns an error, and there is no
    entry for the transaction. -/
def SendReports (outcome : Except Error Unit) (generated : String) (outgoing : OutgoingRequest)
    (now : Nat) (sender : ChannelId) (p : TsxPlugin) : Prop :=
  ∃ e p', sendVia outcome generated outgoing now sender p = some (.error e, p') ∧
    p'.getEntry (new generated outgoing now).key = none

/-- **Failures of the transport are not reported.** Whatever the transport answers, `send` makes
    the transaction and its entry, and a call that sends its request or an `ACK` does not return
    an error at that; every step is that of a transaction whose transmissions are made. -/
theorem transmission_not_reported {sendMsg : Attempt → Except Error Nat}
    {outcome : Except Error Unit} (houtcome : Endpoint.OutcomeOf sendMsg outcome) :
    (∀ generated outgoing now sender p, outgoing.method ≠ .ack →
      ¬ SendReports outcome generated outgoing now sender p ∧
        ∃ c, sendVia outcome generated outgoing now sender p =
          some (.ok c, p.addTransaction c.key sender)) ∧
      (∀ (c : ClientTransaction) e, c.InCall → Outputs ClientOutput.IsSent c (c.stepVia outcome e) →
        ¬ Outputs ClientOutput.IsError c (c.stepVia outcome e)) ∧
      ∀ (c : ClientTransaction) e, c.stepVia outcome e = c.step e := by
  obtain rfl := houtcome.eq_ok
  refine ⟨fun generated outgoing now sender p hmethod => ?_, fun c e hcall hsent => ?_,
    stepVia_ok⟩
  · have hsend : sendVia (.ok ()) generated outgoing now sender p =
        some (.ok (new generated outgoing now),
          p.addTransaction (new generated outgoing now).key sender) := if_neg hmethod
    refine ⟨?_, _, hsend⟩
    rintro ⟨e, p', herror, -⟩
    rw [hsend] at herror
    simp at herror
  · rw [stepVia_ok] at hsent ⊢
    exact (apart_step hcall e).outputs hsent

/-- A transport that fails. -/
def simulatedFailure : Attempt → Except Error Nat :=
  fun _ => .error (.transport "Simulated failure")

/-- The first transmission over it. -/
theorem outcomeOf_simulatedFailure : Endpoint.OutcomeOf simulatedFailure (.ok ()) :=
  ⟨[], ⟨.toLocalhost .options false, []⟩, _, rfl⟩

/-- `send` over this transport makes a transaction. -/
theorem transmission_not_reported_options :
    ¬ SendReports (.ok ()) "z9hG4bK1" (.toLocalhost .options false) 0 0 {} :=
  ((transmission_not_reported outcomeOf_simulatedFailure).1 _ _ _ _ _ (by decide)).1

/-- The failure of the first transmission is not among the outcomes that are reported. -/
theorem not_sendReports_options :
    ¬ ∀ outcome, Endpoint.OutcomeOf simulatedFailure outcome →
      SendReports outcome "z9hG4bK1" (.toLocalhost .options false) 0 0 {} := by
  intro h
  obtain ⟨e, p', hsend, -⟩ := h _ outcomeOf_simulatedFailure
  unfold sendVia at hsend
  simp [OutgoingRequest.toLocalhost, OutgoingRequest.method] at hsend

end ClientTransaction

end Rssip
