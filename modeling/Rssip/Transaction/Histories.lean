import Rssip.Transaction.ClientResponses
import Rssip.Transaction.ServerWire

namespace Rssip

open Lib

/-!
# What transactions hear and say

The trace of a transaction against the messages that came into its channel: what it returns to its
user it has received before, and what it sends it was given.

* `ClientTransaction.heard`, `ServerTransaction.heard` — the messages that have come in;
* `ClientTransaction.Honest` — a call returns responses that were received, and what is sent is the
  request or the `ACK` for a response that was returned;
* `ServerTransaction.Honest` — the final responses that are sent are one response, and a confirmed
  transaction has received an `ACK`.
-/

/-! ### Client transactions -/

/-- The message, if one was taken out of the channel. -/
def ClientOutput.received? : ClientOutput → Option IncomingMessage
  | received msg => some msg
  | _ => none

namespace ClientTransaction

/-- The messages that have come in, in the channel or taken out of it. -/
def heard (c : ClientTransaction) : List IncomingMessage :=
  c.trace.filterMap ClientOutput.received? ++ c.channel.messages

/-- The request is the `ACK` for a final response to the `INVITE` that was returned. -/
def Acks (c : ClientTransaction) (ack : OutgoingRequest) : Prop :=
  c.isInvite = true ∧ ∃ r, .returned (.final (.ok r)) ∈ c.trace ∧
    createAckRequest c.request r = some ack

/-- Why a transaction has done something. -/
def Justifies (c : ClientTransaction) : ClientOutput → Prop
  | .sent o => o = c.request ∨ c.Acks o
  | .returned (.provisional (.ok (some r))) =>
    .received (.response r) ∈ c.trace ∧ r.code.isProvisional = true
  | .returned (.final (.ok r)) => .received (.response r) ∈ c.trace ∧ r.code.isFinal = true
  | _ => True

/-- Whatever the transaction has done it had a reason for, and the `ACK` it repeats is one for a
    response that was returned. -/
structure Honest (c : ClientTransaction) : Prop where
  method : c.request.method ≠ .ack
  trace : ∀ out ∈ c.trace, c.Justifies out
  ack : ∀ timer ack, c.activity = .completed timer (some ack) → c.Acks ack

variable {c c' : ClientTransaction}

/-- A message has come in if it was taken out of the channel or is still in it. -/
theorem mem_heard_iff {msg : IncomingMessage} :
    msg ∈ c.heard ↔ .received msg ∈ c.trace ∨ msg ∈ c.channel.messages := by
  have hreceived : ∀ out : ClientOutput, out.received? = some msg ↔ out = .received msg := by
    intro out
    cases out <;> simp [ClientOutput.received?]
  simp [heard, List.mem_filterMap, hreceived]

/-- Reasons stay reasons when the trace grows. -/
theorem Acks.mono {ack : OutgoingRequest} (h : c.Acks ack) (hrequest : c'.request = c.request)
    (htrace : c.trace ⊆ c'.trace) : c'.Acks ack := by
  obtain ⟨hinvite, r, hr, hack⟩ := h
  unfold Acks isInvite
  rw [hrequest]
  exact ⟨hinvite, r, htrace hr, hack⟩

/-- A reason stays one: the trace only grows and the request is the same. -/
theorem Justifies.mono {out : ClientOutput} (h : c.Justifies out)
    (hrequest : c'.request = c.request) (htrace : c.trace ⊆ c'.trace) : c'.Justifies out := by
  cases out with
  | sent o =>
    rcases h with heq | hacks
    · exact .inl (heq.trans hrequest.symm)
    · exact .inr (hacks.mono hrequest htrace)
  | received msg => exact trivial
  | returned res =>
    rcases res with (e | (_ | r)) | (e | r) | _
    · exact trivial
    · exact trivial
    · exact ⟨htrace h.1, h.2⟩
    · exact trivial
    · exact ⟨htrace h.1, h.2⟩
    · exact trivial

/-- What the step from `c` to `c'` adds: to the trace, and to the channel. -/
structure Speaks (e : ClientEvent) (c c' : ClientTransaction) : Prop where
  key : c'.key = c.key
  request : c'.request = c.request
  trace : ∃ new, c'.trace = c.trace ++ new ∧ ∀ out ∈ new, c'.Justifies out
  ack : ∀ timer ack, c'.activity = .completed timer (some ack) →
    c.activity = .completed timer (some ack) ∨ c'.Acks ack
  heard : ∀ msg ∈ c'.heard, msg ∈ c.heard ∨ e = .deliver msg

/-- A transaction that was honest is so after a step that gives a reason for all it adds. -/
theorem Speaks.honest {e : ClientEvent} (h : Speaks e c c') (hc : c.Honest) : c'.Honest := by
  obtain ⟨new, htrace, hnew⟩ := h.trace
  have hsub : c.trace ⊆ c'.trace := htrace ▸ List.subset_append_left _ _
  refine ⟨h.request ▸ hc.method, fun out hout => ?_, fun timer ack hactivity => ?_⟩
  · rw [htrace] at hout
    rcases List.mem_append.mp hout with hold | hnew'
    · exact (hc.trace out hold).mono h.request hsub
    · exact hnew out hnew'
  · rcases h.ack timer ack hactivity with hold | hacks
    · exact (hc.ack timer ack hold).mono h.request hsub
    · exact hacks

/-- A step that changes nothing adds nothing. -/
theorem Speaks.refl (e : ClientEvent) (c : ClientTransaction) : Speaks e c c :=
  ⟨rfl, rfl, ⟨[], by simp, by simp⟩, fun _ _ h => .inl h, fun _ h => .inl h⟩

/-- More is done, with reasons, and no message comes in. -/
theorem Speaks.extend {e : ClientEvent} {c₁ : ClientTransaction} {outs : List ClientOutput}
    (h : Speaks e c c') (hkey : c₁.key = c'.key) (hrequest : c₁.request = c'.request)
    (htrace : c₁.trace = c'.trace ++ outs)
    (houts : ∀ out ∈ outs, c₁.Justifies out ∧ ∀ msg, out = .received msg → msg ∈ c'.heard)
    (hack : ∀ timer ack, c₁.activity = .completed timer (some ack) →
      c'.activity = .completed timer (some ack) ∨ c₁.Acks ack)
    (hmsgs : c₁.channel.messages = c'.channel.messages) : Speaks e c c₁ := by
  obtain ⟨new, hnew, hjustified⟩ := h.trace
  have hsub : c'.trace ⊆ c₁.trace := htrace ▸ List.subset_append_left _ _
  refine ⟨hkey.trans h.key, hrequest.trans h.request, ⟨new ++ outs, ?_, fun out hout => ?_⟩,
    fun timer ack hactivity => ?_, fun msg hmsg => h.heard msg ?_⟩
  · rw [htrace, hnew, List.append_assoc]
  · rcases List.mem_append.mp hout with hold | hnew
    · exact (hjustified out hold).mono hrequest hsub
    · exact (houts out hnew).1
  · rcases hack timer ack hactivity with hold | hacks
    · exact (h.ack timer ack hold).imp_right fun hacks => hacks.mono hrequest hsub
    · exact .inr hacks
  · rcases mem_heard_iff.mp hmsg with hreceived | hqueued
    · rw [htrace] at hreceived
      rcases List.mem_append.mp hreceived with hold | hnew
      · exact mem_heard_iff.mpr (.inl hold)
      · exact (houts _ hnew).2 msg rfl
    · exact mem_heard_iff.mpr (.inr (hmsgs ▸ hqueued))

/-- A change of the channel, the clock or the states that brings no message. -/
theorem Speaks.of_same {e : ClientEvent} {c₁ : ClientTransaction} (h : Speaks e c c')
    (hkey : c₁.key = c'.key) (hrequest : c₁.request = c'.request) (htrace : c₁.trace = c'.trace)
    (hactivity : c₁.activity = c'.activity)
    (hmsgs : c₁.channel.messages = c'.channel.messages) : Speaks e c c₁ :=
  h.extend hkey hrequest (htrace.trans (List.append_nil _).symm) (by simp)
    (fun timer ack hack => .inl (hactivity ▸ hack)) hmsgs

/-- To set the state adds nothing to the trace or the channel. -/
theorem Speaks.setState {e : ClientEvent} (h : Speaks e c c') (state : State) :
    Speaks e c (c'.setState state) := h.of_same rfl rfl rfl rfl rfl

/-- Somebody else holds the transaction, or the task that repeats an `ACK` for a response. -/
theorem Speaks.become {e : ClientEvent} (h : Speaks e c c') {activity : ClientActivity}
    (hack : ∀ timer ack, activity = .completed timer (some ack) → c'.Acks ack) :
    Speaks e c (c'.become activity) :=
  ⟨h.key, h.request, h.trace, fun timer ack heq => .inr (hack timer ack heq), h.heard⟩

/-- To record an output adds it, with the reason for it. -/
theorem Speaks.record {e : ClientEvent} (h : Speaks e c c') {out : ClientOutput}
    (hout : (c'.record out).Justifies out)
    (hheard : ∀ msg, out = .received msg → msg ∈ c'.heard) : Speaks e c (c'.record out) :=
  h.extend rfl rfl rfl (by simpa using ⟨hout, hheard⟩) (fun _ _ hack => .inl hack) rfl

/-- A call returns, and gives back no response. -/
theorem Speaks.ret {e : ClientEvent} (h : Speaks e c c') (res : CallResult)
    (hres : (c'.ret res).Justifies (.returned res)) : Speaks e c (c'.ret res) :=
  h.record hres fun _ hmsg => by cases hmsg

/-- To transmit the request again, or the `ACK` for its response, adds an output with a reason. -/
theorem Speaks.sendRequest {e : ClientEvent} (h : Speaks e c c') {request : OutgoingRequest}
    (hrequest : request = c'.request ∨ c'.Acks request) : Speaks e c (c'.sendRequest request) :=
  h.record (hrequest.imp_right fun hacks => hacks.mono rfl (List.subset_append_left _ _))
    fun _ hmsg => by cases hmsg

/-- A message is taken out of the channel. -/
theorem speaks_receive (e : ClientEvent) {msg : IncomingMessage} {rest : List IncomingMessage}
    {channel : PeekableReceiver IncomingMessage} (hmsgs : c.channel.messages = msg :: rest)
    (hrest : channel.messages = rest) :
    Speaks e c ({ c with channel := channel }.record (.received msg)) := by
  refine ⟨rfl, rfl, ⟨[.received msg], rfl, fun out hout => ?_⟩, fun _ _ h => .inl h,
    fun m hm => ?_⟩
  · rw [List.mem_singleton.mp hout]
    exact trivial
  · left
    rcases mem_heard_iff.mp hm with hreceived | hqueued
    · rcases List.mem_append.mp hreceived with hold | hlast
      · exact mem_heard_iff.mpr (.inl hold)
      · refine mem_heard_iff.mpr (.inr ?_)
        injection List.mem_singleton.mp hlast with heq
        rw [heq, hmsgs]
        exact List.mem_cons_self
    · refine mem_heard_iff.mpr (.inr ?_)
      have hmem : m ∈ rest := hrest ▸ hqueued
      rw [hmsgs]
      exact List.mem_cons_of_mem _ hmem

/-- To return a provisional response from a call adds an output: the response was taken out of the
    channel. -/
theorem speaks_finishProvisional {e : ClientEvent} (h : Speaks e c c') (seen : State)
    {res : Except Error (Option IncomingResponse)}
    (hres : ∀ r, res = .ok (some r) →
      .received (.response r) ∈ c'.trace ∧ r.code.isProvisional = true) :
    Speaks e c (c'.finishProvisional seen res) := by
  have hnone : ∀ activity : ClientActivity, activity = .idle →
      ∀ timer ack, activity = .completed timer (some ack) → False := by
    intro activity hidle timer ack hcompleted
    rw [hidle] at hcompleted
    cases hcompleted
  cases res with
  | error err =>
    exact (h.ret (.provisional (.error err)) trivial).become fun timer ack heq =>
      (hnone _ rfl _ _ heq).elim
  | ok response =>
    have hsame : Speaks e c (if seen ≠ .proceeding then c'.setState .proceeding else c') := by
      split
      · exact h.setState _
      · exact h
    refine (hsame.ret (.provisional (.ok response)) ?_).become fun timer ack heq =>
      (hnone _ rfl _ _ heq).elim
    cases response with
    | none => exact trivial
    | some r =>
      obtain ⟨hreceived, hcode⟩ := hres r rfl
      refine ⟨List.mem_append_left _ ?_, hcode⟩
      split
      · exact hreceived
      · exact hreceived

/-- To return a final response adds it, and over an unreliable transport the `ACK` for it. -/
theorem speaks_finishResponse {e : ClientEvent} (h : Speaks e c c') {r : IncomingResponse}
    (hreceived : .received (.response r) ∈ c'.trace) (hfinal : r.code.isFinal = true) :
    Speaks e c (c'.finishResponse r) := by
  have hret : ∀ state, Speaks e c ((c'.setState state).ret (.final (.ok r))) := fun state =>
    (h.setState state).ret _ ⟨List.mem_append_left _ hreceived, hfinal⟩
  unfold finishResponse
  split
  · exact (hret _).become fun _ _ heq => by cases heq
  · simp only []
    split
    · next hinvite =>
      have hinvite : c'.isInvite = true := hinvite
      split
      · next ack hack =>
        -- the `ACK` is sent in front of the return of the response that it is for
        have hreturned : .returned (.final (.ok r)) ∈
            (c'.trace ++ [.sent ack]) ++ [.returned (.final (.ok r))] :=
          List.mem_append_right _ (List.mem_singleton_self _)
        have htrace : (c'.trace ++ [.sent ack]) ++ [.returned (.final (.ok r))] =
            c'.trace ++ [.sent ack, .returned (.final (.ok r))] := List.append_assoc _ _ _
        refine h.extend rfl rfl htrace ?_ ?_ rfl
        · simp only [List.mem_cons, List.not_mem_nil, or_false, forall_eq_or_imp, forall_eq]
          refine ⟨⟨.inr ⟨hinvite, r, hreturned, hack⟩, fun _ heq => by cases heq⟩,
            ⟨⟨?_, hfinal⟩, fun _ heq => by cases heq⟩⟩
          exact List.mem_append_left _ (List.mem_append_left _ hreceived)
        · intro timer ack' heq
          injection heq with _ hsome
          obtain rfl := Option.some.inj hsome
          exact .inr ⟨hinvite, r, hreturned, hack⟩
      · exact ((h.setState _).ret .panicked trivial).become fun _ _ heq => by cases heq
    · exact (hret _).become fun _ _ heq => by cases heq

/-- To end the call for the final response adds what its result does. -/
theorem speaks_finishFinal {e : ClientEvent} (h : Speaks e c c')
    {res : Except Error (Option IncomingResponse)}
    (hres : ∀ r, res = .ok (some r) →
      .received (.response r) ∈ c'.trace ∧ r.code.isFinal = true) :
    Speaks e c (c'.finishFinal res) := by
  rcases res with err | (_ | r)
  · exact (h.ret (.final (.error err)) trivial).become fun _ _ heq => by cases heq
  · exact (h.ret (.final (.error .channelClosed)) trivial).become fun _ _ heq => by cases heq
  · exact speaks_finishResponse h (hres r rfl).1 (hres r rfl).2

/-- **A pass of a waiting call**, with the response that it takes out of the channel. -/
theorem speaks_pollResponse (e : ClientEvent) (cond : IncomingResponse → Bool) (wait : Wait)
    (c : ClientTransaction) :
    Speaks e c (c.pollResponse cond wait).2 ∧
      ∀ r, (c.pollResponse cond wait).1 = .done (.ok (some r)) →
        .received (.response r) ∈ (c.pollResponse cond wait).2.trace ∧ cond r = true := by
  have hrefl := Speaks.refl e c
  rcases c.pollResponse_cases cond wait with
    ⟨r, rest, channel, hmsgs, hcond, hrest, -, hpoll⟩ | ⟨channel, -, -, hmsgs, -, hpoll⟩ |
    ⟨-, -, ⟨wait', hpoll⟩ | ⟨-, hpoll⟩ | hpoll⟩ <;> rw [hpoll]
  · refine ⟨speaks_receive e hmsgs hrest, fun r' hr' => ?_⟩
    injection hr' with hr'
    obtain rfl := Option.some.inj (Except.ok.inj hr')
    exact ⟨List.mem_append_right _ (List.mem_singleton_self _), hcond⟩
  · exact ⟨hrefl.of_same rfl rfl rfl rfl hmsgs, fun r hr => by simp at hr⟩
  · exact ⟨hrefl.sendRequest (.inl rfl), fun r hr => by simp at hr⟩
  · exact ⟨hrefl.setState _, fun r hr => by simp at hr⟩
  · exact ⟨hrefl, fun r hr => by simp at hr⟩

/-- In the background a transaction repeats the `ACK` it has for each response that comes in, and
    ends with its timer, its channel or a request. -/
theorem speaks_pollCompleted (hc : c.Honest) {timer : Nat} {ack : Option OutgoingRequest}
    (hactivity : c.activity = .completed timer ack) (e : ClientEvent) :
    Speaks e c (c.pollCompleted timer ack) := by
  have hdrop : ∀ c₁, Speaks e c c₁ → Speaks e c ((c₁.setState .terminated).become .dropped) :=
    fun c₁ h => (h.setState _).become fun _ _ heq => by cases heq
  rcases c.channel.pollRecv_cases with
    ⟨msg, rest, channel, hmsgs, hpoll, hrest, -⟩ | ⟨-, -, hpoll⟩ | ⟨-, -, hpoll⟩
  · have hreceive := speaks_receive e hmsgs hrest
    simp only [pollCompleted, hpoll]
    split
    · -- a response that comes again is acknowledged again
      next ack =>
      have hacks := hc.ack timer ack hactivity
      exact hreceive.sendRequest (.inr (hacks.mono rfl (List.subset_append_left _ _)))
    · exact hreceive
    · exact hdrop _ hreceive
  · simp only [pollCompleted, hpoll]
    exact hdrop _ ((Speaks.refl e c).of_same rfl rfl rfl rfl rfl)
  · have hsame : Speaks e c { c with channel := c.channel } := Speaks.refl e c
    simp only [pollCompleted, hpoll]
    split
    · exact hdrop _ hsame
    · exact hsame

/-- A poll adds what the activity it goes on with adds; the cases are those of the activities. -/
theorem speaks_poll (hc : c.Honest) (e : ClientEvent) : Speaks e c c.poll := by
  unfold poll
  split
  · next state wait hactivity =>
    obtain ⟨hspeaks, hdone⟩ := speaks_pollResponse e (fun r => r.code.isProvisional) wait c
    split <;> rename_i hpoll <;> rw [hpoll] at hspeaks hdone
    · exact speaks_finishProvisional hspeaks state fun r hr => hdone r (by rw [hr])
    · exact hspeaks.become fun _ _ heq => by cases heq
  · next wait hactivity =>
    obtain ⟨hspeaks, hdone⟩ := speaks_pollResponse e (fun r => r.code.isFinal) wait c
    split <;> rename_i hpoll <;> rw [hpoll] at hspeaks hdone
    · exact speaks_finishFinal hspeaks fun r hr => hdone r (by rw [hr])
    · exact hspeaks.become fun _ _ heq => by cases heq
  · next timer ack hactivity => exact speaks_pollCompleted hc hactivity e
  · exact Speaks.refl e c
  · exact Speaks.refl e c

/-- **What a step of a client transaction says it has a reason for**, and what it hears came in
    with the step or before. -/
theorem speaks_step (hc : c.Honest) (e : ClientEvent) : Speaks e c (c.step e) := by
  have hrefl := Speaks.refl e c
  cases e with
  | poll => exact speaks_poll hc _
  | close => exact hrefl.of_same rfl rfl rfl rfl rfl
  | elapse ms => exact hrefl.of_same rfl rfl rfl rfl rfl
  | recvState i => exact hrefl.of_same rfl rfl rfl rfl rfl
  | deliver msg =>
    simp only [step]
    split
    · exact hrefl
    · refine ⟨rfl, rfl, hrefl.trace, hrefl.ack, fun m hm => ?_⟩
      rcases mem_heard_iff.mp hm with hreceived | hqueued
      · exact .inl (mem_heard_iff.mpr (.inl hreceived))
      · have hmem : m ∈ c.channel.messages ++ [msg] := by
          rw [← PeekableReceiver.messages_send]
          exact hqueued
        rcases List.mem_append.mp hmem with hold | hlast
        · exact .inl (mem_heard_iff.mpr (.inr hold))
        · exact .inr (by rw [List.mem_singleton.mp hlast])
  | drop =>
    simp only [step]
    split
    · exact hrefl.become fun _ _ heq => by cases heq
    · exact hrefl
  | subscribeState =>
    simp only [step]
    split
    · exact hrefl.of_same rfl rfl rfl rfl rfl
    · exact hrefl
  | cancel =>
    simp only [step, cancel]
    split
    · exact hrefl.become fun _ _ heq => by cases heq
    · exact hrefl.become fun _ _ heq => by cases heq
    all_goals exact hrefl
  | receiveProvisionalResponse =>
    simp only [step, receiveProvisionalResponse]
    split
    · split
      · split
        · exact hrefl.become fun _ _ heq => by cases heq
        · exact (hrefl.ret .panicked trivial).become fun _ _ heq => by cases heq
      · exact hrefl.ret (.provisional (.ok none)) trivial
    · exact hrefl
  | receiveFinalResponse =>
    simp only [step, receiveFinalResponse]
    split
    · split
      · exact hrefl.become fun _ _ heq => by cases heq
      · exact (hrefl.ret .panicked trivial).become fun _ _ heq => by cases heq
    · exact hrefl

/-- A client transaction stays honest with every step. -/
theorem Honest.step (hc : c.Honest) (e : ClientEvent) : (c.step e).Honest :=
  (speaks_step hc e).honest hc

/-- A client transaction that was just created has done one thing, to transmit its request. -/
theorem honest_send {generated : String} {outgoing : OutgoingRequest} {now : Nat}
    (h : send generated outgoing now = some c) : c.Honest := by
  obtain ⟨hmethod, -, -, -, -, hactivity, htrace⟩ := send_eq_some h
  refine ⟨hmethod, fun out hout => ?_, fun timer ack heq => ?_⟩
  · rw [htrace, List.mem_singleton] at hout
    rw [hout]
    exact .inl rfl
  · rw [hactivity] at heq
    cases heq

end ClientTransaction

/-! ### Server transactions -/

/-- The message, if one was taken out of the channel. -/
def ServerOutput.received? : ServerOutput → Option IncomingMessage
  | received msg => some msg
  | _ => none

namespace ServerTransaction

/-- The messages that have come in, in the channel or taken out of it. -/
def heard (s : ServerTransaction) : List IncomingMessage :=
  s.trace.filterMap ServerOutput.received? ++ s.channel.queue

/-- The response is the one that the step gives, the one of the call or of the task behind it, or
    that of the provisional task. -/
def Has (s : ServerTransaction) (e : ServerEvent) (o : OutgoingResponse) : Prop :=
  (s.activity = .idle ∧ (e = .sendProvisionalResponse o ∧ o.code.isProvisional = true ∨
      e = .sendFinalResponse o ∧ o.code.isFinal = true)) ∨
    (∃ r, s.activity.held = some r ∧ o.response = r.response) ∨
    ∃ task, s.provisionalRetransHandle = some task ∧ o.response = task.response.response

variable {s s' : ServerTransaction}

/-- The same on the server's side. -/
theorem mem_heard_iff {msg : IncomingMessage} :
    msg ∈ s.heard ↔ .received msg ∈ s.trace ∨ msg ∈ s.channel.queue := by
  have hreceived : ∀ out : ServerOutput, out.received? = some msg ↔ out = .received msg := by
    intro out
    cases out <;> simp [ServerOutput.received?]
  simp [heard, List.mem_filterMap, hreceived]

/-- What the step from `s` to `s'` adds: to the trace, and to the channel. -/
structure Speaks (e : ServerEvent) (s s' : ServerTransaction) : Prop where
  trace : ∃ new, s'.trace = s.trace ++ new ∧ ∀ o, .sent o ∈ new → s.Has e o
  heard : ∀ msg ∈ s'.heard, msg ∈ s.heard ∨ e = .deliver msg

/-- A step of a server transaction that changes nothing adds nothing. -/
theorem Speaks.refl (e : ServerEvent) (s : ServerTransaction) : Speaks e s s :=
  ⟨⟨[], by simp, by simp⟩, fun _ h => .inl h⟩

/-- More is done, and no message comes in. -/
theorem Speaks.extend {e : ServerEvent} {s₁ : ServerTransaction} {outs : List ServerOutput}
    (h : Speaks e s s') (htrace : s₁.trace = s'.trace ++ outs)
    (houts : ∀ out ∈ outs, (∀ o, out = .sent o → s.Has e o) ∧
      ∀ msg, out = .received msg → msg ∈ s'.heard)
    (hmsgs : s₁.channel.queue = s'.channel.queue) : Speaks e s s₁ := by
  obtain ⟨new, hnew, hhas⟩ := h.trace
  refine ⟨⟨new ++ outs, ?_, fun o ho => ?_⟩, fun msg hmsg => h.heard msg ?_⟩
  · rw [htrace, hnew, List.append_assoc]
  · rcases List.mem_append.mp ho with hold | hlast
    · exact hhas o hold
    · exact (houts _ hlast).1 o rfl
  · rcases mem_heard_iff.mp hmsg with hreceived | hqueued
    · rw [htrace] at hreceived
      rcases List.mem_append.mp hreceived with hold | hlast
      · exact mem_heard_iff.mpr (.inl hold)
      · exact (houts _ hlast).2 msg rfl
    · exact mem_heard_iff.mpr (.inr (hmsgs ▸ hqueued))

/-- A step that changes neither trace nor channel adds nothing to what was added before. -/
theorem Speaks.of_same {e : ServerEvent} {s₁ : ServerTransaction} (h : Speaks e s s')
    (htrace : s₁.trace = s'.trace) (hmsgs : s₁.channel.queue = s'.channel.queue) :
    Speaks e s s₁ :=
  h.extend (htrace.trans (List.append_nil _).symm) (by simp) hmsgs

/-- A call returns or panics. -/
theorem Speaks.ret {e : ServerEvent} (h : Speaks e s s') {out : ServerOutput}
    (hout : (∀ o, out ≠ .sent o) ∧ ∀ msg, out ≠ .received msg) : Speaks e s (s'.record out) :=
  h.extend rfl (by
    simp only [List.mem_singleton, forall_eq]
    exact ⟨fun o heq => absurd heq (hout.1 o), fun msg heq => absurd heq (hout.2 msg)⟩) rfl

/-- To transmit a response that the transaction has adds an output with a reason. -/
theorem Speaks.send {e : ServerEvent} (h : Speaks e s s') {o : OutgoingResponse} (ho : s.Has e o) :
    Speaks e s (s'.record (.sent o)) :=
  h.extend rfl (by
    simp only [List.mem_singleton, forall_eq]
    refine ⟨fun o' heq => ?_, fun msg heq => by cases heq⟩
    injection heq with heq
    exact heq ▸ ho) rfl

/-- A message is taken out of the channel. -/
theorem speaks_receive (e : ServerEvent) {msg : IncomingMessage} {rest : List IncomingMessage}
    {channel : Receiver IncomingMessage} (hmsgs : s.channel.queue = msg :: rest)
    (hrest : channel.queue = rest) :
    Speaks e s ({ s with channel := channel }.record (.received msg)) := by
  refine ⟨⟨[.received msg], rfl, by simp⟩, fun m hm => .inl ?_⟩
  rcases mem_heard_iff.mp hm with hreceived | hqueued
  · rcases List.mem_append.mp hreceived with hold | hlast
    · exact mem_heard_iff.mpr (.inl hold)
    · injection List.mem_singleton.mp hlast with heq
      exact mem_heard_iff.mpr (.inr (by rw [heq, hmsgs]; exact List.mem_cons_self))
  · have hmem : m ∈ rest := hrest ▸ hqueued
    exact mem_heard_iff.mpr (.inr (by rw [hmsgs]; exact List.mem_cons_of_mem _ hmem))

/-- To keep the transport of a transmission adds nothing. -/
theorem Speaks.keepTarget {e : ServerEvent} (h : Speaks e s s')
    (res : Except Error TargetTransportInfo) : Speaks e s (s'.keepTarget res) := by
  obtain ⟨targetInfo, hkeep⟩ := s'.keepTarget_eq res
  rw [hkeep]
  exact h.of_same rfl rfl

/-- To end a call for a provisional response adds no transmission. -/
theorem Speaks.finishProvisional {e : ServerEvent} (h : Speaks e s s')
    (response : OutgoingResponse) : Speaks e s (s'.finishProvisional response) := by
  unfold ServerTransaction.finishProvisional
  split
  · dsimp only
    split
    · exact (h.ret (by simp)).of_same rfl rfl
    · exact (h.ret (by simp)).of_same rfl rfl
  · split
    · exact (h.ret (by simp)).of_same rfl rfl
    · exact (h.ret (by simp)).of_same rfl rfl

/-- To leave a final response to a task adds no transmission. -/
theorem Speaks.spawnFinalTask {e : ServerEvent} (h : Speaks e s s') (response : OutgoingResponse)
    (deadline : Nat) : Speaks e s (s'.spawnFinalTask response deadline) := by
  unfold ServerTransaction.spawnFinalTask
  dsimp only
  split
  · exact (h.ret (by simp)).of_same rfl rfl
  · exact (h.ret (by simp)).of_same rfl rfl

/-- To end a call for a final response adds no transmission. -/
theorem Speaks.finishFinal {e : ServerEvent} (h : Speaks e s s') (response : OutgoingResponse) :
    Speaks e s (s'.finishFinal response) := by
  have hret : ∀ s₁ : ServerTransaction, Speaks e s s₁ →
      Speaks e s ((s₁.ret (.ok ())).become .dropped) := fun s₁ h₁ =>
    (h₁.ret (by simp)).of_same rfl rfl
  have hset : ∀ s₁ : ServerTransaction, Speaks e s s₁ → ∀ state, Speaks e s (s₁.setState state) :=
    fun s₁ h₁ state => h₁.of_same rfl rfl
  unfold ServerTransaction.finishFinal
  split
  · exact hret _ (hset _ h _)
  · dsimp only
    split
    · exact hret _ (hset _ (hset _ h _) _)
    · split
      · exact (hset _ h .completed).of_same rfl rfl
      · split
        · have hcancelled : Speaks e s { s'.setState .completed with hasReceiver := false } :=
            (hset _ h .completed).of_same rfl rfl
          exact hcancelled.spawnFinalTask _ _
        · exact ((hset _ h .completed).ret (by simp)).of_same rfl rfl

/-- The result of a transmission adds nothing but what the call goes on with. -/
theorem speaks_sent (res : Except Error TargetTransportInfo) (s : ServerTransaction) :
    Speaks (.sent res) s (s.sent res) := by
  have hrefl := Speaks.refl (.sent res) s
  unfold sent
  split
  · exact (hrefl.keepTarget _).finishProvisional _
  · exact (hrefl.ret (by simp)).of_same rfl rfl
  · exact (hrefl.keepTarget _).finishFinal _
  · exact (hrefl.ret (by simp)).of_same rfl rfl
  · exact (hrefl.keepTarget _).of_same rfl rfl
  · exact (hrefl.keepTarget _).of_same rfl rfl
  · exact hrefl

/-- A poll of the call adds the transmission of a response that it has. -/
theorem speaks_poll (s : ServerTransaction) : Speaks .poll s s.poll := by
  have hrefl := Speaks.refl .poll s
  unfold poll
  split
  · split
    · have hjoined : Speaks .poll s { s with provisionalRetransHandle := none } :=
        hrefl.of_same rfl rfl
      exact hjoined.spawnFinalTask _ _
    · exact hrefl
  · next response interval expires deadline hactivity =>
    -- whatever is sent is the response that is held
    have hhas : s.Has .poll response := .inr (.inl ⟨response, by rw [hactivity]; rfl, rfl⟩)
    unfold pollRetransmitting
    rcases s.channel.pollRecv_cases with ⟨msg, rest, hmsgs, hpoll⟩ | ⟨-, -, hpoll⟩ | ⟨-, -, hpoll⟩ <;>
      rw [hpoll] <;> dsimp only
    · have hreceive : Speaks .poll s ({ s with channel := { s.channel with queue := rest } }.record
          (.received msg)) := speaks_receive .poll hmsgs rfl
      split
      · exact hreceive.of_same rfl rfl
      · exact (hreceive.send hhas).of_same rfl rfl
    · exact hrefl.of_same rfl rfl
    · have hsame : Speaks .poll s { s with channel := s.channel } := hrefl
      split
      · exact (hsame.send hhas).of_same rfl rfl
      · split
        · exact hsame.of_same rfl rfl
        · exact hsame
  · split
    · exact hrefl.of_same rfl rfl
    · exact hrefl
  · next response deadline hactivity =>
    have hhas : s.Has .poll response := .inr (.inl ⟨response, by rw [hactivity]; rfl, rfl⟩)
    unfold pollAbsorbing
    rcases s.channel.pollRecv_cases with ⟨msg, rest, hmsgs, hpoll⟩ | ⟨-, -, hpoll⟩ | ⟨-, -, hpoll⟩ <;>
      rw [hpoll] <;> dsimp only
    · have hreceive : Speaks .poll s ({ s with channel := { s.channel with queue := rest } }.record
          (.received msg)) := speaks_receive .poll hmsgs rfl
      exact (hreceive.send hhas).of_same rfl rfl
    · exact hrefl.of_same rfl rfl
    · have hsame : Speaks .poll s { s with channel := s.channel } := hrefl
      split
      · exact hsame.of_same rfl rfl
      · exact hsame
  all_goals exact hrefl

/-- A poll of the task adds the transmission of a response that it has. -/
theorem speaks_pollTask (s : ServerTransaction) : Speaks .pollTask s s.pollTask := by
  have hrefl := Speaks.refl .pollTask s
  unfold pollTask
  split
  · exact hrefl
  · next task htask =>
    dsimp only
    split
    · exact hrefl
    · split
      · exact hrefl.of_same rfl rfl
      · split
        · exact hrefl.of_same rfl rfl
        · rcases s.channel.pollRecv_cases with ⟨msg, rest, hmsgs, hpoll⟩ | ⟨-, -, hpoll⟩ |
            ⟨-, -, hpoll⟩ <;> rw [hpoll] <;> dsimp only
          · have hreceive : Speaks .pollTask s
                ({ s with channel := { s.channel with queue := rest } }.record (.received msg)) :=
              speaks_receive .pollTask hmsgs rfl
            exact (hreceive.send (.inr (.inr ⟨task, htask, rfl⟩))).of_same rfl rfl
          · exact hrefl.of_same rfl rfl
          · exact hrefl.of_same rfl rfl

/-- **What a step of a server transaction sends it has**, and what it hears came in with the step
    or before. -/
theorem speaks_step (s : ServerTransaction) (e : ServerEvent) : Speaks e s (s.step e) := by
  have hrefl := Speaks.refl e s
  cases e with
  | sent res => exact speaks_sent res s
  | poll => exact speaks_poll s
  | pollTask => exact speaks_pollTask s
  | close => exact hrefl.of_same rfl rfl
  | elapse ms => exact hrefl.of_same rfl rfl
  | deliver msg =>
    simp only [step]
    split
    · exact hrefl
    · refine ⟨hrefl.trace, fun m hm => ?_⟩
      rcases mem_heard_iff.mp hm with hreceived | hqueued
      · exact .inl (mem_heard_iff.mpr (.inl hreceived))
      · rcases List.mem_append.mp hqueued with hold | hlast
        · exact .inl (mem_heard_iff.mpr (.inr hold))
        · exact .inr (by rw [List.mem_singleton.mp hlast])
  | sendProvisionalResponse response =>
    simp only [step, sendProvisionalResponse]
    split
    · next hidle =>
      split
      · next hcode => exact (hrefl.send (.inl ⟨hidle, .inl ⟨rfl, hcode⟩⟩)).of_same rfl rfl
      · exact hrefl.ret (by simp)
    · exact hrefl
  | sendFinalResponse response =>
    simp only [step, sendFinalResponse]
    split
    · next hidle =>
      split
      · next hcode => exact (hrefl.send (.inl ⟨hidle, .inr ⟨rfl, hcode⟩⟩)).of_same rfl rfl
      · exact (hrefl.ret (by simp)).of_same rfl rfl
    · exact hrefl
  | retransmitted res =>
    simp only [step, retransmitted]
    split
    · exact hrefl
    · split
      · exact hrefl.of_same rfl rfl
      · exact hrefl
  | cancel =>
    simp only [step, cancel]
    split
    all_goals first
      | exact hrefl
      | exact hrefl.of_same rfl rfl
  | drop =>
    simp only [step]
    split
    · exact hrefl.of_same rfl rfl
    · exact hrefl
  | subscribeState =>
    simp only [step]
    split
    · exact hrefl.of_same rfl rfl
    · exact hrefl
  | recvState i =>
    simp only [step]
    split
    · exact hrefl
    · exact hrefl.of_same rfl rfl

/-! ### One final response -/

/-- A status code is final exactly if it is not provisional. -/
theorem isFinal_eq_not (code : StatusCode) : code.isFinal = !code.isProvisional := rfl

/-- The responses of the provisional task. -/
def taskResponses (s : ServerTransaction) : List OutgoingResponse :=
  match s.provisionalRetransHandle with
  | none => []
  | some task => task.response :: task.provisionals

/-- The final response of a transaction is `r`, or there is none yet: no other one was sent or is
    held, and there is none as long as the user can give another. -/
structure Settled (r : Option Response) (s : ServerTransaction) : Prop where
  sent : ∀ o, .sent o ∈ s.trace → o.code.isFinal = true → r = some o.response
  held : ∀ o, s.activity.held = some o → o.code.isFinal = true → r = some o.response
  undecided : s.activity.IsOpen → r = none
  task : ∀ o ∈ s.taskResponses, o.code.isFinal = false

/-- The code is one of the response, not of where the response goes. -/
theorem code_eq {o o' : OutgoingResponse} (h : o.response = o'.response) : o.code = o'.code := by
  unfold OutgoingResponse.code
  rw [h]

/-- When the call for the final response has ended, the user can give no other response. -/
theorem not_isOpen_finishFinal (response : OutgoingResponse) (s : ServerTransaction) :
    ¬ (s.finishFinal response).activity.IsOpen := by
  unfold finishFinal
  split
  · exact id
  · dsimp only
    split
    · exact id
    · split
      · exact id
      · split
        · unfold spawnFinalTask
          dsimp only
          split
          · exact id
          · exact id
        · exact id

/-- If the user can give a response after a transmission, then they could before it. -/
theorem isOpen_of_sent {res : Except Error TargetTransportInfo}
    (h : (s.sent res).activity.IsOpen) : s.activity.IsOpen := by
  unfold sent at h
  split at h
  · next hactivity => exact hactivity ▸ trivial
  · next hactivity => exact hactivity ▸ trivial
  · exact absurd h (not_isOpen_finishFinal _ _)
  · exact h.elim
  · exact h.elim
  · exact h.elim
  · exact h

/-- If the user can give a response after a poll, then they could before it. -/
theorem isOpen_of_poll (h : s.poll.activity.IsOpen) : s.activity.IsOpen := by
  unfold poll at h
  split at h
  · split at h
    · unfold spawnFinalTask at h
      dsimp only at h
      split at h
      · exact h.elim
      · exact h.elim
    · exact h
  · unfold pollRetransmitting at h
    split at h
    · dsimp only at h
      split at h
      · exact h.elim
      · exact h.elim
    · exact h.elim
    · dsimp only at h
      split at h
      · exact h.elim
      · split at h
        · exact h.elim
        · exact h
  · split at h
    · exact h.elim
    · exact h
  · unfold pollAbsorbing at h
    split at h
    · exact h.elim
    · exact h.elim
    · dsimp only at h
      split at h
      · exact h.elim
      · exact h
  all_goals exact h

/-- A transaction that has got its final response takes no other. -/
theorem isOpen_of_step {e : ServerEvent} (h : (s.step e).activity.IsOpen) :
    s.activity.IsOpen := by
  by_cases hcall : IsCall e
  · by_cases hidle : s.activity = .idle
    · rw [hidle]
      trivial
    · rw [step_of_busy hidle hcall] at h
      exact h
  · cases e with
    | sent res => exact isOpen_of_sent h
    | poll => exact isOpen_of_poll h
    | pollTask => exact (pollTask_frame s).2.2.1 ▸ h
    | retransmitted res => exact (retransmitted_frame res s).2.2.1 ▸ h
    | close => exact h
    | elapse ms => exact h
    | deliver msg =>
      simp only [step] at h
      split at h
      · exact h
      · exact h
    | recvState i =>
      simp only [step] at h
      split at h
      · exact h
      · exact h
    | cancel =>
      simp only [step, cancel] at h
      split at h
      · next hactivity => exact hactivity ▸ trivial
      all_goals first
        | exact h
        | exact h.elim
    | _ => exact absurd trivial hcall

/-- The responses of the provisional task are the one that it repeats and those waiting in its
    channel. -/
theorem mem_taskResponses {o : OutgoingResponse} : o ∈ s.taskResponses ↔
    ∃ task, s.provisionalRetransHandle = some task ∧ o ∈ task.response :: task.provisionals := by
  unfold taskResponses
  cases s.provisionalRetransHandle with
  | none => simp
  | some task => simp

/-- The response is one of the provisional task, or one that a call is sending for it. -/
def Provides (s : ServerTransaction) (o : OutgoingResponse) : Prop :=
  (∃ o' ∈ s.taskResponses, o.response = o'.response) ∨
    ∃ r, s.activity = .sendingProvisional r ∧ o.response = r.response

/-- What a task provides it provides still when it holds the same responses. -/
theorem provides_of_task {task task' : ProvisionalTask}
    (htask : s.provisionalRetransHandle = some task)
    (hresponse : task'.response.response = task.response.response)
    (hprovisionals : task'.provisionals = task.provisionals) {o : OutgoingResponse}
    (ho : o ∈ task'.response :: task'.provisionals) : s.Provides o := by
  rcases List.mem_cons.mp ho with rfl | hrest
  · exact .inl ⟨_, mem_taskResponses.mpr ⟨task, htask, List.mem_cons_self⟩, hresponse⟩
  · have hmem : o ∈ task.provisionals := hprovisionals ▸ hrest
    exact .inl ⟨o, mem_taskResponses.mpr ⟨task, htask, List.mem_cons_of_mem _ hmem⟩, rfl⟩

/-- What the task provides after the call was provided by the call or by the task before it. -/
theorem provides_finishProvisional {response r : OutgoingResponse}
    (hactivity : s.activity = .sendingProvisional r) (hresponse : response.response = r.response)
    (hhandle : s'.provisionalRetransHandle = s.provisionalRetransHandle) {o : OutgoingResponse}
    (ho : o ∈ (s'.finishProvisional response).taskResponses) : s.Provides o := by
  have hnew : o = response → s.Provides o := fun heq => .inr ⟨r, hactivity, heq ▸ hresponse⟩
  obtain ⟨task', htask', hmem⟩ := mem_taskResponses.mp ho
  unfold finishProvisional at htask'
  split at htask'
  · next task htask =>
    have hold : s.provisionalRetransHandle = some task := hhandle ▸ htask
    dsimp only at htask'
    split at htask'
    · obtain rfl := Option.some.inj (htask.symm.trans htask')
      exact provides_of_task hold rfl rfl hmem
    · obtain rfl := Option.some.inj htask'
      -- the queue of the task with the new response at its end
      have hcases : o ∈ task.response :: task.provisionals ∨ o = response := by
        simpa [or_assoc] using hmem
      rcases hcases with hmem | heq
      · exact provides_of_task hold rfl rfl hmem
      · exact hnew heq
  · next hnone =>
    split at htask'
    · obtain rfl := Option.some.inj htask'
      exact hnew (List.mem_singleton.mp hmem)
    · have hcontra : s'.provisionalRetransHandle = some task' := htask'
      rw [hnone] at hcontra
      cases hcontra

/-- **The provisional task gets its responses from calls that send provisional ones.** -/
theorem provides_step {e : ServerEvent} {o : OutgoingResponse}
    (ho : o ∈ (s.step e).taskResponses) : s.Provides o := by
  obtain ⟨task', htask', hmem⟩ := mem_taskResponses.mp ho
  by_cases hmoves : MovesTask e
  · cases e with
    | sent res =>
      by_cases hactivity : ∃ r, s.activity = .sendingProvisional r
      · obtain ⟨r, hactivity⟩ := hactivity
        cases res with
        | error err => exact hmoves.elim
        | ok target =>
          obtain ⟨targetInfo, hkeep⟩ := s.keepTarget_eq (.ok target)
          simp only [step, sent, hactivity] at ho
          rw [hkeep] at ho
          have hhandle : ({ s with targetInfo := targetInfo } : ServerTransaction).provisionalRetransHandle =
              s.provisionalRetransHandle := rfl
          exact provides_finishProvisional hactivity (response_after _ _) hhandle ho
      · have hsame := handle_sent res fun response heq => hactivity ⟨response, heq⟩
        exact provides_of_task (hsame.symm.trans htask') rfl rfl hmem
    | retransmitted res =>
      obtain ⟨task, htask, hresponse, hprovisionals, -⟩ := handle_retransmitted htask'
      exact provides_of_task htask hresponse hprovisionals hmem
    | pollTask =>
      rcases s.pollTask_cases with ⟨-, hsame⟩ | ⟨task, response, provisionals, -, htask,
        hprovisionals, -, hpoll⟩ | ⟨task, -, htask, hprovisionals, hpoll⟩
      · obtain ⟨task, htask, hresponse, hprovisionals, -⟩ := hsame task' htask'
        exact provides_of_task htask (congrArg _ hresponse) hprovisionals hmem
      · obtain rfl := Option.some.inj (hpoll.symm.trans htask')
        have hqueued : o ∈ task.provisionals := hprovisionals ▸ hmem
        exact .inl ⟨o, mem_taskResponses.mpr ⟨task, htask, List.mem_cons_of_mem _ hqueued⟩, rfl⟩
      · obtain rfl := Option.some.inj (hpoll.symm.trans htask')
        refine provides_of_task htask ?_ ?_ hmem
        · rfl
        · exact hprovisionals.symm
    | _ => exact hmoves.elim
  · exact provides_of_task (handle_step hmoves htask') rfl rfl hmem

variable {r : Option Response}

/-- What is sent and is final is the response that the call has just been given, or the one that
    is held. -/
theorem Settled.has (h : Settled r s) {e : ServerEvent} {o : OutgoingResponse} (ho : s.Has e o)
    (hfinal : o.code.isFinal = true) :
    (s.activity = .idle ∧ e = .sendFinalResponse o) ∨ r = some o.response := by
  rcases ho with ⟨hidle, ⟨-, hcode⟩ | ⟨he, -⟩⟩ | ⟨r', hheld, heq⟩ | ⟨task, htask, heq⟩
  · rw [isFinal_eq_not, hcode] at hfinal
    cases hfinal
  · exact .inl ⟨hidle, he⟩
  · refine .inr ?_
    rw [heq]
    exact h.held r' hheld (code_eq heq ▸ hfinal)
  · have hcode := h.task _ (mem_taskResponses.mpr ⟨task, htask, List.mem_cons_self⟩)
    rw [← code_eq heq, hfinal] at hcode
    cases hcode

/-- While the final response is not given yet, nothing that the task provides is final. -/
theorem Settled.provides (h : Settled r s) {o : OutgoingResponse} (ho : s.Provides o) :
    o.code.isFinal = false := by
  rcases ho with ⟨o', hmem, heq⟩ | ⟨r', hactivity, heq⟩
  · exact code_eq heq ▸ h.task o' hmem
  · -- had it been final, there would be a final response while the user can give another
    have hnone : r = none := h.undecided (hactivity ▸ trivial)
    rw [code_eq heq, ← Bool.not_eq_true]
    intro hfinal
    have hsome := h.held r' (by rw [hactivity]; rfl) hfinal
    rw [hnone] at hsome
    cases hsome

/-- **The final response is settled once.**  Whatever a transaction does, a final response that
    there is stays the only one. -/
theorem Settled.step (h : Settled r s) (e : ServerEvent) :
    ∃ r', Settled r' (s.step e) ∧ (r = none ∨ r' = r) := by
  obtain ⟨new, htrace, hnew⟩ := (speaks_step s e).trace
  have htask : ∀ o ∈ (s.step e).taskResponses, o.code.isFinal = false := fun o ho =>
    h.provides (provides_step ho)
  by_cases hgiven : ∃ o, e = .sendFinalResponse o ∧ s.activity = .idle ∧ o.code.isFinal = true
  · obtain ⟨o, rfl, hidle, hfinal⟩ := hgiven
    have hnone : r = none := h.undecided (hidle ▸ trivial)
    have hstep : s.step (.sendFinalResponse o) = (s.record (.sent o)).become (.sendingFinal o) := by
      simp only [ServerTransaction.step, sendFinalResponse, if_pos hidle, if_pos hfinal]
    refine ⟨some o.response, ⟨fun o' ho' hfinal' => ?_, fun o' ho' _ => ?_, fun hopen => ?_, htask⟩,
      .inl hnone⟩
    · rw [hstep] at ho'
      rcases List.mem_append.mp ho' with hold | hlast
      · have hsome := h.sent o' hold hfinal'
        rw [hnone] at hsome
        cases hsome
      · injection List.mem_singleton.mp hlast with heq
        rw [heq]
    · rw [hstep] at ho'
      rw [Option.some.inj ho']
    · rw [hstep] at hopen
      exact hopen.elim
  · refine ⟨r, ⟨fun o ho hfinal => ?_, fun o ho hfinal => ?_, fun hopen => ?_, htask⟩, .inr rfl⟩
    · rw [htrace] at ho
      rcases List.mem_append.mp ho with hold | hlast
      · exact h.sent o hold hfinal
      · rcases h.has (hnew o hlast) hfinal with ⟨hidle, he⟩ | hsome
        · exact absurd ⟨o, he, hidle, hfinal⟩ hgiven
        · exact hsome
    · by_cases hgives : Gives e
      · by_cases hidle : s.activity = .idle
        · -- a call holds the response that it is given, which is provisional
          cases e with
          | sendProvisionalResponse o' =>
            simp only [ServerTransaction.step, sendProvisionalResponse, if_pos hidle] at ho
            split at ho
            · next hcode =>
              obtain rfl := Option.some.inj ho
              rw [isFinal_eq_not, hcode] at hfinal
              cases hfinal
            · exact h.held o ho hfinal
          | sendFinalResponse o' =>
            simp only [ServerTransaction.step, sendFinalResponse, if_pos hidle] at ho
            split at ho
            · next hcode => exact absurd ⟨o', rfl, hidle, hcode⟩ hgiven
            · cases ho
          | _ => exact hgives.elim
        · have hcall : IsCall e := by
            cases e with
            | sendProvisionalResponse _ | sendFinalResponse _ => trivial
            | _ => exact hgives.elim
          rw [step_of_busy hidle hcall] at ho
          exact h.held o ho hfinal
      · obtain ⟨o', ho', heq⟩ := heldFrom_step s hgives o ho
        rw [heq]
        exact h.held o' ho' (code_eq heq ▸ hfinal)
    · exact h.undecided (isOpen_of_step hopen)

/-- A confirmed transaction has taken an `ACK` out of its channel. -/
def Acknowledged (s : ServerTransaction) : Prop :=
  .confirmed ∈ s.stateMachine.history →
    ∃ r, .received (.request r) ∈ s.trace ∧ r.method = .ack

/-- A confirmed server transaction has taken its `ACK` out of the channel, and no step makes one
    without. -/
theorem Acknowledged.step (h : s.Acknowledged) (hs : s.StatesOk) (e : ServerEvent) :
    (s.step e).Acknowledged := by
  intro hconfirmed
  obtain ⟨new, htrace, -⟩ := (speaks_step s e).trace
  obtain ⟨added, hhistory, hcause⟩ := (hs.step e).advances
  rw [hhistory] at hconfirmed
  rcases List.mem_append.mp hconfirmed with hold | hadded
  · obtain ⟨r, hr, hmethod⟩ := h hold
    exact ⟨r, htrace ▸ List.mem_append_left _ hr, hmethod⟩
  · cases hcause with
    | ack hactivity hpoll hmsgs hack =>
      -- it is the message that this pass has taken
      rename_i response interval expires deadline msg rest
      have hrecv : s.channel.pollRecv = (.ready (some msg), { s.channel with queue := rest }) := by
        simp only [Receiver.pollRecv, hmsgs]
      have hreceived : .received msg ∈ (s.step e).trace := by
        rw [hpoll]
        simp only [ServerTransaction.step, poll, hactivity, pollRetransmitting, hrecv, if_pos hack]
        exact List.mem_append_right _ (List.mem_singleton_self _)
      cases msg with
      | request r => exact ⟨r, hreceived, by simpa [IncomingMessage.isAck] using hack⟩
      | response r => cases hack
    | _ => simp at hadded

/-- What a server transaction says it stands by, and it does not confirm itself. -/
structure Honest (s : ServerTransaction) : Prop where
  states : s.StatesOk
  settled : ∃ r, Settled r s
  acknowledged : s.Acknowledged

/-- A server transaction stays honest with every step. -/
theorem Honest.step (h : s.Honest) (e : ServerEvent) : (s.step e).Honest := by
  obtain ⟨r, hr⟩ := h.settled
  obtain ⟨r', hr', -⟩ := hr.step e
  exact ⟨(h.states.step e).states, ⟨r', hr'⟩, h.acknowledged.step h.states e⟩

/-- A server transaction that was just created has done nothing. -/
theorem honest_fromRequest {request : IncomingRequest} {now : Nat}
    (h : fromRequest request now = some s) : s.Honest := by
  have hstates := statesOk_fromRequest h
  unfold fromRequest at h
  split at h
  · cases h
  · obtain ⟨key, -, rfl⟩ := Option.map_eq_some_iff.mp h
    refine ⟨hstates, ⟨none, ?_⟩, fun hconfirmed => ?_⟩
    · exact ⟨by simp [new], fun _ ho => absurd ho (by simp [new, ServerActivity.held]), fun _ => rfl,
        by simp [new, taskResponses]⟩
    · simp only [new, StateMachine.new] at hconfirmed
      split at hconfirmed
      · simp at hconfirmed
      · simp at hconfirmed

/-- The final responses that were sent are one. -/
theorem Honest.response_eq (h : s.Honest) {o o' : OutgoingResponse} (ho : .sent o ∈ s.trace)
    (ho' : .sent o' ∈ s.trace) (hfinal : o.code.isFinal = true)
    (hfinal' : o'.code.isFinal = true) : o.response = o'.response := by
  obtain ⟨r, hr⟩ := h.settled
  exact Option.some.inj ((hr.sent o ho hfinal).symm.trans (hr.sent o' ho' hfinal'))

end ServerTransaction

end Rssip
