import Rssip.Transaction.ServerWire

namespace Rssip

open Lib

/-!
# How many responses are sent

Outside of `INVITE` transactions every message that is taken out of the channel is answered with
a transmission.  Nobody takes messages before the first response; those that came in by then are
taken, and answered, later on.

* `ServerTransaction.Counted` — the messages taken and the transmissions of a step;
* `counted_step` — a transmission for every message and every response of the user;
* `ServerCounts` — a server transaction with the messages that came before its first response;
* `run_absorbed_iff` — when these are never answered.
-/

/-- A transmission. -/
def ServerOutput.isSent : ServerOutput → Bool
  | .sent _ => true
  | .received _ | .returned _ | .panicked => false

/-- A message that was read. -/
def ServerOutput.isReceived : ServerOutput → Bool
  | .received _ => true
  | .sent _ | .returned _ | .panicked => false

namespace ServerTransaction

/-- The responses on the wire. -/
def wire (s : ServerTransaction) : Nat := s.trace.countP ServerOutput.isSent

/-- The messages that were taken out of the channel. -/
def taken (s : ServerTransaction) : Nat := s.trace.countP ServerOutput.isReceived

/-- The responses that the user hands over with the step. -/
def gives (s : ServerTransaction) : ServerEvent → Nat
  | .sendProvisionalResponse response =>
    if s.activity = .idle ∧ response.code.isProvisional then 1 else 0
  | .sendFinalResponse response => if s.activity = .idle ∧ response.code.isFinal then 1 else 0
  | _ => 0

/-- The messages that are taken in the step, outside of `INVITE` transactions. -/
def takes (s : ServerTransaction) : ServerEvent → Nat
  | .pollTask => if s.taskPass = .reads then 1 else 0
  | .poll =>
    match s.activity with
    | .absorbing _ _ false => if s.channel.queue = [] then 0 else 1
    | _ => 0
  | _ => 0

/-- The messages that come in with the step. -/
def arrives (s : ServerTransaction) : ServerEvent → Nat
  | .deliver _ => if s.channel.closed then 0 else 1
  | _ => 0

/-- From `s` to `s'` as many responses are sent as the user hands over and messages are taken. -/
structure Counted (arrives gives takes : Nat) (s s' : ServerTransaction) : Prop where
  wire : s'.wire = s.wire + gives + takes
  taken : s'.taken = s.taken + takes
  queue : s'.channel.queue.length + takes = s.channel.queue.length + arrives

variable {s s' : ServerTransaction}

/-- A step that changes nothing counts nothing. -/
theorem Counted.refl (s : ServerTransaction) : Counted 0 0 0 s s := ⟨rfl, rfl, rfl⟩

/-- A step that sends nothing and takes nothing. -/
theorem counted_of_plain (hchannel : s'.channel.queue = s.channel.queue)
    (htrace : s'.trace = s.trace ∨ ∃ out, s'.trace = s.trace ++ [out] ∧
      out.isSent = false ∧ out.isReceived = false) : Counted 0 0 0 s s' := by
  rcases htrace with hsame | ⟨out, happend, hsent, hreceived⟩
  · exact ⟨congrArg (List.countP _) hsame, congrArg (List.countP _) hsame, congrArg _ hchannel⟩
  · refine ⟨?_, ?_, congrArg _ hchannel⟩
    · unfold ServerTransaction.wire
      rw [happend, List.countP_append, List.countP_singleton, hsent]
      rfl
    · unfold ServerTransaction.taken
      rw [happend, List.countP_append, List.countP_singleton, hreceived]
      rfl

/-- A message is taken, and a response sent for it. -/
theorem counted_of_read {msg : IncomingMessage} {rest : List IncomingMessage}
    {response : OutgoingResponse} (hqueue : s.channel.queue = msg :: rest)
    (hrest : s'.channel.queue = rest)
    (htrace : s'.trace = s.trace ++ [.received msg] ++ [.sent response]) :
    Counted 0 0 1 s s' := by
  refine ⟨?_, ?_, ?_⟩
  · unfold ServerTransaction.wire
    rw [htrace, List.countP_append, List.countP_append]
    rfl
  · unfold ServerTransaction.taken
    rw [htrace, List.countP_append, List.countP_append]
    rfl
  · rw [hqueue, hrest]
    rfl

/-- A response of the user is sent. -/
theorem counted_of_given {response : OutgoingResponse} (hchannel : s'.channel = s.channel)
    (htrace : s'.trace = s.trace ++ [.sent response]) : Counted 0 1 0 s s' := by
  refine ⟨?_, ?_, ?_⟩
  · unfold ServerTransaction.wire
    rw [htrace, List.countP_append]
    rfl
  · unfold ServerTransaction.taken
    rw [htrace, List.countP_append]
    rfl
  · rw [hchannel]

/-- The end of a call for a provisional response sends nothing. -/
theorem counted_finishProvisional (response : OutgoingResponse) (s : ServerTransaction) :
    Counted 0 0 0 s (s.finishProvisional response) := by
  unfold finishProvisional
  split
  · simp only []
    split
    · exact counted_of_plain rfl (.inr ⟨_, rfl, rfl, rfl⟩)
    · exact counted_of_plain rfl (.inr ⟨_, rfl, rfl, rfl⟩)
  · split
    · exact counted_of_plain rfl (.inr ⟨_, rfl, rfl, rfl⟩)
    · exact counted_of_plain rfl (.inr ⟨_, rfl, rfl, rfl⟩)

/-- To leave the final response to its task sends nothing. -/
theorem counted_spawnFinalTask (response : OutgoingResponse) (deadline : Nat)
    (s : ServerTransaction) : Counted 0 0 0 s (s.spawnFinalTask response deadline) := by
  unfold spawnFinalTask
  simp only []
  split
  · exact counted_of_plain rfl (.inr ⟨_, rfl, rfl, rfl⟩)
  · exact counted_of_plain rfl (.inr ⟨_, rfl, rfl, rfl⟩)

/-- The end of a call for the final response sends nothing. -/
theorem counted_finishFinal (response : OutgoingResponse) (s : ServerTransaction) :
    Counted 0 0 0 s (s.finishFinal response) := by
  unfold finishFinal
  split
  · exact counted_of_plain rfl (.inr ⟨_, rfl, rfl, rfl⟩)
  · simp only []
    split
    · exact counted_of_plain rfl (.inr ⟨_, rfl, rfl, rfl⟩)
    · split
      · exact counted_of_plain rfl (.inl rfl)
      · split
        · obtain ⟨hwire, htaken, hqueue⟩ := counted_spawnFinalTask response
            (s.now + if s.isInviteTsx then T4 else T1 * 64)
            { s.setState .completed with hasReceiver := false }
          exact ⟨hwire, htaken, hqueue⟩
        · exact counted_of_plain rfl (.inr ⟨_, rfl, rfl, rfl⟩)

/-- The end of a transmission sends nothing. -/
theorem counted_sent (res : Except Error TargetTransportInfo) (s : ServerTransaction) :
    Counted 0 0 0 s (s.sent res) := by
  obtain ⟨targetInfo, hkeep⟩ := s.keepTarget_eq res
  unfold sent
  split
  · rw [hkeep]
    obtain ⟨hwire, htaken, hqueue⟩ := counted_finishProvisional _ _
    exact ⟨hwire, htaken, hqueue⟩
  · exact counted_of_plain rfl (.inr ⟨_, rfl, rfl, rfl⟩)
  · rw [hkeep]
    obtain ⟨hwire, htaken, hqueue⟩ := counted_finishFinal _ _
    exact ⟨hwire, htaken, hqueue⟩
  · exact counted_of_plain rfl (.inr ⟨_, rfl, rfl, rfl⟩)
  · rw [hkeep]
    exact counted_of_plain rfl (.inl rfl)
  · rw [hkeep]
    exact counted_of_plain rfl (.inl rfl)
  · exact Counted.refl s

/-- The task takes a message in a pass of the kind that reads, and repeats its response. -/
theorem counted_pollTask (s : ServerTransaction) :
    Counted 0 0 (s.takes .pollTask) s s.pollTask := by
  unfold takes taskPass pollTask
  cases s.provisionalRetransHandle with
  | none => exact Counted.refl s
  | some task =>
    simp only []
    split
    · exact Counted.refl s
    · split
      · exact counted_of_plain rfl (.inl rfl)
      · cases task.provisionals with
        | cons response provisionals => exact counted_of_plain rfl (.inl rfl)
        | nil =>
          rcases s.channel.pollRecv_cases with
            ⟨msg, rest, hqueue, hpoll⟩ | ⟨hqueue, -, hpoll⟩ | ⟨hqueue, -, hpoll⟩
          · simp only [hpoll]
            exact counted_of_read hqueue rfl rfl
          · simp only [hpoll]
            exact counted_of_plain rfl (.inl rfl)
          · simp only [hpoll]
            exact counted_of_plain rfl (.inl rfl)

/-- The task that absorbs copies sends a response for each message that it takes. -/
theorem counted_pollAbsorbing {response : OutgoingResponse} {deadline : Nat}
    (hactivity : s.activity = .absorbing response deadline false) :
    Counted 0 0 (s.takes .poll) s (s.pollAbsorbing response deadline) := by
  have htakes : s.takes .poll = if s.channel.queue = [] then 0 else 1 := by
    simp only [takes, hactivity]
  rw [htakes]
  rcases s.channel.pollRecv_cases with
    ⟨msg, rest, hqueue, hpoll⟩ | ⟨hqueue, -, hpoll⟩ | ⟨hqueue, -, hpoll⟩
  · simp only [pollAbsorbing, hpoll]
    rw [if_neg (by rw [hqueue]; exact List.cons_ne_nil _ _)]
    exact counted_of_read hqueue rfl rfl
  · simp only [pollAbsorbing, hpoll, if_pos hqueue]
    exact counted_of_plain rfl (.inl rfl)
  · simp only [pollAbsorbing, hpoll, if_pos hqueue]
    split
    · exact counted_of_plain rfl (.inl rfl)
    · exact counted_of_plain rfl (.inl rfl)

/-- Outside of `INVITE` transactions nothing waits for an `ACK`. -/
theorem StatesOk.not_retransmitting (h : s.StatesOk) (hinvite : s.isInviteTsx = false)
    {response : OutgoingResponse} {interval expires deadline : Nat} {sending : Bool} :
    s.activity ≠ .retransmitting response interval expires deadline sending := by
  intro hactivity
  obtain ⟨provisional, after, -, hafter, -⟩ := h
  rw [hactivity, hinvite] at hafter
  exact absurd hafter.1 Bool.false_ne_true

/-- A poll sends a response for each message that it takes, outside of `INVITE` transactions. -/
theorem counted_poll (h : s.StatesOk) (hinvite : s.isInviteTsx = false) :
    Counted 0 0 (s.takes .poll) s s.poll := by
  unfold poll
  -- a transaction that is not for an INVITE has nothing to repeat on its own
  cases hactivity : s.activity with
  | retransmitting response interval expires deadline sending =>
    exact absurd hactivity (h.not_retransmitting hinvite)
  | absorbing response deadline sending =>
    cases sending with
    | false => exact counted_pollAbsorbing hactivity
    | true =>
      simp only [takes, hactivity]
      exact Counted.refl s
  | joining response deadline =>
    simp only [takes, hactivity]
    split
    · obtain ⟨hwire, htaken, hqueue⟩ := counted_spawnFinalTask response deadline
        { s with provisionalRetransHandle := none }
      exact ⟨hwire, htaken, hqueue⟩
    · exact Counted.refl s
  | confirmed wakeup =>
    simp only [takes, hactivity]
    split
    · exact counted_of_plain rfl (.inl rfl)
    · exact Counted.refl s
  | idle | sendingProvisional _ | sendingFinal _ | dropped =>
    simp only [takes, hactivity]
    exact Counted.refl s

/-- **A transmission for every message taken and every response of the user.** -/
theorem counted_step (h : s.StatesOk) (hinvite : s.isInviteTsx = false) (e : ServerEvent) :
    Counted (s.arrives e) (s.gives e) (s.takes e) s (s.step e) := by
  cases e with
  | sent res => exact counted_sent res s
  | pollTask => exact counted_pollTask s
  | poll => exact counted_poll h hinvite
  | close => exact counted_of_plain rfl (.inl rfl)
  | elapse ms => exact counted_of_plain rfl (.inl rfl)
  | deliver msg =>
    simp only [step, arrives, gives, takes]
    split
    · exact Counted.refl s
    · exact ⟨rfl, rfl, List.length_append⟩
  -- a response of the wrong kind is refused, and does not count as given
  | sendProvisionalResponse response =>
    simp only [step, sendProvisionalResponse, arrives, gives, takes]
    by_cases hidle : s.activity = .idle
    · by_cases hcode : response.code.isProvisional = true
      · rw [if_pos hidle, if_pos hcode, if_pos ⟨hidle, hcode⟩]
        exact counted_of_given rfl rfl
      · rw [if_pos hidle, if_neg hcode, if_neg fun h => hcode h.2]
        exact counted_of_plain rfl (.inr ⟨_, rfl, rfl, rfl⟩)
    · rw [if_neg hidle, if_neg fun h => hidle h.1]
      exact Counted.refl s
  | sendFinalResponse response =>
    simp only [step, sendFinalResponse, arrives, gives, takes]
    by_cases hidle : s.activity = .idle
    · by_cases hcode : response.code.isFinal = true
      · rw [if_pos hidle, if_pos hcode, if_pos ⟨hidle, hcode⟩]
        exact counted_of_given rfl rfl
      · rw [if_pos hidle, if_neg hcode, if_neg fun h => hcode h.2]
        exact counted_of_plain rfl (.inr ⟨_, rfl, rfl, rfl⟩)
    · rw [if_neg hidle, if_neg fun h => hidle h.1]
      exact Counted.refl s
  | retransmitted res =>
    simp only [step, retransmitted]
    split
    · exact Counted.refl s
    · split
      · exact counted_of_plain rfl (.inl rfl)
      · exact Counted.refl s
  | cancel =>
    simp only [step, cancel]
    split
    all_goals exact counted_of_plain rfl (.inl rfl)
  | drop =>
    simp only [step]
    split
    all_goals exact counted_of_plain rfl (.inl rfl)
  | subscribeState =>
    simp only [step]
    split
    all_goals exact counted_of_plain rfl (.inl rfl)
  | recvState i =>
    simp only [step]
    split
    all_goals exact counted_of_plain rfl (.inl rfl)

/-- Where there is no call, none goes on, is resumed or is given up. -/
theorem calls_of_rest (hactivity : s.activity = .idle ∨ s.activity = .dropped) :
    (∀ res, s.sent res = s) ∧ s.poll = s ∧ s.cancel = s := by
  refine ⟨fun res => ?_, ?_, ?_⟩
  · unfold sent
    rcases hactivity with h | h <;> rw [h]
  · unfold poll
    rcases hactivity with h | h <;> rw [h]
  · unfold cancel
    rcases hactivity with h | h <;> rw [h]

/-- Before the first response of the user there is no task that could take a message. -/
theorem untouched_step (hhandle : s.provisionalRetransHandle = none)
    (hactivity : s.activity = .idle ∨ s.activity = .dropped) {e : ServerEvent}
    (hgives : s.gives e = 0) :
    (s.step e).provisionalRetransHandle = none ∧
      ((s.step e).activity = .idle ∨ (s.step e).activity = .dropped) := by
  obtain ⟨hsent, hpoll, hcancel⟩ := calls_of_rest hactivity
  cases e with
  | deliver msg =>
    simp only [step]
    split
    all_goals exact ⟨hhandle, hactivity⟩
  | close => exact ⟨hhandle, hactivity⟩
  | elapse ms => exact ⟨hhandle, hactivity⟩
  | sendProvisionalResponse response =>
    simp only [gives] at hgives
    simp only [step, sendProvisionalResponse]
    -- a response that is accepted counts as given
    split
    · next hidle =>
      split
      · next hcode =>
        rw [if_pos ⟨hidle, hcode⟩] at hgives
        cases hgives
      · exact ⟨hhandle, hactivity⟩
    · exact ⟨hhandle, hactivity⟩
  | sendFinalResponse response =>
    simp only [gives] at hgives
    simp only [step, sendFinalResponse]
    split
    · next hidle =>
      split
      · next hcode =>
        rw [if_pos ⟨hidle, hcode⟩] at hgives
        cases hgives
      · exact ⟨hhandle, .inr rfl⟩
    · exact ⟨hhandle, hactivity⟩
  | sent res =>
    rw [show s.step (.sent res) = s.sent res from rfl, hsent]
    exact ⟨hhandle, hactivity⟩
  | retransmitted res =>
    rw [show s.step (.retransmitted res) = s.retransmitted res from rfl,
      retransmitted_of_none hhandle]
    exact ⟨hhandle, hactivity⟩
  | poll =>
    rw [show s.step .poll = s.poll from rfl, hpoll]
    exact ⟨hhandle, hactivity⟩
  | pollTask =>
    rw [show s.step .pollTask = s.pollTask from rfl, pollTask_of_none hhandle]
    exact ⟨hhandle, hactivity⟩
  | cancel =>
    rw [show s.step .cancel = s.cancel from rfl, hcancel]
    exact ⟨hhandle, hactivity⟩
  | drop =>
    simp only [step]
    split
    · exact ⟨hhandle, .inr rfl⟩
    · exact ⟨hhandle, hactivity⟩
  | subscribeState =>
    simp only [step]
    split
    all_goals exact ⟨hhandle, hactivity⟩
  | recvState i =>
    simp only [step]
    split
    all_goals exact ⟨hhandle, hactivity⟩

/-- They take none. -/
theorem takes_untouched (hhandle : s.provisionalRetransHandle = none)
    (hactivity : s.activity = .idle ∨ s.activity = .dropped) (e : ServerEvent) :
    s.takes e = 0 := by
  cases e with
  | poll =>
    simp only [takes]
    rcases hactivity with h | h <;> rw [h]
  | pollTask => simp [takes, taskPass, hhandle]
  | _ => rfl

end ServerTransaction

/-- A server transaction with the number of responses that its user has handed over, and of the
    messages that came in, and came in before the first response. -/
structure ServerCounts where
  server : ServerTransaction
  given : Nat := 0
  delivered : Nat := 0
  early : Nat := 0

namespace ServerCounts

/-- The counts of what the user has given and of what has come in go along with the transaction. -/
def step (w : ServerCounts) (e : ServerEvent) : ServerCounts where
  server := w.server.step e
  given := w.given + w.server.gives e
  delivered := w.delivered + w.server.arrives e
  early := if w.given = 0 then w.early + w.server.arrives e else w.early

/-- There are as many responses on the wire as the user handed over and messages were taken that
    came after the first of these.  Messages are taken in the order in which they came. -/
def Absorbed (w : ServerCounts) : Prop :=
  w.server.wire = w.given + (w.server.taken - w.early)

/-- No message is taken while one of those taken so far, or this one, came before the first
    response. -/
def TakesNoEarly (w : ServerCounts) (e : ServerEvent) : Prop := w.server.takes e ≠ 0 → w.early = 0

instance (w : ServerCounts) : Decidable w.Absorbed := by
  unfold Absorbed
  infer_instance

instance (w : ServerCounts) (e : ServerEvent) : Decidable (w.TakesNoEarly e) := by
  unfold TakesNoEarly
  infer_instance

/-- Whatever comes in is taken or still in the channel, all that is taken is answered, and before
    the first response nothing is taken. -/
structure Ok (w : ServerCounts) : Prop where
  states : w.server.StatesOk
  isInvite : w.server.isInviteTsx = false
  wire : w.server.wire = w.given + w.server.taken
  delivered : w.delivered = w.server.taken + w.server.channel.queue.length
  untouched : w.given = 0 → w.server.provisionalRetransHandle = none ∧
    (w.server.activity = .idle ∨ w.server.activity = .dropped)
  taken : w.given = 0 → w.server.taken = 0

/-- Every step keeps the counts in order. -/
theorem Ok.step {w : ServerCounts} (h : w.Ok) (e : ServerEvent) : (w.step e).Ok := by
  obtain ⟨hwire, htaken, hqueue⟩ := ServerTransaction.counted_step h.states h.isInvite e
  have hstep := h.states.step e
  have huntouched : (w.step e).given = 0 → w.given = 0 ∧ w.server.gives e = 0 :=
    Nat.add_eq_zero_iff.mp
  -- the counts follow the wire and the queue by what `counted_step` says of each event
  constructor
  · exact hstep.states
  · exact (congrArg (fun r : IncomingRequest => decide (r.method = .invite)) hstep.request).trans
      h.isInvite
  · show (w.server.step e).wire = w.given + w.server.gives e + (w.server.step e).taken
    rw [hwire, htaken, h.wire]
    omega
  · show w.delivered + w.server.arrives e =
      (w.server.step e).taken + (w.server.step e).channel.queue.length
    rw [htaken, h.delivered]
    omega
  · intro hgiven
    obtain ⟨hnone, hgives⟩ := huntouched hgiven
    obtain ⟨hhandle, hactivity⟩ := h.untouched hnone
    exact ServerTransaction.untouched_step hhandle hactivity hgives
  · intro hgiven
    obtain ⟨hnone, -⟩ := huntouched hgiven
    obtain ⟨hhandle, hactivity⟩ := h.untouched hnone
    show (w.server.step e).taken = 0
    rw [htaken, h.taken hnone, ServerTransaction.takes_untouched hhandle hactivity e]

/-- The early messages count as soon as one message is taken. -/
theorem Ok.absorbed_iff {w : ServerCounts} (h : w.Ok) :
    w.Absorbed ↔ w.server.taken = 0 ∨ w.early = 0 := by
  unfold Absorbed
  rw [h.wire]
  omega

/-- The copies stay absorbed with a step exactly if it takes none from before the first response. -/
theorem absorbed_step_iff {w : ServerCounts} (hok : w.Ok) (h : w.Absorbed) (e : ServerEvent) :
    (w.step e).Absorbed ↔ w.TakesNoEarly e := by
  rw [hok.absorbed_iff] at h
  rw [(hok.step e).absorbed_iff]
  have htaken : (w.step e).server.taken = w.server.taken + w.server.takes e :=
    (ServerTransaction.counted_step hok.states hok.isInvite e).taken
  unfold TakesNoEarly
  rw [htaken]
  by_cases hgiven : w.given = 0
  · -- nothing was taken, and nothing is
    obtain ⟨hhandle, hactivity⟩ := hok.untouched hgiven
    have hnone := ServerTransaction.takes_untouched hhandle hactivity e
    rw [hok.taken hgiven, hnone]
    exact iff_of_true (.inl rfl) fun hne => absurd rfl hne
  · have hearly : (w.step e).early = w.early := if_neg hgiven
    rw [hearly]
    omega

/-- At the start nothing has come in and nothing was sent. -/
theorem ok_fromRequest {request : IncomingRequest} {now : Nat} {s : ServerTransaction}
    (h : ServerTransaction.fromRequest request now = some s) (hmethod : request.method ≠ .invite) :
    Ok { server := s } := by
  have hstates := ServerTransaction.statesOk_fromRequest h
  unfold ServerTransaction.fromRequest at h
  split at h
  · cases h
  · obtain ⟨key, -, rfl⟩ := Option.map_eq_some_iff.mp h
    exact ⟨hstates, decide_eq_false hmethod, rfl, rfl, fun _ => ⟨rfl, .inl rfl⟩, fun _ => rfl⟩

/-- **When early retransmissions are absorbed.** All along a run of a non-`INVITE` transaction
    there are as many responses on the wire as the user has sent and later messages were taken
    exactly when no message is taken, unless none came before the first response. -/
theorem run_absorbed_iff {request : IncomingRequest} {now : Nat} {s : ServerTransaction}
    (h : ServerTransaction.fromRequest request now = some s) (hmethod : request.method ≠ .invite)
    (es : List ServerEvent) :
    Always step Absorbed { server := s } es ↔ Meets step TakesNoEarly { server := s } es := by
  have hinv : ∀ (w : ServerCounts) e, w.Ok → (w.step e).Ok := fun _ e hw => hw.step e
  have hok := ok_fromRequest h hmethod
  have hstart : Absorbed { server := s } := hok.absorbed_iff.mpr (.inr rfl)
  exact always_iff_meets hinv (fun _ e hw hp => absorbed_step_iff hw hp e) hok hstart es

/-- The transaction of an `OPTIONS` request. -/
def options : ServerTransaction :=
  .new (.newKey3261 .uas .options "z9hG4bK1") (.fromLocalhost .options none false) 0

/-- A copy of the request. -/
def retransmission : IncomingMessage := .request (.fromLocalhost .options none false)

/-- A retransmission behind the first response is answered once. -/
theorem run_absorbed_options :
    Always step Absorbed { server := options }
      [.sendProvisionalResponse (.ofCode .trying), .sent (.ok ⟨.localhost, .localhost false⟩),
        .deliver retransmission, .pollTask] :=
  have hrequest : ServerTransaction.fromRequest (.fromLocalhost .options none false) 0 =
      some options := rfl
  (run_absorbed_iff hrequest (by decide) _).mpr
    ⟨by decide, by decide, by decide, by decide, trivial⟩

/-- One that came before the first response is answered when the receiver is read. -/
theorem not_run_absorbed_options :
    ¬ Always step Absorbed { server := options }
      [.deliver retransmission, .sendProvisionalResponse (.ofCode .trying),
        .sent (.ok ⟨.localhost, .localhost false⟩), .pollTask] := by
  intro h
  exact absurd (h _ (List.prefix_refl _)) (by decide)

end ServerCounts

end Rssip
