import Rssip.Transaction.Client

namespace Rssip

open Lib

/-!
# The states of a client transaction

In every run the states go forward along the edges of the client machine, and every subscriber
hears of them in order.

* `ClientEdge` — the edges;
* `ClientActivity.Admits` — the states a transaction can be in, by who holds it;
* `ClientTransaction.StatesOk` — the invariant, kept by `step`;
* `ClientTransaction.run_states` — the statement about runs.
-/

/-- The edges of the client state machine. -/
def ClientEdge : State → State → Prop
  | .calling, t | .trying, t => t = .proceeding ∨ t = .completed ∨ t = .terminated
  | .proceeding, t => t = .completed ∨ t = .terminated
  | .completed, t => t = .terminated
  | .confirmed, _ | .terminated, _ => False

/-- Every edge goes up in the order of the states. -/
theorem ClientEdge.lt {s t : State} (h : ClientEdge s t) : s < t := by
  cases s <;> cases t <;> simp_all [ClientEdge] <;> decide

/-- No client transaction is confirmed: that is a state of servers. -/
theorem ClientEdge.ne_confirmed {s t : State} (h : ClientEdge s t) : t ≠ .confirmed := by
  rintro rfl
  cases s <;> simp [ClientEdge] at h

/-- No client transaction comes to `Trying`: it may start there. -/
theorem ClientEdge.ne_trying {s t : State} (h : ClientEdge s t) : t ≠ .trying := by
  rintro rfl
  cases s <;> simp [ClientEdge] at h

/-- Only the first state of a chain of edges can be `Confirmed`. -/
theorem ClientEdge.ne_confirmed_of_mem {s : State} {states : List State}
    (h : (s :: states).IsChain ClientEdge) {t : State} (ht : t ∈ states) : t ≠ .confirmed := by
  induction states generalizing s with
  | nil => cases ht
  | cons s' states ih =>
    obtain ⟨hedge, hchain⟩ := List.isChain_cons_cons.mp h
    rcases List.mem_cons.mp ht with rfl | ht
    · exact hedge.ne_confirmed
    · exact ih hchain ht

/-- From the states before a final response every later one can be reached. -/
theorem clientEdge_of_le_proceeding {s t : State} (hs : s ≤ .proceeding)
    (ht : t = .completed ∨ t = .terminated) : ClientEdge s t := by
  cases s with
  | calling | trying => exact .inr ht
  | proceeding => exact ht
  | completed | confirmed | terminated => exact absurd hs (by decide)

/-- The states a transaction can be in, by who holds it. -/
def ClientActivity.Admits : ClientActivity → State → Prop
  | .idle, s => s ≤ .proceeding ∨ s = .terminated
  | .provisional seen _, s => seen = s ∧ s ≤ .proceeding
  | .final _, s => s ≤ .proceeding
  | .completed _ _, s => s = .completed
  | .dropped, _ => True

/-- What holds of the state machine of a client transaction, by who holds the transaction. -/
structure ClientStates (isInvite : Bool) (m : StateMachine) (activity : ClientActivity) :
    Prop where
  machine : m.Ok
  first : m.history.head? = some (if isInvite then .calling else .trying)
  edges : m.history.IsChain ClientEdge
  length_le : m.history.length ≤ m.state.rank + 1
  kind : isInvite = true → m.state ≠ .trying
  phase : activity.Admits m.state

namespace ClientStates

variable {isInvite : Bool} {m : StateMachine} {activity activity' : ClientActivity}

/-- Another holder keeps the invariant if it may have the transaction in its state. -/
theorem become (h : ClientStates isInvite m activity) (hphase : activity'.Admits m.state) :
    ClientStates isInvite m activity' :=
  { h with phase := hphase }

/-- A change along an edge. -/
theorem setState (h : ClientStates isInvite m activity) {s : State} (hedge : ClientEdge m.state s)
    (hphase : activity'.Admits s) : ClientStates isInvite (m.setState s) activity' where
  machine := by
    refine h.machine.setState (h.length_le.trans ?_) s
    cases m.state <;> decide
  first := by
    rw [StateMachine.history_setState, List.head?_append, h.first]
    rfl
  edges := by
    refine List.isChain_append.mpr ⟨h.edges, List.isChain_singleton s, ?_⟩
    intro s₁ hs₁ s₂ hs₂
    -- the last state of the history is the current one
    rw [h.machine.last] at hs₁
    rw [← Option.some.inj hs₁, ← Option.some.inj hs₂]
    exact hedge
  length_le := by
    have hlt : m.state.rank < s.rank := hedge.lt
    have hle := h.length_le
    rw [StateMachine.history_setState, List.length_append]
    show m.history.length + 1 ≤ s.rank + 1
    omega
  kind := fun _ => hedge.ne_trying
  phase := hphase

/-- A receiver for the states keeps the invariant. -/
theorem subscribeState (h : ClientStates isInvite m activity) :
    ClientStates isInvite m.subscribeState activity :=
  { h with machine := h.machine.subscribeState }

/-- To read a state from a receiver keeps the invariant. -/
theorem recv (h : ClientStates isInvite m activity) (i : Nat) :
    ClientStates isInvite (m.recv i) activity :=
  { h with machine := h.machine.recv i }

end ClientStates

namespace ClientTransaction

/-- The invariant of a client transaction's state machine. -/
def StatesOk (c : ClientTransaction) : Prop := ClientStates c.isInvite c.stateMachine c.activity

/-! ### The steps -/

/-- The channel does not matter to the state machine. -/
theorem StatesOk.setChannel {c : ClientTransaction} (h : c.StatesOk)
    (channel : PeekableReceiver IncomingMessage) :
    StatesOk { c with channel := channel } := h

/-- To take a message out of the channel does not matter to the state machine. -/
theorem StatesOk.receive {c : ClientTransaction} (h : c.StatesOk)
    (channel : PeekableReceiver IncomingMessage) (out : ClientOutput) :
    StatesOk ({ c with channel := channel }.record out) := h

/-- A call can wait for a response up to `Proceeding`. -/
theorem startWait_eq_some_of_le {c : ClientTransaction} (h : c.state ≤ .proceeding) :
    ∃ wait, c.startWait = some wait := by
  unfold startWait
  cases hstate : c.state with
  | calling | trying | proceeding => exact ⟨_, rfl⟩
  | completed | confirmed | terminated =>
    rw [hstate] at h
    exact absurd h (by decide)

/-- A call that waits for a response has found the transaction in `Proceeding` at most. -/
theorem le_of_startWait_eq_some {c : ClientTransaction} {wait : Wait}
    (h : c.startWait = some wait) : c.state ≤ .proceeding := by
  unfold startWait at h
  cases hstate : c.state with
  | calling | trying | proceeding => decide
  | completed | confirmed | terminated =>
    rw [hstate] at h
    cases h

/-- The states of a transaction, by who holds it. -/
theorem StatesOk.admits {c : ClientTransaction} (h : c.StatesOk) {activity : ClientActivity}
    (hactivity : c.activity = activity) : activity.Admits c.state := hactivity ▸ h.phase

/-- Before a final response, `receive_provisional_response` waits. -/
theorem call_provisional {c : ClientTransaction} (hidle : c.activity = .idle)
    (hle : c.state ≤ .proceeding) :
    ∃ wait, c.step .receiveProvisionalResponse = c.become (.provisional c.state wait) := by
  obtain ⟨wait, hwait⟩ := startWait_eq_some_of_le hle
  refine ⟨wait, ?_⟩
  rw [step, if_pos hidle]
  simp only [receiveProvisionalResponse, if_pos hle, hwait]

/-- Before a final response, `receive_final_response` waits. -/
theorem call_final {c : ClientTransaction} (hidle : c.activity = .idle)
    (hle : c.state ≤ .proceeding) :
    ∃ wait, c.step .receiveFinalResponse = c.become (.final wait) := by
  obtain ⟨wait, hwait⟩ := startWait_eq_some_of_le hle
  exact ⟨wait, by rw [step, if_pos hidle, receiveFinalResponse, hwait]⟩

/-- The start of a call for a provisional response enters no state. -/
theorem StatesOk.receiveProvisionalResponse {c : ClientTransaction} (h : c.StatesOk) :
    c.receiveProvisionalResponse.StatesOk := by
  by_cases hle : c.state ≤ .proceeding
  · obtain ⟨wait, hwait⟩ := startWait_eq_some_of_le hle
    simp only [ClientTransaction.receiveProvisionalResponse, if_pos hle, hwait]
    exact ClientStates.become h ⟨rfl, hle⟩
  · simp only [ClientTransaction.receiveProvisionalResponse, if_neg hle]
    exact h

/-- The start of a call for the final response enters no state. -/
theorem StatesOk.receiveFinalResponse {c : ClientTransaction} (h : c.StatesOk) :
    c.receiveFinalResponse.StatesOk := by
  unfold ClientTransaction.receiveFinalResponse
  cases hwait : c.startWait with
  | some wait => exact ClientStates.become h (le_of_startWait_eq_some hwait)
  | none => exact ClientStates.become h trivial

/-- A call for a provisional response that ends without an error leaves the transaction in
    `Proceeding`, whether there was a response or not. -/
theorem StatesOk.finishProvisional {c : ClientTransaction} {seen : State} {wait : Wait}
    (h : c.StatesOk) (hactivity : c.activity = .provisional seen wait)
    (res : Option IncomingResponse) : (c.finishProvisional seen (.ok res)).StatesOk := by
  have hphase : (ClientActivity.provisional seen wait).Admits c.state := h.admits hactivity
  obtain ⟨rfl, hle⟩ := hphase
  simp only [ClientTransaction.finishProvisional]
  by_cases hseen : c.state ≠ .proceeding
  · rw [if_pos hseen]
    -- the snapshot is still the state, so the change is one to `Proceeding`
    have hedge : ClientEdge c.state .proceeding := by
      cases hstate : c.state with
      | calling | trying => exact .inl rfl
      | proceeding => exact absurd hstate hseen
      | completed | confirmed | terminated =>
        rw [hstate] at hle
        exact absurd hle (by decide)
    exact ClientStates.setState h hedge (.inl (by decide))
  · rw [if_neg hseen]
    exact ClientStates.become h (.inl hle)

/-- A final response takes the transaction to `Completed`, or at once to the last state. -/
theorem StatesOk.finishResponse {c : ClientTransaction} (h : c.StatesOk)
    (hle : c.state ≤ .proceeding) (r : IncomingResponse) : (c.finishResponse r).StatesOk := by
  have hcompleted := clientEdge_of_le_proceeding hle (t := .completed) (.inl rfl)
  have hterminated := clientEdge_of_le_proceeding hle (t := .terminated) (.inr rfl)
  unfold ClientTransaction.finishResponse
  split
  · exact ClientStates.setState h hterminated trivial
  · simp only []
    split
    · split
      · exact ClientStates.setState h hcompleted rfl
      · exact ClientStates.setState h hcompleted trivial
    · exact ClientStates.setState h hcompleted rfl

/-- The task that outlives the final response can only enter the last state. -/
theorem StatesOk.pollCompleted {c : ClientTransaction} {timer : Nat}
    {ack : Option OutgoingRequest} (h : c.StatesOk) (hactivity : c.activity = .completed timer ack) :
    (c.pollCompleted timer ack).StatesOk := by
  have hphase : (ClientActivity.completed timer ack).Admits c.state := hactivity ▸ h.phase
  have hedge : ClientEdge c.state .terminated := by
    rw [show c.state = .completed from hphase]
    rfl
  rcases c.channel.pollRecv_cases with
    ⟨msg, rest, channel, -, hpoll, -, -⟩ | ⟨-, -, hpoll⟩ | ⟨-, -, hpoll⟩
  · simp only [ClientTransaction.pollCompleted, hpoll]
    cases msg with
    | request r => exact ClientStates.setState h hedge trivial
    | response r => cases ack <;> exact h
  · simp only [ClientTransaction.pollCompleted, hpoll]
    exact ClientStates.setState h hedge trivial
  · simp only [ClientTransaction.pollCompleted, hpoll]
    split
    · exact ClientStates.setState h hedge trivial
    · exact h

/-- A poll keeps the invariant, by who holds the transaction. -/
theorem StatesOk.poll {c : ClientTransaction} (h : c.StatesOk) : c.poll.StatesOk := by
  unfold ClientTransaction.poll
  cases hactivity : c.activity with
  | idle => exact h
  | dropped => exact h
  | completed timer ack => exact h.pollCompleted hactivity
  | provisional seen wait =>
    have hphase : (ClientActivity.provisional seen wait).Admits c.state := h.admits hactivity
    rcases c.pollResponse_cases (fun r => r.code.isProvisional) wait with
      ⟨r, rest, channel, -, -, -, -, hpoll⟩ | ⟨channel, -, -, -, -, hpoll⟩ |
      ⟨-, -, ⟨wait', hpoll⟩ | ⟨-, hpoll⟩ | hpoll⟩
    · simp only [hpoll]
      exact (h.receive channel (.received (.response r))).finishProvisional hactivity _
    · -- the state moves on even when no response was taken
      simp only [hpoll]
      exact (h.setChannel channel).finishProvisional hactivity _
    · simp only [hpoll]
      exact ClientStates.become h hphase
    · simp only [hpoll]
      exact ClientStates.setState h (clientEdge_of_le_proceeding hphase.2 (.inr rfl)) (.inr rfl)
    · simp only [hpoll]
      exact ClientStates.become h hphase
  | final wait =>
    have hphase : (ClientActivity.final wait).Admits c.state := hactivity ▸ h.phase
    rcases c.pollResponse_cases (fun r => r.code.isFinal) wait with
      ⟨r, rest, channel, -, -, -, -, hpoll⟩ | ⟨channel, -, -, -, -, hpoll⟩ |
      ⟨-, -, ⟨wait', hpoll⟩ | ⟨-, hpoll⟩ | hpoll⟩
    · simp only [hpoll]
      exact (h.receive channel (.received (.response r))).finishResponse hphase r
    · simp only [hpoll]
      exact ClientStates.become h trivial
    · simp only [hpoll]
      exact ClientStates.become h hphase
    · simp only [hpoll]
      exact ClientStates.setState h (clientEdge_of_le_proceeding hphase (.inr rfl)) trivial
    · simp only [hpoll]
      exact ClientStates.become h hphase

/-- To give up a call enters no state. -/
theorem StatesOk.cancel {c : ClientTransaction} (h : c.StatesOk) : c.cancel.StatesOk := by
  unfold ClientTransaction.cancel
  cases hactivity : c.activity with
  | provisional seen wait =>
    have hphase : (ClientActivity.provisional seen wait).Admits c.state := h.admits hactivity
    exact ClientStates.become h (.inl hphase.2)
  | final wait => exact ClientStates.become h trivial
  | idle | completed _ _ | dropped => exact h

/-- **Every step keeps the invariant.** -/
theorem StatesOk.step {c : ClientTransaction} (h : c.StatesOk) (e : ClientEvent) :
    (c.step e).StatesOk := by
  cases e with
  | deliver msg =>
    show (if c.channel.closed then c else _).StatesOk
    split
    · exact h
    · exact h
  | close => exact h
  | elapse ms => exact h
  | receiveProvisionalResponse =>
    show (if c.activity = .idle then c.receiveProvisionalResponse else c).StatesOk
    split
    · exact h.receiveProvisionalResponse
    · exact h
  | receiveFinalResponse =>
    show (if c.activity = .idle then c.receiveFinalResponse else c).StatesOk
    split
    · exact h.receiveFinalResponse
    · exact h
  | poll => exact h.poll
  | cancel => exact h.cancel
  -- what the user does needs the transaction in his hands
  | drop =>
    show (if c.activity = .idle then c.become .dropped else c).StatesOk
    split
    · exact ClientStates.become h trivial
    · exact h
  | subscribeState =>
    show (if c.activity = .idle then _ else c).StatesOk
    split
    · exact ClientStates.subscribeState h
    · exact h
  | recvState i => exact ClientStates.recv h i

/-! ### Runs -/

/-- A client transaction starts in the first state of its method. -/
theorem statesOk_send {generated : String} {outgoing : OutgoingRequest} {now : Nat}
    {c : ClientTransaction} (h : send generated outgoing now = some c) : c.StatesOk := by
  obtain ⟨-, hmachine, -, -, -, hidle, -⟩ := send_eq_some h
  show ClientStates c.isInvite c.stateMachine c.activity
  rw [hmachine, hidle]
  exact
    { machine := StateMachine.ok_new _
      first := rfl
      edges := List.isChain_singleton _
      length_le := Nat.le_add_left 1 _
      kind := fun hinvite => by rw [StateMachine.state_new, if_pos hinvite]; decide
      phase := .inl (by rw [StateMachine.state_new]; split <;> decide) }

/-- The invariant holds in every state of a run. -/
theorem StatesOk.run {c : ClientTransaction} (h : c.StatesOk) (es : List ClientEvent) :
    (c.run es).StatesOk :=
  exec_invariant (fun _ e hs => hs.step e) h es

/-- **The states of a client transaction.** In every run they start in `Calling` or `Trying`,
    go forward along the edges of the client machine, never enter `Confirmed` and end with
    `Terminated` if they reach it; and every subscriber has received, or has in its buffer,
    every change since it subscribed, in order. -/
theorem run_states {generated : String} {outgoing : OutgoingRequest} {now : Nat}
    {c : ClientTransaction} (h : send generated outgoing now = some c) (es : List ClientEvent) :
    let m := (c.run es).stateMachine
    m.history.head? = some (if c.isInvite then .calling else .trying) ∧
      m.history.getLast? = some m.state ∧
      m.history.IsChain ClientEdge ∧ m.history.Pairwise (· < ·) ∧ .confirmed ∉ m.history ∧
      (∀ before after, m.history = before ++ .terminated :: after → after = []) ∧
      ∀ sub ∈ m.subscribers, sub.InStep m.history := by
  intro m
  have hrun : (c.run es).StatesOk := (statesOk_send h).run es
  have hinvite : (c.run es).isInvite = c.isInvite := by
    unfold isInvite
    rw [request_run]
  have hfirst := hrun.first
  rw [hinvite] at hfirst
  have hpairwise : m.history.Pairwise (· < ·) :=
    List.isChain_iff_pairwise.mp (hrun.edges.imp fun _ _ => ClientEdge.lt)
  refine ⟨hfirst, hrun.machine.last, hrun.edges, hpairwise, ?_, ?_, hrun.machine.inStep⟩
  · intro hmem
    -- the first state is not `Confirmed`, and no edge leads there
    cases hhistory : m.history with
    | nil =>
      rw [hhistory] at hmem
      cases hmem
    | cons s rest =>
      have hedges : (s :: rest).IsChain ClientEdge := hhistory ▸ hrun.edges
      rw [hhistory] at hmem hfirst
      rcases List.mem_cons.mp hmem with hs | hrest
      · rw [← hs] at hfirst
        cases hkind : c.isInvite <;> rw [hkind] at hfirst <;> cases hfirst
      · exact ClientEdge.ne_confirmed_of_mem hedges hrest rfl
  · intro before after hhistory
    rw [hhistory] at hpairwise
    obtain ⟨-, htail, -⟩ := List.pairwise_append.mp hpairwise
    -- nothing is greater than `Terminated`
    refine List.eq_nil_iff_forall_not_mem.mpr fun s hs => ?_
    have hlt : State.terminated < s := List.rel_of_pairwise_cons htail hs
    cases s <;> exact absurd hlt (by decide)

/-- An `INVITE` that runs into its deadline. -/
theorem run_states_timeout :
    let m := ((new "z9hG4bK1" (.toLocalhost .invite false) 0).run
      [.subscribeState, .receiveFinalResponse, .elapse 500, .poll, .elapse 31500, .poll,
        .poll]).stateMachine
    m.history = [.calling, .terminated] ∧ m.history.IsChain ClientEdge ∧
      ∀ sub ∈ m.subscribers, sub.InStep m.history :=
  have h := run_states (show send "z9hG4bK1" (.toLocalhost .invite false) 0 = some _ from rfl)
    [.subscribeState, .receiveFinalResponse, .elapse 500, .poll, .elapse 31500, .poll, .poll]
  ⟨by decide, h.2.2.1, h.2.2.2.2.2.2⟩

end ClientTransaction

end Rssip
