import Rssip.Lib.Timed
import Rssip.Transaction.ServerCounts

namespace Rssip

open Lib

/-!
# After the final response

The call of the final response waits for the provisional task, which gives the receiver back; then
a task takes over, which repeats the response until the transaction ends.

* `ServerTransaction.HandOverOk` — the receiver is with the user or with the provisional task;
* `ServerTransaction.FinalOk` — after the final response the provisional task reads nothing more;
* `ServerTransaction.Quiet` — there is nothing to do until a message comes or a timer fires;
* `ServerTransaction.FinalHanded` — the final response is on its way, or behind;
* `run_ceases_iff` — when no response is sent after an `ACK`.
-/

/-- The final response is not sent yet. -/
def ServerActivity.BeforeFinal : ServerActivity → Prop
  | .idle | .sendingProvisional _ | .sendingFinal _ => True
  | _ => False

namespace ServerTransaction

variable {s : ServerTransaction}

/-! ### Time -/

/-- The clock of a server transaction. -/
def clock : Clock step where
  now := now
  elapse := .elapse
  now_elapse _ _ := rfl
  elapse_add s ms ms' := by
    show { s with now := s.now + ms + ms' } = { s with now := s.now + (ms + ms') }
    rw [Nat.add_assoc]
  now_step _ _ he := now_step _ he

/-- Nothing is being transmitted, and polls change nothing. -/
structure Quiet (s : ServerTransaction) : Prop where
  transmitting : s.activity.transmitting = none
  sending : ∀ task, s.provisionalRetransHandle = some task → task.sending = false
  poll : s.poll = s
  pollTask : s.pollTask = s

/-! ### Where the receiver is -/

/-- A change of the state is buffered for the task. -/
def Told (task : ProvisionalTask) (m : StateMachine) : Prop :=
  ∃ sub, m.subscribers[task.stateRx]? = some sub ∧ sub.buffer ≠ []

/-- Until the final response is sent the receiver is with the user or with the provisional task,
    which hears of the states. -/
structure HandOverOk (s : ServerTransaction) : Prop where
  receiver : s.activity.BeforeFinal → s.provisionalRetransHandle = none → s.hasReceiver = true
  valid : ∀ task, s.provisionalRetransHandle = some task →
    task.stateRx < s.stateMachine.subscribers.length

/-- Behind the final response the provisional task has been told to leave, or is gone; which
    task has taken over depends on the method. -/
def FinalOk (s : ServerTransaction) : Prop :=
  match s.activity with
  | .idle | .sendingProvisional _ | .sendingFinal _ => False
  | .joining _ _ => s.isReliable = false ∧
    ∃ task, s.provisionalRetransHandle = some task ∧ Told task s.stateMachine
  | .retransmitting _ _ _ _ _ => s.isInviteTsx = true ∧ s.provisionalRetransHandle = none
  | .absorbing _ _ _ => s.isInviteTsx = false ∧ s.provisionalRetransHandle = none
  | .confirmed _ => s.provisionalRetransHandle = none
  | .dropped => True

/-- A change of the state is buffered for the task from then on. -/
theorem told_setState {task : ProvisionalTask} {m : StateMachine}
    (h : task.stateRx < m.subscribers.length) (state : State) : Told task (m.setState state) := by
  refine ⟨_, List.getElem?_map.trans (by rw [List.getElem?_eq_getElem h]; rfl), ?_⟩
  unfold Subscriber.push
  split
  all_goals exact List.append_ne_nil_of_right_ne_nil _ (List.cons_ne_nil _ _)

/-- What another receiver reads does not take the task's change away. -/
theorem told_recv {task : ProvisionalTask} {m : StateMachine} {i : Nat} (hi : task.stateRx ≠ i)
    (h : Told task m) : Told task (m.recv i) := by
  obtain ⟨sub, hsub, hbuffer⟩ := h
  refine ⟨sub, ?_, hbuffer⟩
  show (m.subscribers.mapIdx _)[task.stateRx]? = some sub
  rw [List.getElem?_mapIdx, hsub, Option.map_some, if_neg hi]

/-- A task that has been told leaves before it looks at anything else. -/
theorem stateRxReady_of_told {task : ProvisionalTask} (h : Told task s.stateMachine) :
    s.stateRxReady task = true := by
  obtain ⟨sub, hsub, hbuffer⟩ := h
  unfold stateRxReady
  rw [hsub, Option.any_some, Bool.or_eq_true]
  refine .inr ?_
  rw [Bool.not_eq_true', ← Bool.not_eq_true, List.isEmpty_iff]
  exact hbuffer

/-- The user does not get the transaction back. -/
theorem FinalOk.ne_idle (h : s.FinalOk) : s.activity ≠ .idle := by
  intro hidle
  simp only [FinalOk, hidle] at h

/-- The final phase depends on the request, on who holds the transaction, on the task and on the
    states only. -/
theorem FinalOk.of_same {s' : ServerTransaction} (h : s.FinalOk)
    (hrequest : s'.request = s.request) (hactivity : s'.activity = s.activity)
    (hhandle : s'.provisionalRetransHandle = s.provisionalRetransHandle)
    (hmachine : s'.stateMachine = s.stateMachine) : s'.FinalOk := by
  unfold FinalOk isReliable isInviteTsx at h ⊢
  rw [hrequest, hactivity, hhandle, hmachine]
  exact h

/-! ### Up to the final response -/

/-- At the start the receiver is with the user, and there is no task. -/
theorem handOverOk_fromRequest {request : IncomingRequest} {now : Nat}
    (h : fromRequest request now = some s) : s.HandOverOk := by
  unfold fromRequest at h
  split at h
  · cases h
  · obtain ⟨key, -, rfl⟩ := Option.map_eq_some_iff.mp h
    exact ⟨fun _ _ => rfl, fun _ htask => nomatch htask⟩

/-- What neither moves the receiver nor the task keeps the hand-over in order. -/
theorem HandOverOk.of_same {s' : ServerTransaction} (h : s.HandOverOk)
    (hactivity : s'.activity.BeforeFinal → s.activity.BeforeFinal)
    (hhandle : s'.provisionalRetransHandle = s.provisionalRetransHandle)
    (hreceiver : s'.hasReceiver = s.hasReceiver)
    (hmachine : s'.stateMachine.subscribers.length = s.stateMachine.subscribers.length) :
    s'.HandOverOk := by
  refine ⟨fun hopen hnone => ?_, fun task htask => ?_⟩
  · rw [hreceiver]
    exact h.receiver (hactivity hopen) (hhandle ▸ hnone)
  · rw [hmachine]
    exact h.valid task (hhandle ▸ htask)

/-- After the final response only the numbers of the subscriptions are left to say. -/
theorem HandOverOk.of_final {s' : ServerTransaction} (h : s.HandOverOk)
    (hactivity : ¬ s'.activity.BeforeFinal)
    (hhandle : ∀ task, s'.provisionalRetransHandle = some task →
      s.provisionalRetransHandle = some task)
    (hmachine : s'.stateMachine.subscribers.length = s.stateMachine.subscribers.length) :
    s'.HandOverOk := by
  refine ⟨fun hopen => absurd hopen hactivity, fun task htask => ?_⟩
  rw [hmachine]
  exact h.valid task (hhandle task htask)

/-- The end of a call for a provisional response spawns the task with the receiver, or tells the one
    there is. -/
theorem HandOverOk.finishProvisional (h : s.HandOverOk)
    (hactivity : s.activity.BeforeFinal) (response : OutgoingResponse) :
    (s.finishProvisional response).HandOverOk := by
  unfold ServerTransaction.finishProvisional
  cases hhandle : s.provisionalRetransHandle with
  | some task =>
    have hvalid := h.valid task hhandle
    simp only []
    split
    · exact h.of_same (fun _ => hactivity) rfl rfl rfl
    · refine ⟨fun _ hnone => (nomatch hnone), fun task' htask' => ?_⟩
      obtain rfl := Option.some.inj htask'
      exact hvalid
  | none =>
    simp only []
    split
    · -- the task subscribes to the states as it is spawned
      refine ⟨fun _ hnone => (nomatch hnone), fun task' htask' => ?_⟩
      obtain rfl := Option.some.inj htask'
      show _ < (_ ++ [_]).length
      rw [List.length_append]
      exact Nat.lt_succ_self _
    · exact h.of_same (fun hopen => hopen.elim) rfl rfl rfl

/-- To set the state changes no number of receivers. -/
theorem length_setState (state : State) (m : StateMachine) :
    (m.setState state).subscribers.length = m.subscribers.length := List.length_map _

/-- To leave the final response to its task keeps the hand-over in order: nothing is before the
    final response any more. -/
theorem HandOverOk.spawnFinalTask {s' : ServerTransaction} (h : s.HandOverOk)
    (hhandle : ∀ task, s'.provisionalRetransHandle = some task →
      s.provisionalRetransHandle = some task)
    (hmachine : s'.stateMachine.subscribers.length = s.stateMachine.subscribers.length)
    (response : OutgoingResponse) (deadline : Nat) :
    (s'.spawnFinalTask response deadline).HandOverOk := by
  unfold ServerTransaction.spawnFinalTask
  simp only []
  split
  all_goals exact h.of_final id hhandle hmachine

/-- The end of a call for the final response keeps the hand-over in order. -/
theorem HandOverOk.finishFinal (h : s.HandOverOk) (response : OutgoingResponse) :
    (s.finishFinal response).HandOverOk := by
  have hone : ((s.setState .completed).stateMachine).subscribers.length =
      s.stateMachine.subscribers.length := length_setState _ _
  unfold ServerTransaction.finishFinal
  split
  · exact h.of_final id (fun _ => id) (length_setState _ _)
  · simp only []
    split
    · exact h.of_final id (fun _ => id) ((length_setState _ _).trans hone)
    · split
      · exact h.of_final id (fun _ => id) hone
      · split
        · refine h.spawnFinalTask ?_ ?_ _ _
          · exact fun _ => id
          · exact hone
        · exact h.of_final id (fun _ => id) hone

/-- The result of a transmission keeps the hand-over in order, by which call it was for. -/
theorem HandOverOk.sent (h : s.HandOverOk) (res : Except Error TargetTransportInfo) :
    (s.sent res).HandOverOk := by
  obtain ⟨targetInfo, hkeep⟩ := s.keepTarget_eq res
  have hkept : { s with targetInfo := targetInfo }.HandOverOk := ⟨h.receiver, h.valid⟩
  unfold ServerTransaction.sent
  split
  · next hactivity =>
    rw [hkeep]
    refine hkept.finishProvisional ?_ _
    show s.activity.BeforeFinal
    rw [hactivity]
    trivial
  · next hactivity =>
    refine h.of_same (fun _ => ?_) rfl rfl rfl
    rw [hactivity]
    trivial
  · rw [hkeep]
    exact hkept.finishFinal _
  · exact h.of_final id (fun _ => id) rfl
  · rw [hkeep]
    exact h.of_final id (fun _ => id) rfl
  · rw [hkeep]
    exact h.of_final id (fun _ => id) rfl
  · exact h

/-- A poll of the call keeps the hand-over in order. -/
theorem HandOverOk.poll (h : s.HandOverOk) : s.poll.HandOverOk := by
  unfold ServerTransaction.poll
  -- behind the final response the receiver is with the task
  split
  · split
    · refine h.spawnFinalTask ?_ ?_ _ _
      · exact fun _ htask => nomatch htask
      · rfl
    · exact h
  · unfold ServerTransaction.pollRetransmitting
    simp only []
    split
    · split
      · exact h.of_final id (fun _ => id) (length_setState _ _)
      · exact h.of_final id (fun _ => id) rfl
    · exact h.of_final id (fun _ => id) rfl
    · split
      · exact h.of_final id (fun _ => id) rfl
      · split
        · exact h.of_final id (fun _ => id) (length_setState _ _)
        · exact h.of_same id rfl rfl rfl
  · split
    · exact h.of_final id (fun _ => id) (length_setState _ _)
    · exact h
  · unfold ServerTransaction.pollAbsorbing
    simp only []
    split
    · exact h.of_final id (fun _ => id) rfl
    · exact h.of_final id (fun _ => id) (length_setState _ _)
    · split
      · exact h.of_final id (fun _ => id) (length_setState _ _)
      · exact h.of_same id rfl rfl rfl
  all_goals exact h

/-- What the provisional task does to itself leaves its subscription alone. -/
theorem stateRx_pollTask {task : ProvisionalTask}
    (h : s.pollTask.provisionalRetransHandle = some task) :
    ∃ task', s.provisionalRetransHandle = some task' ∧ task'.stateRx = task.stateRx := by
  unfold ServerTransaction.pollTask at h
  cases hhandle : s.provisionalRetransHandle with
  | none =>
    simp only [hhandle] at h
    cases h
  | some task' =>
    simp only [hhandle] at h
    refine ⟨task', rfl, ?_⟩
    repeat' split at h
    all_goals first
      | exact congrArg ProvisionalTask.stateRx (Option.some.inj (hhandle.symm.trans h))
      | (obtain rfl := Option.some.inj h; rfl)

/-- **A step keeps the receiver where it is found again.** -/
theorem HandOverOk.step (h : s.HandOverOk) (e : ServerEvent) : (s.step e).HandOverOk := by
  cases e with
  | sent res => exact h.sent res
  | poll => exact h.poll
  -- the task that leaves stays in its place, so the receiver is not asked for
  | pollTask =>
    obtain ⟨-, hmachine, hactivity, hsome⟩ := pollTask_frame s
    refine ⟨fun hopen hnone => ?_, fun task htask => ?_⟩
    · have hnone' : s.provisionalRetransHandle = none := by
        rw [← Option.isNone_iff_eq_none, ← Option.not_isSome, Bool.not_eq_true', ← hsome]
        exact congrArg Option.isSome hnone
      show s.pollTask.hasReceiver = true
      rw [pollTask_of_none hnone']
      exact h.receiver (hactivity ▸ hopen) hnone'
    · obtain ⟨task', htask', hrx⟩ := stateRx_pollTask htask
      show task.stateRx < s.pollTask.stateMachine.subscribers.length
      rw [hmachine, ← hrx]
      exact h.valid task' htask'
  | retransmitted res =>
    simp only [ServerTransaction.step, retransmitted]
    split
    · exact h
    · next task hhandle =>
      have hvalid := h.valid task hhandle
      split
      · refine ⟨by simp, fun task' htask' => ?_⟩
        obtain rfl := Option.some.inj htask'
        exact hvalid
      · exact h
  | deliver msg =>
    simp only [ServerTransaction.step]
    split
    · exact h
    · exact h.of_same id rfl rfl rfl
  | close | elapse _ => exact h.of_same id rfl rfl rfl
  | sendProvisionalResponse response =>
    simp only [ServerTransaction.step, ServerTransaction.sendProvisionalResponse]
    split
    · next hidle =>
      have hbefore : s.activity.BeforeFinal := by
        rw [hidle]
        trivial
      split
      · exact h.of_same (fun _ => hbefore) rfl rfl rfl
      · exact h.of_same id rfl rfl rfl
    · exact h
  | sendFinalResponse response =>
    simp only [ServerTransaction.step, ServerTransaction.sendFinalResponse]
    split
    · next hidle =>
      have hbefore : s.activity.BeforeFinal := by
        rw [hidle]
        trivial
      split
      · exact h.of_same (fun _ => hbefore) rfl rfl rfl
      · exact h.of_final id (fun _ => id) rfl
    · exact h
  | cancel =>
    simp only [ServerTransaction.step, ServerTransaction.cancel]
    split
    · next hactivity =>
      refine h.of_same (fun _ => ?_) rfl rfl rfl
      rw [hactivity]
      trivial
    · exact h.of_final id (fun _ => id) rfl
    · exact h.of_final id (fun _ => id) rfl
    all_goals exact h
  | drop =>
    simp only [ServerTransaction.step]
    split
    · exact h.of_final id (fun _ => id) rfl
    · exact h
  -- a new subscription leaves the numbers of the others
  | subscribeState =>
    simp only [ServerTransaction.step]
    split
    · refine ⟨h.receiver, fun task htask => ?_⟩
      show _ < (_ ++ [_]).length
      rw [List.length_append]
      exact Nat.lt_succ_of_lt (h.valid task htask)
    · exact h
  | recvState i =>
    simp only [ServerTransaction.step]
    split
    · exact h
    · exact h.of_same id rfl rfl List.length_mapIdx

/-- The hand-over is in order in every state of a run, from the request on. -/
theorem run_handOverOk {request : IncomingRequest} {now : Nat}
    (h : fromRequest request now = some s) (es : List ServerEvent) : (s.run es).HandOverOk := by
  have hstep : ∀ (s : ServerTransaction) e, s.HandOverOk → (s.step e).HandOverOk :=
    fun _ e hs => hs.step e
  exact exec_invariant hstep (handOverOk_fromRequest h) es

/-! ### Behind the final response -/

/-- Over an unreliable transport, without a provisional task, the final task takes over as the
    method asks. -/
theorem finalOk_spawnFinalTask (hreliable : s.isReliable = false)
    (hhandle : s.provisionalRetransHandle = none) (response : OutgoingResponse)
    (deadline : Nat) : (s.spawnFinalTask response deadline).FinalOk := by
  unfold spawnFinalTask
  simp only []
  split
  · next hinvite => exact ⟨(Bool.and_eq_true _ _ ▸ hinvite).1, hhandle⟩
  · next hinvite =>
    refine ⟨?_, hhandle⟩
    by_contra hne
    have hyes : s.isInviteTsx = true := Bool.eq_true_of_not_eq_false hne
    refine hinvite ?_
    show (s.isInviteTsx && !s.isReliable) = true
    rw [hreliable, hyes]
    rfl

/-- The call of a final response goes on after its transmission. -/
theorem sent_sendingFinal {response : OutgoingResponse}
    (h : s.activity = .sendingFinal response) (target : TargetTransportInfo) :
    ∃ targetInfo, s.sent (.ok target) =
      { s with targetInfo := targetInfo }.finishFinal (response.after (.ok target)) := by
  obtain ⟨targetInfo, hkeep⟩ := s.keepTarget_eq (.ok target)
  refine ⟨targetInfo, ?_⟩
  rw [← hkeep]
  unfold ServerTransaction.sent
  rw [h]

/-- The final response was sent. -/
theorem HandOverOk.finalOk_sent (h : s.HandOverOk) {response : OutgoingResponse}
    (hactivity : s.activity = .sendingFinal response) (target : TargetTransportInfo) :
    (s.sent (.ok target)).FinalOk := by
  obtain ⟨targetInfo, hsent⟩ := sent_sendingFinal hactivity target
  rw [hsent]
  unfold ServerTransaction.finishFinal
  split
  · trivial
  · simp only []
    split
    · trivial
    -- over an unreliable transport the provisional task hears of `Completed`
    · next hreliable =>
      have hreliable : s.isReliable = false := Bool.eq_false_of_not_eq_true hreliable
      split
      · next task hhandle =>
        exact ⟨hreliable, task, hhandle, told_setState (h.valid task hhandle) .completed⟩
      · next hhandle =>
        split
        · refine finalOk_spawnFinalTask ?_ ?_ _ _
          · exact hreliable
          · exact hhandle
        · trivial

/-- The loops of the final task keep away from the provisional one. -/
theorem FinalOk.poll (h : s.FinalOk) : s.poll.FinalOk := by
  have hfinal := h
  unfold FinalOk at h
  unfold ServerTransaction.poll
  cases hactivity : s.activity with
  | joining response deadline =>
    simp only [hactivity] at h
    simp only []
    -- the call takes the handle when the task has returned
    split
    · refine finalOk_spawnFinalTask ?_ rfl _ _
      exact h.1
    · exact hfinal
  | retransmitting response interval expires deadline sending =>
    rw [hactivity] at h
    cases sending with
    | true => exact hfinal
    | false =>
      simp only [ServerTransaction.pollRetransmitting]
      split
      · split
        · exact h.2
        · exact h
      · trivial
      · split
        · exact h
        · split
          · trivial
          · exact hfinal.of_same rfl rfl rfl rfl
  | confirmed wakeup =>
    simp only []
    split
    · trivial
    · exact hfinal
  | absorbing response deadline sending =>
    rw [hactivity] at h
    cases sending with
    | true => exact hfinal
    | false =>
      simp only [ServerTransaction.pollAbsorbing]
      split
      · exact h
      · trivial
      · split
        · trivial
        · exact hfinal.of_same rfl rfl rfl rfl
  | idle | sendingProvisional _ | sendingFinal _ | dropped => exact hfinal

/-- The result of a transmission changes nothing in the final phase, where the call has none under
    way. -/
theorem FinalOk.sent (h : s.FinalOk) (res : Except Error TargetTransportInfo) :
    (s.sent res).FinalOk := by
  obtain ⟨targetInfo, hkeep⟩ := s.keepTarget_eq res
  have hfinal := h
  unfold FinalOk at h
  unfold ServerTransaction.sent
  -- only a task that was sending takes the result; in the first four states there is no such task
  split
  · next hactivity =>
    rw [hactivity] at h
    exact h.elim
  · next hactivity =>
    rw [hactivity] at h
    exact h.elim
  · next hactivity =>
    rw [hactivity] at h
    exact h.elim
  · next hactivity =>
    rw [hactivity] at h
    exact h.elim
  · next hactivity =>
    rw [hactivity] at h
    rw [hkeep]
    exact h
  · next hactivity =>
    rw [hactivity] at h
    rw [hkeep]
    exact h
  · exact hfinal

/-- A provisional task that is there has been told. -/
theorem FinalOk.stateRxReady (h : s.FinalOk) {task : ProvisionalTask}
    (hhandle : s.provisionalRetransHandle = some task) : s.stateRxReady task = true := by
  unfold FinalOk at h
  cases hactivity : s.activity with
  | joining response deadline =>
    simp only [hactivity] at h
    obtain ⟨-, task', htask', htold⟩ := h
    obtain rfl := Option.some.inj (hhandle.symm.trans htask')
    exact stateRxReady_of_told htold
  | dropped => simp [ServerTransaction.stateRxReady, hactivity]
  | retransmitting _ _ _ _ _ | absorbing _ _ _ =>
    simp only [hactivity, hhandle] at h
    exact nomatch h.2
  | confirmed _ =>
    simp only [hactivity, hhandle] at h
    exact nomatch h
  | idle | sendingProvisional _ | sendingFinal _ =>
    simp only [hactivity] at h

/-- The provisional task leaves, without a look at the channel. -/
theorem FinalOk.pollTask_of_handle (h : s.FinalOk) {task : ProvisionalTask}
    (hhandle : s.provisionalRetransHandle = some task) :
    s.pollTask = if task.returned || task.sending then s else
      { s with provisionalRetransHandle := some { task with returned := true } } := by
  unfold ServerTransaction.pollTask
  rw [hhandle]
  simp only [h.stateRxReady hhandle, if_true]

/-- In the final phase the provisional task can only return: it was told to leave. -/
theorem FinalOk.pollTask_eq (h : s.FinalOk) :
    s.pollTask = s ∨ ∃ task, s.provisionalRetransHandle = some task ∧ s.pollTask =
      { s with provisionalRetransHandle := some { task with returned := true } } := by
  cases hhandle : s.provisionalRetransHandle with
  | none =>
    exact .inl (pollTask_of_none hhandle)
  | some task =>
    rw [h.pollTask_of_handle hhandle]
    split
    · exact .inl rfl
    · exact .inr ⟨task, rfl, rfl⟩

/-- What the provisional task makes of itself does not matter as long as it stays told. -/
theorem FinalOk.with_task (h : s.FinalOk) {task : ProvisionalTask}
    (hhandle : s.provisionalRetransHandle = some task) {task' : ProvisionalTask}
    (hrx : task'.stateRx = task.stateRx) :
    { s with provisionalRetransHandle := some task' }.FinalOk := by
  unfold FinalOk at h ⊢
  cases hactivity : s.activity with
  | joining response deadline =>
    simp only [hactivity] at h ⊢
    obtain ⟨hreliable, told, htold, sub, hsub, hbuffer⟩ := h
    obtain rfl := Option.some.inj (hhandle.symm.trans htold)
    exact ⟨hreliable, task', rfl, sub, hrx ▸ hsub, hbuffer⟩
  | retransmitting _ _ _ _ _ | absorbing _ _ _ =>
    simp only [hactivity, hhandle] at h
    exact nomatch h.2
  | confirmed _ =>
    simp only [hactivity, hhandle] at h
    exact nomatch h
  | idle | sendingProvisional _ | sendingFinal _ => simp only [hactivity] at h
  | dropped => trivial

/-- **The provisional task stays told, or gone.** -/
theorem FinalOk.step (h : s.FinalOk) (e : ServerEvent) : (s.step e).FinalOk := by
  have hidle := h.ne_idle
  cases e with
  | sent res => exact h.sent res
  | poll => exact h.poll
  | pollTask =>
    show s.pollTask.FinalOk
    rcases h.pollTask_eq with hsame | ⟨task, hhandle, hleft⟩
    · rw [hsame]
      exact h
    · rw [hleft]
      exact h.with_task hhandle rfl
  | retransmitted res =>
    simp only [ServerTransaction.step, retransmitted]
    split
    · exact h
    · next task hhandle =>
      split
      · exact h.with_task hhandle rfl
      · exact h
  | deliver msg =>
    simp only [ServerTransaction.step]
    split
    · exact h
    · exact h.of_same rfl rfl rfl rfl
  | close | elapse _ => exact h.of_same rfl rfl rfl rfl
  | sendProvisionalResponse _ | sendFinalResponse _ | drop | subscribeState =>
    rw [step_of_busy hidle]
    · exact h
    · exact trivial
  | cancel =>
    simp only [ServerTransaction.step, ServerTransaction.cancel]
    split
    · next hactivity => simp only [FinalOk, hactivity] at h
    · trivial
    · trivial
    all_goals exact h
  | recvState i =>
    simp only [ServerTransaction.step]
    split
    · exact h
    · next hnot =>
      -- the user receives, but not from the subscription of the task
      unfold FinalOk at h ⊢
      cases hactivity : s.activity with
      | joining response deadline =>
        simp only [hactivity] at h ⊢
        obtain ⟨hreliable, task, hhandle, htold⟩ := h
        refine ⟨hreliable, task, hhandle, told_recv ?_ htold⟩
        rintro rfl
        simp [hhandle] at hnot
      | retransmitting _ _ _ _ _ | confirmed _ | absorbing _ _ _ =>
        simp only [hactivity] at h ⊢
        exact h
      | idle | sendingProvisional _ | sendingFinal _ => simp only [hactivity] at h
      | dropped => trivial

/-- A run behind the final response. -/
theorem FinalOk.run (h : s.FinalOk) (es : List ServerEvent) : (s.run es).FinalOk := by
  have hstep : ∀ (s' : ServerTransaction) e, s'.FinalOk → (s'.step e).FinalOk :=
    fun _ e hs' => hs'.step e
  exact exec_invariant hstep h es

/-- Who holds the transaction after a step that is not a poll. -/
inductive FinalOther (s : ServerTransaction) (e : ServerEvent) : ServerActivity → Prop
  | same : FinalOther s e s.activity
  | sent {response interval expires deadline res}
      (hactivity : s.activity = .retransmitting response interval expires deadline true)
      (hsent : e = .sent res) : FinalOther s e
        (.retransmitting (response.after res) interval (s.now + interval) deadline false)
  | absorbingSent {response deadline res}
      (hactivity : s.activity = .absorbing response deadline true) (hsent : e = .sent res) :
      FinalOther s e (.absorbing (response.after res) deadline false)
  | cancelled {response deadline} (hactivity : s.activity = .joining response deadline)
      (hcancel : e = .cancel) : FinalOther s e .dropped

/-- A step that is not a poll puts nothing out and changes no state, and brings up no provisional
    task. -/
structure Aside (s : ServerTransaction) (e : ServerEvent) (s' : ServerTransaction) : Prop where
  trace : s'.trace = s.trace
  history : s'.stateMachine.history = s.stateMachine.history
  handle : s.provisionalRetransHandle = none → s'.provisionalRetransHandle = none
  holder : FinalOther s e s'.activity

/-- A step without effect is one aside. -/
theorem Aside.refl (s : ServerTransaction) (e : ServerEvent) : Aside s e s :=
  ⟨rfl, rfl, id, .same⟩

/-- **What the other steps do behind the final response.** -/
theorem FinalOk.other (h : s.FinalOk) {e : ServerEvent} (he : e ≠ .poll) :
    Aside s e (s.step e) := by
  have hidle := h.ne_idle
  cases e with
  | poll => exact absurd rfl he
  | sent res =>
    obtain ⟨targetInfo, hkeep⟩ := s.keepTarget_eq res
    simp only [ServerTransaction.step, ServerTransaction.sent]
    split
    -- the calls that come before the end of the final response
    · next hactivity => simp only [FinalOk, hactivity] at h
    · next hactivity => simp only [FinalOk, hactivity] at h
    · next hactivity => simp only [FinalOk, hactivity] at h
    · next hactivity => simp only [FinalOk, hactivity] at h
    · next hactivity =>
      rw [hkeep]
      exact ⟨rfl, rfl, id, .sent hactivity rfl⟩
    · next hactivity =>
      rw [hkeep]
      exact ⟨rfl, rfl, id, .absorbingSent hactivity rfl⟩
    · exact .refl s _
  | pollTask =>
    show Aside s .pollTask s.pollTask
    rcases h.pollTask_eq with hsame | ⟨task, hhandle, hleft⟩
    · rw [hsame]
      exact .refl s _
    · rw [hleft]
      exact ⟨rfl, rfl, by simp [hhandle], .same⟩
  | retransmitted res =>
    simp only [ServerTransaction.step, retransmitted]
    split
    · exact .refl s _
    · next task hhandle =>
      split
      · exact ⟨rfl, rfl, by simp [hhandle], .same⟩
      · exact .refl s _
  | cancel =>
    simp only [ServerTransaction.step, ServerTransaction.cancel]
    split
    · next hactivity => simp only [FinalOk, hactivity] at h
    · next hactivity => simp only [FinalOk, hactivity] at h
    · next hactivity => exact ⟨rfl, rfl, id, .cancelled hactivity rfl⟩
    all_goals exact .refl s _
  | sendProvisionalResponse _ | sendFinalResponse _ | drop | subscribeState =>
    rw [step_of_busy hidle]
    · exact .refl s _
    · exact trivial
  | deliver _ | recvState _ =>
    simp only [ServerTransaction.step]
    split
    all_goals exact ⟨rfl, rfl, id, .same⟩
  | close | elapse _ => exact ⟨rfl, rfl, id, .same⟩

/-- The task that takes over. -/
theorem spawnFinalTask_eq (response : OutgoingResponse) (deadline : Nat) (s : ServerTransaction) :
    s.spawnFinalTask response deadline = (s.ret (.ok ())).become
      (if s.isInviteTsx && !s.isReliable then
        .retransmitting response T1 (s.now + T1) deadline false
      else .absorbing response deadline false) := by
  unfold spawnFinalTask
  have hcond : ((s.ret (.ok ())).isInviteTsx && !(s.ret (.ok ())).isReliable) =
      (s.isInviteTsx && !s.isReliable) := rfl
  simp only [hcond]
  split
  all_goals rfl

/-- What a poll does behind the final response: who holds the transaction then, what is put out,
    and the states that are added. -/
inductive FinalPoll (s : ServerTransaction) :
    ServerActivity → List ServerOutput → List State → Prop
  | still (hretransmitting : ∀ response interval expires deadline,
        s.activity ≠ .retransmitting response interval expires deadline false)
      (habsorbing : ∀ response deadline, s.activity ≠ .absorbing response deadline false) :
      FinalPoll s s.activity [] []
  | joined {response deadline} (hactivity : s.activity = .joining response deadline) :
      FinalPoll s
        (if s.isInviteTsx then .retransmitting response T1 (s.now + T1) deadline false
          else .absorbing response deadline false)
        [.returned (.ok ())] []
  | waits {response interval expires deadline}
      (hactivity : s.activity = .retransmitting response interval expires deadline false)
      (hqueue : s.channel.queue = []) (hopen : s.channel.closed = false)
      (hexpires : s.now < expires) (hdeadline : s.now < deadline) : FinalPoll s s.activity [] []
  | answered {response interval expires deadline msg rest}
      (hactivity : s.activity = .retransmitting response interval expires deadline false)
      (hqueue : s.channel.queue = msg :: rest) (hack : msg.isAck = false) :
      FinalPoll s (.retransmitting response interval expires deadline true)
        [.received msg, .sent response] []
  | acked {response interval expires deadline msg rest}
      (hactivity : s.activity = .retransmitting response interval expires deadline false)
      (hqueue : s.channel.queue = msg :: rest) (hack : msg.isAck = true) :
      FinalPoll s (.confirmed (s.now + T4)) [.received msg] [.confirmed]
  | repeated {response interval expires deadline}
      (hactivity : s.activity = .retransmitting response interval expires deadline false)
      (hqueue : s.channel.queue = []) (hopen : s.channel.closed = false)
      (hexpires : expires ≤ s.now) :
      FinalPoll s (.retransmitting response (min (interval * 2) T2) expires deadline true)
        [.sent response] []
  | gaveUp {response interval expires deadline}
      (hactivity : s.activity = .retransmitting response interval expires deadline false)
      (hqueue : s.channel.queue = []) (hopen : s.channel.closed = false)
      (hexpires : s.now < expires) (hdeadline : deadline ≤ s.now) :
      FinalPoll s .dropped [] [.terminated]
  | closed {response interval expires deadline}
      (hactivity : s.activity = .retransmitting response interval expires deadline false)
      (hqueue : s.channel.queue = []) (hclosed : s.channel.closed = true) :
      FinalPoll s .dropped [] []
  | confirmedOver {wakeup} (hactivity : s.activity = .confirmed wakeup) (hdue : wakeup ≤ s.now) :
      FinalPoll s .dropped [] [.terminated]
  | absorbs {response deadline} (hactivity : s.activity = .absorbing response deadline false)
      (hqueue : s.channel.queue = []) (hopen : s.channel.closed = false)
      (hdeadline : s.now < deadline) : FinalPoll s s.activity [] []
  | copied {response deadline msg rest}
      (hactivity : s.activity = .absorbing response deadline false)
      (hqueue : s.channel.queue = msg :: rest) :
      FinalPoll s (.absorbing response deadline true) [.received msg, .sent response] []
  | absorbed {response deadline} (hactivity : s.activity = .absorbing response deadline false)
      (hqueue : s.channel.queue = []) (hend : s.channel.closed = true ∨ deadline ≤ s.now) :
      FinalPoll s .dropped [] [.terminated]

/-- What is put out in a step. -/
def outputs (s : ServerTransaction) (e : ServerEvent) : List ServerOutput :=
  (s.step e).trace.drop s.trace.length

/-- What a poll adds to the trace is what it puts out. -/
theorem outputs_poll {outs : List ServerOutput} (h : s.poll.trace = s.trace ++ outs) :
    s.outputs .poll = outs := by
  show s.poll.trace.drop s.trace.length = outs
  rw [h, List.drop_left]

/-- In the final phase only a poll puts something out. -/
theorem FinalOk.outputs_other (h : s.FinalOk) {e : ServerEvent} (he : e ≠ .poll) :
    s.outputs e = [] := by
  unfold outputs
  rw [(h.other he).trace, List.drop_length]

/-- The trace and the states after a poll, with who holds the transaction. -/
def Polled (s s' : ServerTransaction) : Prop :=
  ∃ outs states, s'.trace = s.trace ++ outs ∧
    s'.stateMachine.history = s.stateMachine.history ++ states ∧
    FinalPoll s s'.activity outs states

/-- A poll without effect puts nothing out and enters no state. -/
theorem Polled.of_same {s' : ServerTransaction} (hactivity : s'.activity = s.activity)
    (htrace : s'.trace = s.trace) (hmachine : s'.stateMachine = s.stateMachine)
    (h : FinalPoll s s.activity [] []) : Polled s s' := by
  refine ⟨[], [], ?_, ?_, ?_⟩
  · rw [htrace, List.append_nil]
  · rw [hmachine, List.append_nil]
  · rw [hactivity]
    exact h

/-- A poll of the final response that is repeated: it is sent again when its interval is over or a
    copy comes, and an `ACK`, the deadline or the end of the channel ends that. -/
theorem polled_retransmitting {response : OutgoingResponse} {interval expires deadline : Nat}
    (hactivity : s.activity = .retransmitting response interval expires deadline false) :
    Polled s (s.pollRetransmitting response interval expires deadline) := by
  -- by what the channel gives: a message, its end, or nothing yet
  unfold pollRetransmitting
  rcases s.channel.pollRecv_cases with
    ⟨msg, rest, hqueue, hpoll⟩ | ⟨hqueue, hclosed, hpoll⟩ | ⟨hqueue, hopen, hpoll⟩
  · rw [hpoll]
    simp only []
    split
    · next hack => exact ⟨[.received msg], _, rfl, rfl, .acked hactivity hqueue hack⟩
    · next hack =>
      exact ⟨[.received msg, .sent response], [], List.append_assoc _ _ _,
        (List.append_nil _).symm, .answered hactivity hqueue (Bool.eq_false_of_not_eq_true hack)⟩
  · rw [hpoll]
    exact ⟨[], [], (List.append_nil _).symm, (List.append_nil _).symm,
      .closed hactivity hqueue hclosed⟩
  · rw [hpoll]
    simp only []
    split
    · next hexpires =>
      exact ⟨[.sent response], [], rfl, (List.append_nil _).symm,
        .repeated hactivity hqueue hopen hexpires⟩
    · next hexpires =>
      split
      · next hdeadline =>
        exact ⟨[], [.terminated], (List.append_nil _).symm, rfl,
          .gaveUp hactivity hqueue hopen (not_le.mp hexpires) hdeadline⟩
      · next hdeadline =>
        exact .of_same rfl rfl rfl
          (.waits hactivity hqueue hopen (not_le.mp hexpires) (not_le.mp hdeadline))

/-- A poll of the task that absorbs copies: the final response is sent again for each, and the
    deadline or the end of the channel ends that. -/
theorem polled_absorbing {response : OutgoingResponse} {deadline : Nat}
    (hactivity : s.activity = .absorbing response deadline false) :
    Polled s (s.pollAbsorbing response deadline) := by
  unfold pollAbsorbing
  rcases s.channel.pollRecv_cases with
    ⟨msg, rest, hqueue, hpoll⟩ | ⟨hqueue, hclosed, hpoll⟩ | ⟨hqueue, hopen, hpoll⟩
  · rw [hpoll]
    exact ⟨[.received msg, .sent response], [], List.append_assoc _ _ _,
      (List.append_nil _).symm, .copied hactivity hqueue⟩
  · rw [hpoll]
    exact ⟨[], [.terminated], (List.append_nil _).symm, rfl,
      .absorbed hactivity hqueue (.inl hclosed)⟩
  · rw [hpoll]
    simp only []
    split
    · next hdeadline =>
      exact ⟨[], [.terminated], (List.append_nil _).symm, rfl,
        .absorbed hactivity hqueue (.inr hdeadline)⟩
    · next hdeadline =>
      exact .of_same rfl rfl rfl (.absorbs hactivity hqueue hopen (not_le.mp hdeadline))

/-- A poll of the call that waits for the provisional task goes on with the final one. -/
theorem polled_joining {response : OutgoingResponse} {deadline : Nat} (h : s.FinalOk)
    (hactivity : s.activity = .joining response deadline) :
    Polled s ({ s with provisionalRetransHandle := none }.spawnFinalTask response deadline) := by
  have hreliable : s.isReliable = false := by
    simp only [FinalOk, hactivity] at h
    exact h.1
  have hinvite : (s.isInviteTsx && !s.isReliable) = s.isInviteTsx := by
    rw [hreliable, Bool.not_false, Bool.and_true]
  have hjoined := FinalPoll.joined hactivity
  rw [← hinvite] at hjoined
  rw [spawnFinalTask_eq]
  exact ⟨[.returned (.ok ())], [], rfl, (List.append_nil _).symm, hjoined⟩

/-- **What a poll does behind the final response.** -/
theorem FinalOk.polled (h : s.FinalOk) : Polled s s.poll := by
  have hstill : (∀ response interval expires deadline,
      s.activity ≠ .retransmitting response interval expires deadline false) →
      (∀ response deadline, s.activity ≠ .absorbing response deadline false) → Polled s s :=
    fun hretransmitting habsorbing => .of_same rfl rfl rfl (.still hretransmitting habsorbing)
  unfold ServerTransaction.poll
  split
  · next hactivity =>
    split
    · exact polled_joining h hactivity
    · simp only [hactivity] at hstill
      exact hstill (fun _ _ _ _ heq => nomatch heq) fun _ _ heq => nomatch heq
  · next hactivity => exact polled_retransmitting hactivity
  · next hactivity =>
    split
    · next hdue =>
      exact ⟨[], [.terminated], (List.append_nil _).symm, rfl, .confirmedOver hactivity hdue⟩
    · simp only [hactivity] at hstill
      exact hstill (fun _ _ _ _ heq => nomatch heq) fun _ _ heq => nomatch heq
  · next hactivity => exact polled_absorbing hactivity
  all_goals
    next hactivity =>
    simp only [hactivity] at hstill
    exact hstill (fun _ _ _ _ heq => nomatch heq) fun _ _ heq => nomatch heq

/-- Over an unreliable transport the final response is followed by a call that waits for the
    provisional task, or by the final task. -/
theorem HandOverOk.activity_sent (h : s.HandOverOk) {response : OutgoingResponse}
    (hsending : s.activity = .sendingFinal response) (hreliable : s.isReliable = false)
    (hcode : s.isInviteTsx = true → 299 ≤ response.code.asU16) (target : TargetTransportInfo) :
    (s.sent (.ok target)).activity =
      if s.provisionalRetransHandle.isSome then
        .joining (response.after (.ok target)) (s.now + if s.isInviteTsx then T4 else T1 * 64)
      else if s.isInviteTsx then
        .retransmitting (response.after (.ok target)) T1 (s.now + T1)
          (s.now + if s.isInviteTsx then T4 else T1 * 64) false
      else
        .absorbing (response.after (.ok target))
          (s.now + if s.isInviteTsx then T4 else T1 * 64) false := by
  obtain ⟨targetInfo, hsent⟩ := sent_sendingFinal hsending target
  rw [hsent]
  unfold ServerTransaction.finishFinal
  have hsuccess : ¬ ({ s with targetInfo := targetInfo }.isInviteTsx &&
      (200 ≤ (response.after (.ok target)).code.asU16 &&
        (response.after (.ok target)).code.asU16 < 299)) = true := by
    rw [code_after]
    simp only [Bool.and_eq_true, decide_eq_true_eq, not_and]
    intro hinvite _
    exact (hcode hinvite).not_gt
  have hunreliable : ¬ ({ s with targetInfo := targetInfo }.setState .completed).isReliable =
      true := by
    show ¬ s.isReliable = true
    rw [hreliable]
    exact Bool.noConfusion
  rw [if_neg hsuccess]
  simp only []
  rw [if_neg hunreliable]
  -- with a provisional task the call waits for it, and without one the receiver is at hand
  cases hhandle : s.provisionalRetransHandle with
  | some task => rfl
  | none =>
    have hbefore : s.activity.BeforeFinal := by
      rw [hsending]
      trivial
    have hreceiver := h.receiver hbefore hhandle
    have hmethod : (s.isInviteTsx && !s.isReliable) = s.isInviteTsx := by
      rw [hreliable, Bool.not_false, Bool.and_true]
    show (if s.hasReceiver then _ else _ : ServerTransaction).activity = _
    rw [hreceiver, if_pos rfl, spawnFinalTask_eq]
    show (if s.isInviteTsx && !s.isReliable then _ else _) = _
    rw [hmethod]
    rfl

/-! ### After the `ACK` -/

/-- An `ACK` came at `tAck`, and the transaction waits for its end, or has ended when the time had
    come. -/
def Ceased (tAck : Nat) (history : List State) (s : ServerTransaction) : Prop :=
  s.provisionalRetransHandle = none ∧
    (s.activity = .confirmed (tAck + T4) ∧ s.stateMachine.history = history ++ [.confirmed] ∨
      s.activity = .dropped ∧ tAck + T4 ≤ s.now ∧
        s.stateMachine.history = history ++ [.confirmed, .terminated])

variable {tAck : Nat} {history : List State}

/-- Behind its `ACK`, a transaction is in the final phase. -/
theorem Ceased.finalOk (h : Ceased tAck history s) : s.FinalOk := by
  obtain ⟨hhandle, ⟨hactivity, -⟩ | ⟨hactivity, -⟩⟩ := h
  · simp only [FinalOk, hactivity]
    exact hhandle
  · simp only [FinalOk, hactivity]

/-- A poll behind the `ACK` puts nothing out and keeps to the states after it. -/
theorem Ceased.poll (h : Ceased tAck history s) :
    Ceased tAck history s.poll ∧ s.poll.trace = s.trace := by
  have hceased := h
  obtain ⟨hhandle, hphase⟩ := h
  unfold ServerTransaction.poll
  rcases hphase with ⟨hactivity, hhistory⟩ | ⟨hactivity, -, -⟩
  · simp only [hactivity]
    split
    · next hdue =>
      refine ⟨⟨hhandle, .inr ⟨rfl, hdue, ?_⟩⟩, rfl⟩
      show s.stateMachine.history ++ [.terminated] = _
      rw [hhistory, List.append_assoc]
      rfl
    · exact ⟨hceased, rfl⟩
  · simp only [hactivity]
    exact ⟨hceased, trivial⟩

/-- **A transaction that has ceased puts nothing out any more.** -/
theorem Ceased.step (h : Ceased tAck history s) (e : ServerEvent) :
    Ceased tAck history (s.step e) ∧ (s.step e).trace = s.trace := by
  by_cases he : e = .poll
  · subst he
    exact h.poll
  · have hother := h.finalOk.other he
    have hnow : s.now ≤ (s.step e).now := clock.now_le_step s e
    obtain ⟨hhandle, hphase⟩ := h
    -- nothing is on its way, and no call waits
    have hactivity : (s.step e).activity = s.activity := by
      have hholder := hother.holder
      generalize (s.step e).activity = activity at hholder
      cases hholder with
      | same => rfl
      | sent hactivity _ | absorbingSent hactivity _ | cancelled hactivity _ =>
        rcases hphase with ⟨hbehind, -⟩ | ⟨hbehind, -⟩
        · exact nomatch hactivity.symm.trans hbehind
        · exact nomatch hactivity.symm.trans hbehind
    refine ⟨⟨hother.handle hhandle, ?_⟩, hother.trace⟩
    rw [hactivity, hother.history]
    exact hphase.imp id fun ⟨hdropped, hdue, hhistory⟩ => ⟨hdropped, hdue.trans hnow, hhistory⟩

/-- The same for a run behind the `ACK`, by induction on its steps. -/
theorem Ceased.run (h : Ceased tAck history s) (es : List ServerEvent) :
    Ceased tAck history (s.run es) ∧ (s.run es).trace = s.trace := by
  have hstep : ∀ (s' : ServerTransaction) e, Ceased tAck history s' ∧ s'.trace = s.trace →
      Ceased tAck history (s'.step e) ∧ (s'.step e).trace = s.trace := by
    rintro s' e ⟨hs', htrace⟩
    exact ⟨(hs'.step e).1, (hs'.step e).2.trans htrace⟩
  exact exec_invariant hstep ⟨h, rfl⟩ es

/-- With an `ACK` an `INVITE` transaction ceases. -/
theorem FinalOk.ceased_of_received (h : s.FinalOk) (hinvite : s.isInviteTsx = true)
    {e : ServerEvent} {msg : IncomingMessage}
    (hread : .received msg ∈ s.outputs e) (hack : msg.isAck = true) :
    e = .poll ∧ (s.step e).trace = s.trace ++ [.received msg] ∧
      Ceased s.now s.stateMachine.history (s.step e) := by
  -- nothing but the loop that waits for the `ACK` can have read it
  by_cases he : e ≠ .poll
  · rw [h.outputs_other he] at hread
    cases hread
  obtain rfl := not_not.mp he
  have hnext := h.poll
  obtain ⟨outs, states, htrace, hhistory, hpoll⟩ := h.polled
  rw [outputs_poll htrace] at hread
  refine ⟨rfl, ?_⟩
  show s.poll.trace = _ ∧ Ceased _ _ s.poll
  unfold FinalOk at hnext
  generalize hafter : s.poll.activity = activity at hpoll
  cases hpoll with
  | acked hactivity hqueue hack' =>
    obtain rfl := ServerOutput.received.inj (List.mem_singleton.mp hread)
    simp only [hafter] at hnext
    exact ⟨htrace, hnext, .inl ⟨hafter, hhistory⟩⟩
  | answered hactivity hqueue hack' =>
    rcases List.mem_cons.mp hread with heq | hlast
    · obtain rfl := ServerOutput.received.inj heq
      rw [hack] at hack'
      cases hack'
    · cases List.mem_singleton.mp hlast
  | copied hactivity hqueue =>
    simp only [FinalOk, hactivity] at h
    rw [hinvite] at h
    exact absurd h.1 Bool.noConfusion
  | joined hactivity => cases List.mem_singleton.mp hread
  | repeated hactivity hqueue hopen hexpires => cases List.mem_singleton.mp hread
  | _ => cases hread

/-- What a settled transaction has come to when the time of its end has passed. -/
theorem Ceased.dropped_of_quiet (h : Ceased tAck history s) (hquiet : s.Quiet)
    (hdue : tAck + T4 ≤ s.now) : s.activity = .dropped := by
  obtain ⟨-, ⟨hactivity, -⟩ | ⟨hactivity, -⟩⟩ := h
  · -- a poll would end it
    have hpoll := congrArg activity hquiet.poll
    unfold ServerTransaction.poll at hpoll
    simp only [hactivity, if_pos hdue] at hpoll
    cases hpoll
  · exact hactivity

/-! ### While the final response is being transmitted -/

/-- The provisional task reads a message and sends its own response again, or a pass of its loop
    puts nothing out. -/
theorem outputs_pollTask (s : ServerTransaction) :
    s.taskPass ≠ .reads ∧ s.outputs .pollTask = [] ∨
      s.taskPass = .reads ∧
        ∃ msg response, s.outputs .pollTask = [.received msg, .sent response] := by
  have hnone : ∀ {s' : ServerTransaction}, s'.trace = s.trace →
      s'.trace.drop s.trace.length = [] := by
    intro s' hsame
    rw [hsame, List.drop_length]
  show _ ∧ s.pollTask.trace.drop s.trace.length = [] ∨
    _ ∧ ∃ msg response, s.pollTask.trace.drop s.trace.length = [.received msg, .sent response]
  unfold taskPass pollTask
  -- by the branch of the `select!` that is ready
  cases hhandle : s.provisionalRetransHandle with
  | none => exact .inl ⟨TaskPass.noConfusion, hnone rfl⟩
  | some task =>
    dsimp only
    by_cases hbusy : task.returned || task.sending
    · simp only [hbusy, if_true]
      exact .inl ⟨TaskPass.noConfusion, hnone rfl⟩
    · simp only [if_neg hbusy]
      by_cases hready : s.stateRxReady task
      · simp only [hready, if_true]
        exact .inl ⟨TaskPass.noConfusion, hnone rfl⟩
      · simp only [if_neg hready]
        cases hprovisionals : task.provisionals with
        | cons response provisionals => exact .inl ⟨TaskPass.noConfusion, hnone rfl⟩
        | nil =>
          dsimp only
          rcases s.channel.pollRecv_cases with
            ⟨msg, rest, -, hpoll⟩ | ⟨-, -, hpoll⟩ | ⟨-, -, hpoll⟩
          · rw [hpoll]
            have htrace : s.trace ++ [.received msg] ++ [.sent task.response] =
                s.trace ++ [.received msg, .sent task.response] := List.append_assoc _ _ _
            refine .inr ⟨rfl, msg, task.response, ?_⟩
            exact (congrArg (List.drop s.trace.length) htrace).trans List.drop_left
          · rw [hpoll]
            exact .inl ⟨TaskPass.noConfusion, hnone rfl⟩
          · rw [hpoll]
            exact .inl ⟨TaskPass.noConfusion, hnone rfl⟩

/-- The rest of `send_final_response` puts out no more than the end of the call. -/
theorem trace_finishFinal (response : OutgoingResponse) (s : ServerTransaction) :
    ∃ outs, (s.finishFinal response).trace = s.trace ++ outs ∧
      ∀ out ∈ outs, out.isSent = false ∧ out.isReceived = false := by
  unfold finishFinal
  split
  · exact ⟨[.returned (.ok ())], rfl, by simp [ServerOutput.isSent, ServerOutput.isReceived]⟩
  · dsimp only
    split
    · exact ⟨[.returned (.ok ())], rfl, by simp [ServerOutput.isSent, ServerOutput.isReceived]⟩
    · split
      · exact ⟨[], (List.append_nil _).symm, fun _ hout => nomatch hout⟩
      · split
        · refine ⟨[.returned (.ok ())], ?_, by simp [ServerOutput.isSent, ServerOutput.isReceived]⟩
          rw [spawnFinalTask_eq]
          rfl
        · exact ⟨[.panicked], rfl, by simp [ServerOutput.isSent, ServerOutput.isReceived]⟩

/-- What becomes of the call: it goes on waiting, its transmission succeeds, or the transaction is
    dropped with it. -/
theorem step_sendingFinal {response : OutgoingResponse}
    (hsending : s.activity = .sendingFinal response) (e : ServerEvent) :
    ((s.step e).activity = .sendingFinal response ∧
        (e ≠ .pollTask → (s.step e).trace = s.trace)) ∨
      (∃ target, e = .sent (.ok target)) ∨
      (e = .cancel ∨ ∃ err, e = .sent (.error err)) ∧ (s.step e).activity = .dropped ∧
        (s.step e).stateMachine = s.stateMachine ∧
        ∃ outs, (s.step e).trace = s.trace ++ outs ∧
          ∀ out ∈ outs, out.isSent = false ∧ out.isReceived = false := by
  have hidle : s.activity ≠ .idle := by
    rw [hsending]
    exact ServerActivity.noConfusion
  cases e with
  | sent res =>
    cases res with
    | ok target => exact .inr (.inl ⟨target, rfl⟩)
    | error err =>
      refine .inr (.inr ⟨.inr ⟨err, rfl⟩, ?_⟩)
      show (s.sent (.error err)).activity = _ ∧ (s.sent (.error err)).stateMachine = _ ∧
        ∃ outs, (s.sent (.error err)).trace = _ ∧ _
      unfold ServerTransaction.sent
      simp only [hsending]
      exact ⟨rfl, rfl, [.returned (.error err)], rfl,
        by simp [ServerOutput.isSent, ServerOutput.isReceived]⟩
  | cancel =>
    refine .inr (.inr ⟨.inl rfl, ?_⟩)
    show s.cancel.activity = _ ∧ s.cancel.stateMachine = _ ∧ ∃ outs, s.cancel.trace = _ ∧ _
    unfold cancel
    simp only [hsending]
    exact ⟨rfl, rfl, [], (List.append_nil _).symm, fun _ hout => nomatch hout⟩
  | poll =>
    have hpoll : s.poll = s := by
      unfold ServerTransaction.poll
      simp only [hsending]
    refine .inl ?_
    show s.poll.activity = _ ∧ (_ → s.poll.trace = _)
    rw [hpoll]
    exact ⟨hsending, fun _ => rfl⟩
  | pollTask => exact .inl ⟨(pollTask_frame s).2.2.1.trans hsending, fun he => absurd rfl he⟩
  | retransmitted res =>
    refine .inl ⟨(retransmitted_frame res s).2.2.1.trans hsending, fun _ => ?_⟩
    show (s.retransmitted res).trace = _
    unfold retransmitted
    split
    · rfl
    · dsimp only
      split
      all_goals rfl
  | deliver _ | recvState _ =>
    simp only [ServerTransaction.step]
    split
    all_goals exact .inl ⟨hsending, fun _ => rfl⟩
  | close | elapse _ => exact .inl ⟨hsending, fun _ => rfl⟩
  | sendProvisionalResponse _ | sendFinalResponse _ | drop | subscribeState =>
    rw [step_of_busy hidle]
    · exact .inl ⟨hsending, fun _ => rfl⟩
    · exact trivial

/-- Until the call hears of its transmission only the provisional task reads the channel. -/
theorem outputs_sendingFinal {response : OutgoingResponse}
    (hsending : s.activity = .sendingFinal response) {e : ServerEvent} (he : e ≠ .pollTask) :
    ∀ out ∈ s.outputs e, out.isSent = false ∧ out.isReceived = false := by
  have hdrop : ∀ {outs : List ServerOutput}, (s.step e).trace = s.trace ++ outs →
      s.outputs e = outs := by
    intro outs htrace
    unfold outputs
    rw [htrace, List.drop_left]
  rcases step_sendingFinal hsending e with
    ⟨-, hsame⟩ | ⟨target, rfl⟩ | ⟨-, -, -, outs, htrace, houts⟩
  · rw [hdrop ((hsame he).trans (List.append_nil _).symm)]
    exact fun _ hout => nomatch hout
  · obtain ⟨targetInfo, hsent⟩ := sent_sendingFinal hsending target
    obtain ⟨outs, htrace, houts⟩ :=
      trace_finishFinal (response.after (.ok target)) { s with targetInfo := targetInfo }
    have hstep : (s.step (.sent (.ok target))).trace = s.trace ++ outs :=
      (congrArg trace hsent).trans htrace
    rw [hdrop hstep]
    exact houts
  · rw [hdrop htrace]
    exact houts

/-- The call still waits for the transmission of its final response, or that is behind it. -/
def FinalHanded (response : OutgoingResponse) (s : ServerTransaction) : Prop :=
  s.HandOverOk ∧ s.activity = .sendingFinal response ∨ s.FinalOk

/-- **From the hand-over of the final response on** the call waits for its end, or that has come. -/
theorem FinalHanded.step {response : OutgoingResponse} (h : s.FinalHanded response)
    (e : ServerEvent) : (s.step e).FinalHanded response := by
  rcases h with ⟨hhandOver, hsending⟩ | hfinal
  · rcases step_sendingFinal hsending e with
      ⟨hstill, -⟩ | ⟨target, rfl⟩ | ⟨-, hdropped, -⟩
    · exact .inl ⟨hhandOver.step e, hstill⟩
    · exact .inr (hhandOver.finalOk_sent hsending target)
    · refine .inr ?_
      simp only [FinalOk, hdropped]
  · exact .inr (hfinal.step e)

/-- After the step `e`, which takes an `ACK` out of the channel, retransmission ceases: in the run
    `es` nothing is put out, and the states that are entered are `Confirmed` and, `T4` later,
    `Terminated`. -/
def Ceases (s : ServerTransaction) (e : ServerEvent) (ack : IncomingMessage)
    (es : List ServerEvent) : Prop :=
  let after := (s.step e).run es
  after.trace = s.trace ++ [.received ack] ∧
    (after.stateMachine.history = s.stateMachine.history ++ [.confirmed] ∨
      s.now + T4 ≤ after.now ∧
        after.stateMachine.history = s.stateMachine.history ++ [.confirmed, .terminated]) ∧
    (Meets step (clock.PromptStep Quiet) (s.step e) es → s.now + T4 < after.now →
      after.stateMachine.history = s.stateMachine.history ++ [.confirmed, .terminated])

/-- Behind the final response an `ACK` ends the retransmission. -/
theorem FinalOk.ceases (h : s.FinalOk) (hinvite : s.isInviteTsx = true) {e : ServerEvent}
    {ack : IncomingMessage} (hread : .received ack ∈ s.outputs e) (hack : ack.isAck = true)
    (es : List ServerEvent) : s.Ceases e ack es := by
  obtain ⟨rfl, htrace, hceased⟩ := h.ceased_of_received hinvite hread hack
  obtain ⟨hafter, hsame⟩ := hceased.run es
  -- nothing is put out behind the `ACK`, and the clock does not pass `T4` without the end
  refine ⟨hsame.trans htrace, ?_, fun hprompt hlate => ?_⟩
  · rcases hafter.2 with ⟨-, hhistory⟩ | ⟨-, hdue, hhistory⟩
    · exact .inl hhistory
    · exact .inr ⟨hdue, hhistory⟩
  · have hnow : s.now + T4 < (s.step .poll).now → (s.step .poll).activity = .dropped := by
      intro hlater
      have hpoll : ∀ ms, ServerEvent.poll ≠ .elapse ms := nofun
      rw [now_step s hpoll] at hlater
      exact absurd hlater (Nat.le_add_right _ _).not_gt
    have hdropped : ((s.step .poll).run es).activity = .dropped :=
      clock.after (fun s' e' (hs' : Ceased s.now s.stateMachine.history s') => (hs'.step e').1)
        (fun s' e' hs' hs'' => dropped_step hs'' e')
        (fun s' hs' hquiet hdue => hs'.dropped_of_quiet hquiet hdue) hceased hnow hprompt hlate
    rcases hafter.2 with ⟨hactivity, -⟩ | ⟨-, -, hhistory⟩
    · rw [hdropped] at hactivity
      cases hactivity
    · exact hhistory

/-- The provisional task, which reads while the final response is being transmitted, sends its own
    response after the `ACK`. -/
theorem not_ceases_of_sendingFinal {response : OutgoingResponse}
    (hsending : s.activity = .sendingFinal response) {e : ServerEvent} {ack : IncomingMessage}
    (hread : .received ack ∈ s.outputs e) : ¬ s.Ceases e ack [] := by
  intro hceases
  have houtputs : s.outputs e = [.received ack] := by
    unfold outputs
    rw [show (s.step e).trace = _ from hceases.1, List.drop_left]
  by_cases he : e = .pollTask
  · subst he
    rcases s.outputs_pollTask with ⟨-, hnone⟩ | ⟨-, msg, again, hagain⟩
    · exact nomatch hnone.symm.trans houtputs
    · exact nomatch hagain.symm.trans houtputs
  · exact nomatch (outputs_sendingFinal hsending he _ hread).2

/-- **When retransmission ceases with the `ACK`.** From the hand-over of the final response of an
    `INVITE` transaction on, an `ACK` that is taken out of the channel confirms the transaction and
    ends its transmissions, whatever follows, if and only if the call has heard of the end of its
    transmission by then. -/
theorem run_ceases_iff {request : IncomingRequest} {now : Nat}
    (h : fromRequest request now = some s) (hmethod : request.method = .invite)
    (es₀ : List ServerEvent) {response : OutgoingResponse}
    (hsending : (s.run es₀).activity = .sendingFinal response) (es₁ : List ServerEvent)
    {e : ServerEvent} {ack : IncomingMessage}
    (hread : .received ack ∈ ((s.run es₀).run es₁).outputs e) (hack : ack.isAck = true) :
    (∀ es₂, ((s.run es₀).run es₁).Ceases e ack es₂) ↔
      ((s.run es₀).run es₁).activity ≠ .sendingFinal response := by
  have hstep : ∀ (s' : ServerTransaction) e, s'.FinalHanded response →
      (s'.step e).FinalHanded response := fun _ e hs' => hs'.step e
  have hhanded : ((s.run es₀).run es₁).FinalHanded response :=
    exec_invariant hstep (.inl ⟨run_handOverOk h es₀, hsending⟩) es₁
  constructor
  · intro hceases hstill
    exact not_ceases_of_sendingFinal hstill hread (hceases [])
  · intro hbehind es₂
    have hfinal : ((s.run es₀).run es₁).FinalOk := by
      rcases hhanded with ⟨-, hstill⟩ | hfinal
      · exact absurd hstill hbehind
      · exact hfinal
    have hinvite : ((s.run es₀).run es₁).isInviteTsx = true := by
      have hrun : (s.run es₀).run es₁ = s.run (es₀ ++ es₁) := (exec_append s es₀ es₁).symm
      rw [hrun, (run_isInviteTsx h _).1, hmethod]
      rfl
    exact hfinal.ceases hinvite hread hack es₂

/-- Without a provisional task only the poll of the call or of the final task counts. -/
theorem quiet_of_poll (hhandle : s.provisionalRetransHandle = none)
    (htransmitting : s.activity.transmitting = none) (hpoll : s.poll = s) : s.Quiet where
  transmitting := htransmitting
  sending task htask := by
    rw [hhandle] at htask
    cases htask
  poll := hpoll
  pollTask := pollTask_of_none hhandle

/-- Before its end a transaction that has its `ACK` has nothing to do. -/
theorem promptStep_confirmed (wakeup : Nat) {ms : Nat} (h : s.activity = .confirmed wakeup)
    (hhandle : s.provisionalRetransHandle = none) (hnow : s.now + ms ≤ wakeup) :
    clock.PromptStep Quiet s (.elapse ms) := by
  rintro ms' heq d hd
  obtain rfl := ServerEvent.elapse.inj heq
  have hearly : ¬ wakeup ≤ (s.step (.elapse d)).now :=
    not_le.mpr ((Nat.add_lt_add_left hd s.now).trans_le hnow)
  have hactivity : (s.step (.elapse d)).activity = .confirmed wakeup := h
  refine quiet_of_poll hhandle (congrArg ServerActivity.transmitting hactivity) ?_
  show (s.step (.elapse d)).poll = s.step (.elapse d)
  unfold ServerTransaction.poll
  simp only [hactivity, if_neg hearly]

/-- A transaction that is gone has nothing to do. -/
theorem promptStep_dropped (h : s.activity = .dropped)
    (hhandle : s.provisionalRetransHandle = none) (ms : Nat) :
    clock.PromptStep Quiet s (.elapse ms) := by
  rintro ms' heq d hd
  have hactivity : (s.step (.elapse d)).activity = .dropped := h
  refine quiet_of_poll hhandle (congrArg ServerActivity.transmitting hactivity) ?_
  show (s.step (.elapse d)).poll = s.step (.elapse d)
  unfold ServerTransaction.poll
  simp only [hactivity]

/-- A call that answers an `INVITE` with busy. -/
def busy : ServerTransaction :=
  (new (.newKey3261 .uas .invite "z9hG4bK1") (.fromLocalhost .invite none false) 0).run
    [.sendFinalResponse (.ofCode .busyHere)]

/-- The `ACK` of a busy `INVITE`, read when its response was sent. -/
theorem run_ceases_iff_busy :
    (((busy.run [.sent (.ok ⟨.localhost, .localhost false⟩),
      .deliver (.request (.fromLocalhost .ack none false))]).step .poll).run
      [.deliver (.request (.fromLocalhost .invite none false)), .elapse 5000, .poll,
        .elapse 1]).stateMachine.history =
      [.proceeding, .completed] ++ [.confirmed, .terminated] := by
  have hrequest : fromRequest (.fromLocalhost .invite none false) 0 =
      some (new (.newKey3261 .uas .invite "z9hG4bK1") (.fromLocalhost .invite none false) 0) := rfl
  have hread : .received (.request (.fromLocalhost .ack none false)) ∈
      (busy.run [.sent (.ok ⟨.localhost, .localhost false⟩),
        .deliver (.request (.fromLocalhost .ack none false))]).outputs .poll := by decide
  have hceases := (run_ceases_iff hrequest rfl [.sendFinalResponse (.ofCode .busyHere)] rfl
    [.sent (.ok ⟨.localhost, .localhost false⟩),
      .deliver (.request (.fromLocalhost .ack none false))] hread rfl).mpr (by decide)
  exact (hceases [.deliver (.request (.fromLocalhost .invite none false)), .elapse 5000, .poll,
    .elapse 1]).2.2 ⟨(fun _ heq => nomatch heq), promptStep_confirmed 5000 (by decide) (by decide)
      (by decide), (fun _ heq => nomatch heq), promptStep_dropped (by decide) (by decide) _,
        trivial⟩ (by decide)

/-- An `INVITE` that rings, and whose final response is handed over then. -/
def ringing : ServerTransaction :=
  (new (.newKey3261 .uas .invite "z9hG4bK1") (.fromLocalhost .invite none false) 0).run
    [.sendProvisionalResponse (.ofCode .ringing),
      .sent (.ok ⟨.localhost, .localhost false⟩), .sendFinalResponse (.ofCode .busyHere)]

/-- Its `ACK` comes before the call goes on: the provisional task takes it for a retransmission and
    sends the 180 once more, the 486 is repeated, and the transaction is never confirmed. -/
theorem not_ceases_ringing :
    let before := ringing.run [.deliver (.request (.fromLocalhost .ack none false))]
    let later := (before.step .pollTask).run
      [.retransmitted (.ok ⟨.localhost, .localhost false⟩),
        .sent (.ok ⟨.localhost, .localhost false⟩), .pollTask, .poll, .elapse 500]
    ringing.activity = .sendingFinal (.ofCode .busyHere) ∧
      .received (.request (.fromLocalhost .ack none false)) ∈ before.outputs .pollTask ∧
      ¬ (∀ es, before.Ceases .pollTask (.request (.fromLocalhost .ack none false)) es) ∧
      later.outputs .poll = [.sent ((OutgoingResponse.ofCode .busyHere).after
        (.ok ⟨.localhost, .localhost false⟩))] ∧
      .confirmed ∉ (later.step .poll).stateMachine.history := by
  refine ⟨by decide, by decide, fun hceases => ?_, by decide, by decide⟩
  have htrace := (hceases []).1
  revert htrace
  decide

end ServerTransaction

end Rssip
