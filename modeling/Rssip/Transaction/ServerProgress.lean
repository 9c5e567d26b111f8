import Rssip.Transaction.ServerFinal
import Rssip.Transaction.ServerWire

namespace Rssip

open Lib

/-!
# Transactions that end

As long as polls come when there is something to do, the call of a final response returns at once
and the task that repeats the response ends with its timers.

* `ServerTransaction.work` — how much there is to do without a message or a timer;
* `length_le_of_turns` — polls and transmissions come to an end;
* `ServerTransaction.Due` — how far a transaction is after its final response;
* `run_expires` — when the transaction is over.
-/

/-- How far the holder of a transaction is from rest, the messages apart. -/
def ServerActivity.remaining (now : Nat) : ServerActivity → Nat
  | .idle | .dropped => 0
  | .confirmed _ | .absorbing _ _ false => 1
  | .sendingProvisional _ | .joining _ _ | .absorbing _ _ true | .retransmitting _ _ _ _ true => 2
  | .sendingFinal _ => 3
  | .retransmitting _ _ expires _ false => if expires ≤ now then 3 else 1

/-- How far the provisional task is from rest, the messages apart. -/
def ProvisionalTask.remaining (task : ProvisionalTask) : Nat :=
  task.provisionals.length + (if task.returned then 0 else 1) + if task.sending then 1 else 0

/-- A turn of the runtime or of the transport: a poll, or the end of a transmission. -/
def ServerEvent.IsTurn : ServerEvent → Prop
  | .sent _ | .retransmitted _ | .poll | .pollTask => True
  | _ => False

/-- There are never more than three stages to go. -/
theorem ServerActivity.remaining_le (activity : ServerActivity) (now : Nat) :
    activity.remaining now ≤ 3 := by
  unfold ServerActivity.remaining
  split <;> try omega
  split <;> omega

namespace ServerTransaction

variable {s : ServerTransaction}

/-! ### Turns come to an end -/

/-- How much the provisional task has to do. -/
def taskWork (s : ServerTransaction) : Nat :=
  (s.provisionalRetransHandle.map ProvisionalTask.remaining).getD 0

/-- How much there is to do before a message comes, a timer fires or the user calls. -/
def work (s : ServerTransaction) : Nat :=
  2 * s.channel.queue.length + s.activity.remaining s.now + s.taskWork

/-- An interval that is over is followed by one that is not. -/
def Paced (s : ServerTransaction) : Prop :=
  ∀ response interval expires deadline sending,
    s.activity = .retransmitting response interval expires deadline sending → 0 < interval

/-- A turn of the provisional task that does something has less to do behind it. -/
theorem work_pollTask (hbusy : s.pollTask ≠ s) : s.pollTask.work < s.work := by
  cases hhandle : s.provisionalRetransHandle with
  | none => exact absurd (pollTask_of_none hhandle) hbusy
  | some task =>
    by_cases hout : task.returned || task.sending
    · refine absurd ?_ hbusy
      simp only [pollTask, hhandle, if_pos hout]
    obtain ⟨hreturned, hsending⟩ : task.returned = false ∧ task.sending = false := by
      simpa using hout
    by_cases hready : s.stateRxReady task
    · have hleft : s.pollTask =
          { s with provisionalRetransHandle := some { task with returned := true } } := by
        simp only [pollTask, hhandle, if_neg hout, if_pos hready]
      simp [hleft, work, taskWork, hhandle, ProvisionalTask.remaining, hreturned, hsending]
    cases hprovisionals : task.provisionals with
    | cons response provisionals =>
      have htook : s.pollTask = { s with
          provisionalRetransHandle :=
            some { task with response := response, provisionals := provisionals } } := by
        simp only [pollTask, hhandle, if_neg hout, if_neg hready, hprovisionals]
      simp [htook, work, taskWork, hhandle, ProvisionalTask.remaining, hprovisionals]
    | nil =>
      rcases s.channel.pollRecv_cases with
        ⟨msg, rest, hqueue, hrecv⟩ | ⟨-, -, hrecv⟩ | ⟨-, -, hrecv⟩
      · -- one message less, and a transmission more
        have htook : s.pollTask = ({ s with
            channel := { s.channel with queue := rest }
            provisionalRetransHandle := some { task with sending := true } }.record
              (.received msg)).record (.sent task.response) := by
          simp only [pollTask, hhandle, if_neg hout, if_neg hready, hprovisionals, hrecv]
        simp only [htook, work, taskWork, record, hhandle, ProvisionalTask.remaining, hprovisionals,
          hreturned, hsending, hqueue, List.length_cons, Option.map_some, Option.getD_some, if_true]
        omega
      all_goals
        refine absurd ?_ hbusy
        simp only [pollTask, hhandle, if_neg hout, if_neg hready, hprovisionals, hrecv]
        rw [← hhandle]

/-- The end of a repetition that does something has less to do behind it. -/
theorem work_retransmitted (res : Except Error TargetTransportInfo)
    (hbusy : s.retransmitted res ≠ s) : (s.retransmitted res).work < s.work := by
  cases hhandle : s.provisionalRetransHandle with
  | none => exact absurd (retransmitted_of_none hhandle res) hbusy
  | some task =>
    by_cases hsending : task.sending
    · have hended : s.retransmitted res = { s with
          provisionalRetransHandle :=
            some { task with response := task.response.after res, sending := false } } := by
        simp only [retransmitted, hhandle, if_pos hsending]
      simp [hended, work, taskWork, hhandle, ProvisionalTask.remaining, hsending]
    · refine absurd ?_ hbusy
      simp only [retransmitted, hhandle, if_neg hsending]

/-- The task that takes over waits at first. -/
theorem remaining_spawnFinalTask (response : OutgoingResponse) (deadline : Nat)
    (s : ServerTransaction) :
    (s.spawnFinalTask response deadline).activity.remaining s.now = 1 := by
  have hT1 : ¬ s.now + T1 ≤ s.now := by
    have hpos : 0 < T1 := by decide
    omega
  rw [spawnFinalTask_eq]
  show (if s.isInviteTsx && !s.isReliable then _ else _ : ServerActivity).remaining s.now = 1
  split
  · exact if_neg hT1
  · rfl

/-- To leave a final response to its task touches neither the channel nor the provisional task. -/
theorem spawnFinalTask_frame (response : OutgoingResponse) (deadline : Nat)
    (s : ServerTransaction) :
    (s.spawnFinalTask response deadline).channel = s.channel ∧
      (s.spawnFinalTask response deadline).provisionalRetransHandle =
        s.provisionalRetransHandle ∧
      (s.spawnFinalTask response deadline).now = s.now := by
  rw [spawnFinalTask_eq]
  exact ⟨rfl, rfl, rfl⟩

/-- A poll that does something has less to do behind it. -/
theorem work_poll (hbusy : s.poll ≠ s) : s.poll.work < s.work := by
  cases hactivity : s.activity with
  | idle | sendingProvisional _ | sendingFinal _ | dropped =>
    refine absurd ?_ hbusy
    simp only [poll, hactivity]
  | joining response deadline =>
    by_cases hreturned : s.provisionalRetransHandle.any ProvisionalTask.returned
    · have hjoined : s.poll =
          { s with provisionalRetransHandle := none }.spawnFinalTask response deadline := by
        simp only [poll, hactivity, if_pos hreturned]
      obtain ⟨hchannel, hhandle, hnow⟩ :=
        spawnFinalTask_frame response deadline { s with provisionalRetransHandle := none }
      have hone := remaining_spawnFinalTask response deadline
        { s with provisionalRetransHandle := none }
      have hbefore : s.activity.remaining s.now = 2 := by rw [hactivity]; rfl
      unfold work taskWork
      rw [hjoined, hchannel, hhandle, hnow]
      simp only [Option.map_none, Option.getD_none] at hone ⊢
      omega
    · refine absurd ?_ hbusy
      simp only [poll, hactivity, if_neg hreturned]
  | confirmed wakeup =>
    by_cases hdue : wakeup ≤ s.now
    · have hended : s.poll = s.terminate := by
        simp only [poll, hactivity, if_pos hdue]
      simp [hended, work, taskWork, terminate, setState, become, hactivity,
        ServerActivity.remaining]
    · refine absurd ?_ hbusy
      simp only [poll, hactivity, if_neg hdue]
  | absorbing response deadline sending =>
    cases sending with
    | true =>
      refine absurd ?_ hbusy
      simp only [poll, hactivity]
    | false =>
      have hpoll : s.poll = s.pollAbsorbing response deadline := by
        simp only [poll, hactivity]
      rcases s.channel.pollRecv_cases with
        ⟨msg, rest, hqueue, hrecv⟩ | ⟨hqueue, -, hrecv⟩ | ⟨hqueue, -, hrecv⟩
      · simp only [hpoll, pollAbsorbing, hrecv, work, taskWork, record, become, hactivity, hqueue,
          List.length_cons, ServerActivity.remaining]
        omega
      · simp only [hpoll, pollAbsorbing, hrecv, work, taskWork, terminate, setState, become,
          hactivity, ServerActivity.remaining]
        omega
      · by_cases hdeadline : deadline ≤ s.now
        · simp only [hpoll, pollAbsorbing, hrecv, if_pos hdeadline, work, taskWork, terminate,
            setState, become, hactivity, ServerActivity.remaining]
          omega
        · refine absurd ?_ hbusy
          simp only [hpoll, pollAbsorbing, hrecv, if_neg hdeadline]
  | retransmitting response interval expires deadline sending =>
    cases sending with
    | true =>
      refine absurd ?_ hbusy
      simp only [poll, hactivity]
    | false =>
      have hpoll : s.poll = s.pollRetransmitting response interval expires deadline := by
        simp only [poll, hactivity]
      have hone : 1 ≤ s.activity.remaining s.now := by
        rw [hactivity]
        simp only [ServerActivity.remaining]
        split <;> omega
      rcases s.channel.pollRecv_cases with
        ⟨msg, rest, hqueue, hrecv⟩ | ⟨hqueue, -, hrecv⟩ | ⟨hqueue, -, hrecv⟩
      · -- one message less, and perhaps a transmission more
        cases hack : msg.isAck <;>
          simp only [hpoll, pollRetransmitting, hrecv, hack, if_true, if_false, Bool.false_eq_true,
            work, taskWork, record, setState, become, hqueue, List.length_cons] <;>
          generalize s.activity.remaining s.now = before at hone <;>
          simp only [ServerActivity.remaining] <;> omega
      · simp only [hpoll, pollRetransmitting, hrecv, work, taskWork, become]
        generalize s.activity.remaining s.now = before at hone
        simp only [ServerActivity.remaining]
        omega
      · by_cases hexpires : expires ≤ s.now
        · simp only [hpoll, pollRetransmitting, hrecv, if_pos hexpires, work, taskWork, record,
            become, hactivity, ServerActivity.remaining]
          omega
        by_cases hdeadline : deadline ≤ s.now
        · simp only [hpoll, pollRetransmitting, hrecv, if_neg hexpires, if_pos hdeadline, work,
            taskWork, terminate, setState, become, hactivity, ServerActivity.remaining]
          omega
        · refine absurd ?_ hbusy
          simp only [hpoll, pollRetransmitting, hrecv, if_neg hexpires, if_neg hdeadline]

/-- The end of a call for a provisional response leaves the messages, the task and one stage. -/
theorem work_finishProvisional (response : OutgoingResponse) (s : ServerTransaction) :
    (s.finishProvisional response).work ≤ 2 * s.channel.queue.length + s.taskWork + 1 := by
  unfold work taskWork
  cases hhandle : s.provisionalRetransHandle with
  | none =>
    cases hreceiver : s.hasReceiver <;>
      simp [finishProvisional, hhandle, hreceiver, spawnRetransmitProvisionalTask, ret, record,
        become, setState, ServerActivity.remaining, ProvisionalTask.remaining]
  | some task =>
    cases hreturned : task.returned
    · simp [finishProvisional, hhandle, hreturned, ret, record, become, ServerActivity.remaining,
        ProvisionalTask.remaining]
      omega
    · simp [finishProvisional, hhandle, hreturned, ret, record, become, ServerActivity.remaining,
        ProvisionalTask.remaining]

/-- The end of a call for a final response leaves the messages, the task and two stages. -/
theorem work_finishFinal (response : OutgoingResponse) (s : ServerTransaction) :
    (s.finishFinal response).work ≤ 2 * s.channel.queue.length + s.taskWork + 2 := by
  unfold finishFinal
  split
  · simp [work, taskWork, setState, ret, record, become, ServerActivity.remaining]
  · simp only []
    split
    · simp [work, taskWork, setState, ret, record, become, ServerActivity.remaining]
    · split
      · simp only [work, taskWork, setState, become, ServerActivity.remaining]
        omega
      · next hhandle =>
        split
        · -- the task that takes over has one turn
          obtain ⟨hchannel, hsame, hnow⟩ := spawnFinalTask_frame response
            ((s.setState .completed).now +
              if (s.setState .completed).isInviteTsx then T4 else T1 * 64)
            { s.setState .completed with hasReceiver := false }
          have hone := remaining_spawnFinalTask response
            ((s.setState .completed).now +
              if (s.setState .completed).isInviteTsx then T4 else T1 * 64)
            { s.setState .completed with hasReceiver := false }
          unfold work taskWork
          rw [hchannel, hsame, hnow, hone]
          show 2 * s.channel.queue.length + 1 + _ ≤ _
          simp only [setState]
          omega
        · simp [work, taskWork, setState, record, become, ServerActivity.remaining]

/-- The call of a provisional response goes on after its transmission. -/
theorem sent_sendingProvisional {response : OutgoingResponse}
    (h : s.activity = .sendingProvisional response) (target : TargetTransportInfo) :
    ∃ targetInfo, s.sent (.ok target) =
      { s with targetInfo := targetInfo }.finishProvisional (response.after (.ok target)) := by
  obtain ⟨targetInfo, hkeep⟩ := s.keepTarget_eq (.ok target)
  refine ⟨targetInfo, ?_⟩
  rw [← hkeep]
  unfold ServerTransaction.sent
  rw [h]

/-- The end of a transmission that does something has less to do behind it. -/
theorem work_sent (h : s.Paced) (res : Except Error TargetTransportInfo)
    (hbusy : s.sent res ≠ s) : (s.sent res).work < s.work := by
  obtain ⟨targetInfo, hkeep⟩ := s.keepTarget_eq res
  cases hactivity : s.activity with
  | idle | joining _ _ | confirmed _ | dropped =>
    refine absurd ?_ hbusy
    simp only [sent, hactivity]
  | sendingProvisional response =>
    have hbefore : s.work = 2 * s.channel.queue.length + 2 + s.taskWork := by
      simp only [work, hactivity, ServerActivity.remaining]
    cases res with
    | ok target =>
      obtain ⟨targetInfo, hsent⟩ := sent_sendingProvisional hactivity target
      have hnext := work_finishProvisional (response.after (.ok target))
        { s with targetInfo := targetInfo }
      rw [hsent, hbefore]
      simp only [taskWork] at hnext ⊢
      omega
    | error e =>
      simp only [sent, hactivity, work, ret, record, become, ServerActivity.remaining, taskWork]
      omega
  | sendingFinal response =>
    have hbefore : s.work = 2 * s.channel.queue.length + 3 + s.taskWork := by
      simp only [work, hactivity, ServerActivity.remaining]
    cases res with
    | ok target =>
      obtain ⟨targetInfo, hsent⟩ := sent_sendingFinal hactivity target
      have hnext := work_finishFinal (response.after (.ok target))
        { s with targetInfo := targetInfo }
      rw [hsent, hbefore]
      simp only [taskWork] at hnext ⊢
      omega
    | error e =>
      simp only [sent, hactivity, work, ret, record, become, ServerActivity.remaining, taskWork]
      omega
  | retransmitting response interval expires deadline sending =>
    cases sending with
    | false =>
      refine absurd ?_ hbusy
      simp only [sent, hactivity]
    | true =>
      have hpos := h _ _ _ _ _ hactivity
      have hlater : ¬ s.now + interval ≤ s.now := by omega
      simp only [sent, hactivity, hkeep, work, become, ServerActivity.remaining, if_neg hlater,
        taskWork]
      omega
  | absorbing response deadline sending =>
    cases sending with
    | false =>
      refine absurd ?_ hbusy
      simp only [sent, hactivity]
    | true =>
      simp only [sent, hactivity, hkeep, work, become, ServerActivity.remaining, taskWork]
      omega

/-- Every turn that does something has less to do behind it: the measure of the induction. -/
theorem work_turn (h : s.Paced) {e : ServerEvent} (hturn : e.IsTurn) (hbusy : s.step e ≠ s) :
    (s.step e).work < s.work := by
  cases e with
  | sent res => exact work_sent h res hbusy
  | retransmitted res => exact work_retransmitted res hbusy
  | poll => exact work_poll hbusy
  | pollTask => exact work_pollTask hbusy
  | _ => exact hturn.elim

/-- Only the interval of the final task has to be in order. -/
theorem Paced.of_same (h : s.Paced) {s' : ServerTransaction}
    (hactivity : s'.activity = s.activity) : s'.Paced := by
  unfold Paced
  rw [hactivity]
  exact h

/-- The final task starts with an interval that is not empty. -/
theorem paced_spawnFinalTask (response : OutgoingResponse) (deadline : Nat)
    (s : ServerTransaction) : (s.spawnFinalTask response deadline).Paced := by
  rw [spawnFinalTask_eq]
  intro response' interval expires deadline' sending hactivity
  have hactivity : (if s.isInviteTsx && !s.isReliable then
      .retransmitting response T1 (s.now + T1) deadline false
    else .absorbing response deadline false) =
      ServerActivity.retransmitting response' interval expires deadline' sending := hactivity
  split at hactivity
  · cases hactivity
    decide
  · cases hactivity

/-- The end of a call for a final response leaves an interval that is not empty, if any. -/
theorem paced_finishFinal (response : OutgoingResponse) (s : ServerTransaction) :
    (s.finishFinal response).Paced := by
  unfold finishFinal
  split
  · exact fun _ _ _ _ _ hactivity => by cases hactivity
  · simp only []
    split
    · exact fun _ _ _ _ _ hactivity => by cases hactivity
    · split
      · exact fun _ _ _ _ _ hactivity => by cases hactivity
      · split
        · exact paced_spawnFinalTask _ _ _
        · exact fun _ _ _ _ _ hactivity => by cases hactivity

/-- When a call for a provisional response has ended, the user has the transaction, or nobody. -/
theorem activity_finishProvisional (response : OutgoingResponse) (s : ServerTransaction) :
    (s.finishProvisional response).activity = .idle ∨
      (s.finishProvisional response).activity = .dropped := by
  unfold finishProvisional
  split
  · split <;> exact .inl rfl
  · split
    · exact .inl rfl
    · exact .inr rfl

/-- Without a task there is no interval to be wrong. -/
theorem paced_of_idle (h : s.activity = .idle ∨ s.activity = .dropped) : s.Paced := by
  intro _ _ _ _ _ hactivity
  rcases h with h | h <;> rw [h] at hactivity <;> cases hactivity

/-- The end of a transmission keeps the intervals in order. -/
theorem Paced.sent (h : s.Paced) (res : Except Error TargetTransportInfo) : (s.sent res).Paced := by
  obtain ⟨targetInfo, hkeep⟩ := s.keepTarget_eq res
  unfold ServerTransaction.sent
  split
  · exact paced_of_idle (activity_finishProvisional _ _)
  · exact paced_of_idle (.inl rfl)
  · exact paced_finishFinal _ _
  · exact paced_of_idle (.inr rfl)
  · next hactivity =>
    intro _ _ _ _ _ hnext
    cases hnext
    exact h _ _ _ _ _ hactivity
  · exact fun _ _ _ _ _ hactivity => by cases hactivity
  · exact h

/-- A poll keeps the intervals in order: it doubles them. -/
theorem Paced.poll (h : s.Paced) : s.poll.Paced := by
  unfold ServerTransaction.poll
  split
  · split
    · exact paced_spawnFinalTask _ _ _
    · exact h
  · next hactivity =>
    have hpos := h _ _ _ _ _ hactivity
    unfold pollRetransmitting
    simp only []
    split
    · split
      · exact fun _ _ _ _ _ hactivity => by cases hactivity
      · intro _ _ _ _ _ hnext
        cases hnext
        exact hpos
    · exact paced_of_idle (.inr rfl)
    · split
      · -- the interval grows, up to `T2`
        intro _ _ _ _ _ hnext
        cases hnext
        have hT2 : 0 < T2 := by decide
        omega
      · split
        · exact paced_of_idle (.inr rfl)
        · exact h.of_same rfl
  · split
    · exact paced_of_idle (.inr rfl)
    · exact h
  · unfold pollAbsorbing
    simp only []
    split
    · exact fun _ _ _ _ _ hactivity => by cases hactivity
    · exact paced_of_idle (.inr rfl)
    · split
      · exact paced_of_idle (.inr rfl)
      · exact h.of_same rfl
  all_goals exact h

/-- Every step keeps the intervals in order. -/
theorem Paced.step (h : s.Paced) (e : ServerEvent) : (s.step e).Paced := by
  cases e with
  | sent res => exact h.sent res
  | poll => exact h.poll
  | pollTask => exact h.of_same (pollTask_frame s).2.2.1
  | retransmitted res => exact h.of_same (retransmitted_frame res s).2.2.1
  | close | elapse _ => exact h.of_same rfl
  | deliver _ | subscribeState | recvState _ =>
    simp only [ServerTransaction.step]
    split <;> exact h.of_same rfl
  | drop =>
    simp only [ServerTransaction.step]
    split
    · exact paced_of_idle (.inr rfl)
    · exact h
  | cancel =>
    simp only [ServerTransaction.step, ServerTransaction.cancel]
    split
    · exact paced_of_idle (.inl rfl)
    · exact paced_of_idle (.inr rfl)
    · exact paced_of_idle (.inr rfl)
    all_goals exact h
  | sendProvisionalResponse response =>
    simp only [ServerTransaction.step, ServerTransaction.sendProvisionalResponse]
    split
    · split
      · exact fun _ _ _ _ _ hactivity => by cases hactivity
      · exact h.of_same rfl
    · exact h
  | sendFinalResponse response =>
    simp only [ServerTransaction.step, ServerTransaction.sendFinalResponse]
    split
    · split
      · exact fun _ _ _ _ _ hactivity => by cases hactivity
      · exact paced_of_idle (.inr rfl)
    · exact h

/-- How many turns there can be. -/
theorem work_le (s : ServerTransaction) : s.work ≤ 2 * s.channel.queue.length +
    (s.provisionalRetransHandle.map fun task => task.provisionals.length).getD 0 + 5 := by
  have hactivity := s.activity.remaining_le s.now
  unfold work taskWork
  cases s.provisionalRetransHandle with
  | none =>
    simp only [Option.map_none, Option.getD_none]
    omega
  | some task =>
    simp only [Option.map_some, Option.getD_some, ProvisionalTask.remaining]
    split <;> split <;> omega

/-- The event is a turn that changes something. -/
def Turns (s : ServerTransaction) (e : ServerEvent) : Prop := e.IsTurn ∧ s.step e ≠ s

/-- **Turns come to an end.** -/
theorem length_le_of_turns (h : s.Paced) {es : List ServerEvent} (hes : Meets step Turns s es) :
    es.length ≤ 2 * s.channel.queue.length +
      (s.provisionalRetransHandle.map fun task => task.provisionals.length).getD 0 + 5 := by
  have hinv : ∀ s e, Paced s → Turns s e → Paced (ServerTransaction.step s e) :=
    fun s e hs _ => hs.step e
  have hless : ∀ s e, Paced s → Turns s e → work (ServerTransaction.step s e) < work s :=
    fun s e hs hturn => work_turn hs hturn.1 hturn.2
  exact (length_le_of_meets hinv hless h hes).trans (work_le s)

/-! ### Deadlines -/

/-- A transaction behind its final response waits for a timer that is still to come. -/
def Early (s : ServerTransaction) : Prop :=
  match s.activity with
  | .joining _ _ => False
  | .retransmitting _ _ _ deadline _ | .absorbing _ deadline _ => s.now < deadline
  | .confirmed wakeup => s.now < wakeup
  | .idle | .sendingProvisional _ | .sendingFinal _ | .dropped => True

/-- **With nothing to do, a transaction behind its final response waits for a timer.** -/
theorem FinalOk.early (h : s.FinalOk) (hquiet : s.Quiet) : s.Early := by
  have htransmitting := hquiet.transmitting
  have hpoll := hquiet.poll
  unfold Early
  cases hactivity : s.activity with
  | idle | sendingProvisional _ | sendingFinal _ | dropped => trivial
  | joining response deadline =>
    -- the provisional task has been told to leave, and the call looks for it
    have hfinal := h
    unfold FinalOk at hfinal
    simp only [hactivity] at hfinal
    obtain ⟨-, task, hhandle, -⟩ := hfinal
    have htask := hquiet.pollTask
    rw [h.pollTask_of_handle hhandle, hquiet.sending task hhandle, Bool.or_false] at htask
    cases hreturned : task.returned with
    | true =>
      simp only [ServerTransaction.poll, hactivity, hhandle, Option.any_some, hreturned,
        if_true] at hpoll
      have hgone := congrArg provisionalRetransHandle hpoll
      rw [(spawnFinalTask_frame response deadline _).2.1, hhandle] at hgone
      cases hgone
    | false =>
      rw [hreturned, if_neg Bool.false_ne_true] at htask
      have hsame := congrArg provisionalRetransHandle htask
      rw [hhandle] at hsame
      have hnot := congrArg ProvisionalTask.returned (Option.some.inj hsame)
      rw [hreturned] at hnot
      cases hnot
  | retransmitting response interval expires deadline sending =>
    rw [hactivity] at htransmitting
    cases sending with
    | true => cases htransmitting
    | false =>
      by_contra hlate
      -- whatever it finds, the loop goes on to something else
      have hnext := congrArg activity hpoll
      rw [hactivity] at hnext
      simp only [ServerTransaction.poll, hactivity, pollRetransmitting] at hnext
      split at hnext
      · split at hnext <;> cases hnext
      · cases hnext
      · rw [if_pos (Nat.le_of_not_lt hlate)] at hnext
        split at hnext
        · simp [record, become] at hnext
        · cases hnext
  | absorbing response deadline sending =>
    rw [hactivity] at htransmitting
    cases sending with
    | true => cases htransmitting
    | false =>
      by_contra hlate
      have hnext := congrArg activity hpoll
      rw [hactivity] at hnext
      simp only [ServerTransaction.poll, hactivity, pollAbsorbing] at hnext
      split at hnext
      · cases hnext
      · cases hnext
      · rw [if_pos (Nat.le_of_not_lt hlate)] at hnext
        cases hnext
  | confirmed wakeup =>
    by_contra hdue
    simp only [ServerTransaction.poll, hactivity, if_pos (Nat.le_of_not_lt hdue)] at hpoll
    have hended := congrArg activity hpoll
    rw [hactivity] at hended
    cases hended

/-- How far a transaction is whose final response was sent at `start`, with timers up to `limit`. -/
def Due (start limit : Nat) (s : ServerTransaction) : Prop :=
  match s.activity with
  | .idle | .sendingProvisional _ | .sendingFinal _ => False
  | .joining _ deadline => deadline = limit ∧ s.now = start
  | .retransmitting _ _ _ deadline _ | .absorbing _ deadline _ => deadline = limit ∧ s.now ≤ limit
  | .confirmed wakeup => s.isInviteTsx = true ∧ wakeup ≤ limit + T4 ∧ s.now ≤ wakeup
  | .dropped => True

section

variable {start limit : Nat}

/-- A step that is not one of the clock keeps the method. -/
theorem isInviteTsx_step (s : ServerTransaction) {e : ServerEvent}
    (helapse : ∀ ms, e ≠ .elapse ms) :
    (ServerTransaction.step s e).isInviteTsx = s.isInviteTsx := by
  by_cases hsent : ∃ res, e = .sent res
  · obtain ⟨res, rfl⟩ := hsent
    obtain ⟨targetInfo, hkeep⟩ := s.keepTarget_eq res
    rcases frame_sent res s with hframe | hframe
    · exact isInviteTsx_eq hframe.request
    · rw [hkeep] at hframe
      exact isInviteTsx_eq hframe.request
  · exact isInviteTsx_eq (frame_step s helapse fun res heq => hsent ⟨res, heq⟩).request

/-- Time passes no timer. -/
theorem Due.elapse (h : s.Due start limit) (hfinal : s.FinalOk) {ms : Nat}
    (hprompt : clock.PromptStep Quiet s (.elapse ms)) :
    (ServerTransaction.step s (.elapse ms)).Due start limit := by
  cases ms with
  | zero => exact h
  | succ d =>
    have hquiet : (ServerTransaction.step s (.elapse d)).Quiet :=
      hprompt (d + 1) rfl d (Nat.lt_succ_self d)
    have hearly := (hfinal.step (.elapse d)).early hquiet
    unfold Due at h ⊢
    unfold Early at hearly
    simp only [ServerTransaction.step] at hearly ⊢
    cases hactivity : s.activity with
    | idle | sendingProvisional _ | sendingFinal _ =>
      simp only [hactivity] at h
    | dropped => trivial
    | joining response deadline => simp only [hactivity] at hearly
    | retransmitting _ _ _ deadline _ | absorbing _ deadline _ =>
      simp only [hactivity] at h hearly ⊢
      obtain ⟨rfl, -⟩ := h
      exact ⟨rfl, hearly⟩
    | confirmed wakeup =>
      simp only [hactivity] at h hearly ⊢
      exact ⟨h.1, h.2.1, hearly⟩

/-- A poll keeps the transaction within its timers. -/
theorem Due.poll (h : s.Due start limit) (hle : start ≤ limit) (hfinal : s.FinalOk) :
    s.poll.Due start limit := by
  obtain ⟨outs, states, -, -, hpolled⟩ := hfinal.polled
  have hframe := frame_poll s
  have hinvite : s.poll.isInviteTsx = s.isInviteTsx := isInviteTsx_eq hframe.request
  have hnow : s.poll.now = s.now := hframe.now
  unfold Due at h ⊢
  rw [hinvite, hnow]
  unfold FinalOk at hfinal
  generalize s.poll.activity = activity at hpolled
  cases hpolled with
  | still _ _ | waits _ _ _ _ _ | absorbs _ _ _ _ => exact h
  | joined hactivity =>
    simp only [hactivity] at h
    obtain ⟨rfl, hstart⟩ := h
    by_cases hmethod : s.isInviteTsx = true
    · simp only [if_pos hmethod]
      exact ⟨trivial, hstart.trans_le hle⟩
    · simp only [if_neg hmethod]
      exact ⟨trivial, hstart.trans_le hle⟩
  | answered hactivity _ _ | repeated hactivity _ _ _ | copied hactivity _ =>
    simp only [hactivity] at h
    exact h
  | acked hactivity _ _ =>
    simp only [hactivity] at h hfinal
    exact ⟨hfinal.1, Nat.add_le_add_right h.2 T4, Nat.le_add_right _ _⟩
  | gaveUp _ _ _ _ _ | closed _ _ _ | confirmedOver _ _ | absorbed _ _ _ => trivial

/-- A step of a prompt run keeps the transaction within its timers. -/
theorem Due.step (h : s.Due start limit) (hle : start ≤ limit) (hfinal : s.FinalOk)
    {e : ServerEvent} (hprompt : clock.PromptStep Quiet s e) :
    (ServerTransaction.step s e).Due start limit := by
  by_cases hpoll : e = .poll
  · subst hpoll
    exact h.poll hle hfinal
  by_cases helapse : ∃ ms, e = .elapse ms
  · obtain ⟨ms, rfl⟩ := helapse
    exact h.elapse hfinal hprompt
  · have hnow := now_step s fun ms heq => helapse ⟨ms, heq⟩
    have hinvite := isInviteTsx_step s fun ms heq => helapse ⟨ms, heq⟩
    have hother := (hfinal.other hpoll).holder
    unfold Due at h ⊢
    rw [hnow, hinvite]
    generalize (ServerTransaction.step s e).activity = activity at hother
    cases hother with
    | same => exact h
    | sent hactivity _ | absorbingSent hactivity _ =>
      simp only [hactivity] at h
      exact h
    | cancelled _ _ => trivial

end

/-- The final task starts within its timers. -/
theorem due_spawnFinalTask (response : OutgoingResponse) {start limit deadline : Nat}
    (hdeadline : deadline = limit) (hnow : s.now ≤ limit) :
    (s.spawnFinalTask response deadline).Due start limit := by
  rw [spawnFinalTask_eq]
  unfold Due
  simp only [become]
  cases s.isInviteTsx && !s.isReliable
  · exact ⟨hdeadline, hnow⟩
  · exact ⟨hdeadline, hnow⟩

/-- The end of a call for a final response sets the timers of the method: `T4` for an `INVITE`, or
    64 times `T1`. -/
theorem due_finishFinal (response : OutgoingResponse) {limit : Nat}
    (hlimit : limit = s.now + if s.isInviteTsx then T4 else T1 * 64) :
    (s.finishFinal response).Due s.now limit := by
  have hle : s.now ≤ limit := hlimit ▸ Nat.le_add_right _ _
  unfold finishFinal
  split
  · trivial
  · simp only []
    split
    · trivial
    · split
      · exact ⟨hlimit.symm, rfl⟩
      · split
        · exact due_spawnFinalTask response hlimit.symm hle
        · trivial

/-- The final response was sent, or could not be. -/
theorem HandOverOk.due_sent (h : s.HandOverOk) {response : OutgoingResponse}
    (hactivity : s.activity = .sendingFinal response) (res : Except Error TargetTransportInfo)
    {limit : Nat} (hlimit : limit = s.now + if s.isInviteTsx then T4 else T1 * 64) :
    (s.sent res).FinalOk ∧ (s.sent res).Due s.now limit := by
  cases res with
  | ok target =>
    refine ⟨h.finalOk_sent hactivity target, ?_⟩
    obtain ⟨targetInfo, hsent⟩ := sent_sendingFinal hactivity target
    rw [hsent]
    exact due_finishFinal (s := { s with targetInfo := targetInfo }) _ hlimit
  | error e =>
    have hdropped : (s.sent (.error e)).activity = .dropped := by
      simp only [ServerTransaction.sent, hactivity, become]
    simp only [FinalOk, Due, hdropped, and_self]

/-! ### Runs -/

/-- A transaction behind its final response, along a prompt run. -/
theorem due_run {start limit : Nat} (hle : start ≤ limit) (hfinal : s.FinalOk)
    (hdue : s.Due start limit) {es : List ServerEvent}
    (hes : Meets step (clock.PromptStep Quiet) s es) : (s.run es).Due start limit := by
  have hstep : ∀ s e, FinalOk s ∧ Due start limit s → clock.PromptStep Quiet s e →
      FinalOk (step s e) ∧ Due start limit (step s e) :=
    fun s e hs hprompt => ⟨hs.1.step e, hs.2.step hle hs.1 hprompt⟩
  exact always_of_meets hstep (fun _ hs => hs.2) ⟨hfinal, hdue⟩ hes es (List.prefix_refl es)

/-- While somebody has the transaction, its timers are not over. -/
theorem Due.now_le {start limit : Nat} (h : s.Due start limit) (hle : start ≤ limit)
    (hheld : s.activity ≠ .dropped) :
    s.now ≤ if s.isInviteTsx then limit + T4 else limit := by
  unfold Due at h
  cases hactivity : s.activity with
  | dropped => exact absurd hactivity hheld
  | idle | sendingProvisional _ | sendingFinal _ => simp only [hactivity] at h
  | joining _ _ | retransmitting _ _ _ _ _ | absorbing _ _ _ =>
    simp only [hactivity] at h
    split <;> omega
  | confirmed wakeup =>
    simp only [hactivity] at h
    rw [if_pos h.1]
    omega

/-- The call returns before the clock goes on. -/
theorem Due.now_joining {start limit : Nat} (h : s.Due start limit) {response : OutgoingResponse}
    {deadline : Nat} (hactivity : s.activity = .joining response deadline) : s.now = start := by
  unfold Due at h
  simp only [hactivity] at h
  exact h.2

/-- **A server transaction comes to its end.** After any run there are finitely many polls and
    transmissions to do.  Once the final response has been handed to the transport the call returns
    before the clock goes on, and the transaction is over after `T4` for its timer and `T4` for the
    `ACK`, or after `64 * T1` if it is not an `INVITE`. -/
theorem run_expires {request : IncomingRequest} {now : Nat}
    (h : fromRequest request now = some s) (es : List ServerEvent) :
    (∀ es', Meets step Turns (s.run es) es' →
      es'.length ≤ 2 * (s.run es).channel.queue.length +
        ((s.run es).provisionalRetransHandle.map fun task => task.provisionals.length).getD 0 +
        5) ∧
      ∀ response, (s.run es).activity = .sendingFinal response → ∀ res es',
        Meets step (clock.PromptStep Quiet) ((s.run es).step (.sent res)) es' →
          ((s.run es).now < (((s.run es).step (.sent res)).run es').now →
            ∀ response' deadline, (((s.run es).step (.sent res)).run es').activity ≠
              .joining response' deadline) ∧
          ((s.run es).now + (if request.method = .invite then T4 + T4 else T1 * 64) <
              (((s.run es).step (.sent res)).run es').now →
            (((s.run es).step (.sent res)).run es').activity = .dropped) := by
  have hpaced : (s.run es).Paced := by
    have hstep : ∀ s e, Paced s → Paced (step s e) := fun s e hs => hs.step e
    have hnew : s.Paced := by
      unfold fromRequest at h
      split at h
      · cases h
      · obtain ⟨key, -, rfl⟩ := Option.map_eq_some_iff.mp h
        exact paced_of_idle (.inl rfl)
    exact exec_invariant hstep hnew es
  refine ⟨fun es' hes' => length_le_of_turns hpaced hes', fun response hactivity res es' hes' => ?_⟩
  have hmethod : (s.run es).isInviteTsx = decide (request.method = .invite) :=
    (run_isInviteTsx h es).1
  obtain ⟨hfinal, hdue⟩ := (run_handOverOk h es).due_sent hactivity res rfl
  have hle := Nat.le_add_right (s.run es).now (if (s.run es).isInviteTsx then T4 else T1 * 64)
  have hafter : (((s.run es).step (.sent res)).run es').Due (s.run es).now _ :=
    due_run hle hfinal hdue hes'
  have hinvite : (((s.run es).step (.sent res)).run es').isInviteTsx = (s.run es).isInviteTsx := by
    have hrun : ((s.run es).step (.sent res)).run es' = s.run (es ++ .sent res :: es') := by
      rw [ServerTransaction.run, ServerTransaction.run, ServerTransaction.run, exec_append]
      rfl
    rw [hrun, (run_isInviteTsx h _).1, hmethod]
  refine ⟨fun hlater response' deadline hjoining => ?_, fun hlate => ?_⟩
  · exact absurd (hafter.now_joining hjoining) hlater.ne'
  · by_contra hheld
    have hnow := hafter.now_le hle hheld
    rw [hinvite, hmethod] at hnow
    by_cases hcase : request.method = .invite
    · simp only [hcase, decide_true, if_true] at hnow hlate
      omega
    · simp only [hcase, decide_false, Bool.false_eq_true, if_false] at hnow hlate
      omega

/-- Up to its deadline a transaction that absorbs retransmissions has nothing to do without one. -/
theorem promptStep_absorbing {response : OutgoingResponse} {deadline ms : Nat}
    (h : s.activity = .absorbing response deadline false)
    (hhandle : s.provisionalRetransHandle = none) (hqueue : s.channel.queue = [])
    (hopen : s.channel.closed = false) (hnow : s.now + ms ≤ deadline) :
    clock.PromptStep Quiet s (.elapse ms) := by
  rintro ms' heq d hd
  obtain rfl := ServerEvent.elapse.inj heq
  have hearly : ¬ deadline ≤ (s.step (.elapse d)).now :=
    not_le.mpr ((Nat.add_lt_add_left hd s.now).trans_le hnow)
  have hactivity : (s.step (.elapse d)).activity = .absorbing response deadline false := h
  have hrecv :
      (s.step (.elapse d)).channel.pollRecv = (.pending, (s.step (.elapse d)).channel) := by
    rcases (s.step (.elapse d)).channel.pollRecv_cases with
      ⟨msg, rest, hmsgs, -⟩ | ⟨-, hclosed, -⟩ | ⟨-, -, hpending⟩
    · exact absurd (hqueue.symm.trans hmsgs) (List.cons_ne_nil _ _).symm
    · exact absurd (hopen.symm.trans hclosed) Bool.false_ne_true
    · exact hpending
  refine quiet_of_poll hhandle (congrArg ServerActivity.transmitting hactivity) ?_
  show (s.step (.elapse d)).poll = s.step (.elapse d)
  simp only [ServerTransaction.poll, hactivity, pollAbsorbing, hrecv, if_neg hearly]
  rw [← hactivity]

/-- An `OPTIONS` that was answered. -/
theorem run_expires_options :
    ((((new (.newKey3261 .uas .options "z9hG4bK1") (.fromLocalhost .options none false) 0).run
      [.sendFinalResponse (.ofCode .ok)]).step (.sent (.ok ⟨.localhost, .localhost false⟩))).run
        [.elapse 32000, .poll, .elapse 1]).activity = .dropped := by
  have hrequest : fromRequest (.fromLocalhost .options none false) 0 =
      some (new (.newKey3261 .uas .options "z9hG4bK1") (.fromLocalhost .options none false) 0) :=
    rfl
  have hpoll : ∀ s : ServerTransaction, clock.PromptStep Quiet s .poll := fun s ms heq => by
    cases heq
  have hprompt : Meets step (clock.PromptStep Quiet)
      (((new (.newKey3261 .uas .options "z9hG4bK1") (.fromLocalhost .options none false) 0).run
        [.sendFinalResponse (.ofCode .ok)]).step (.sent (.ok ⟨.localhost, .localhost false⟩)))
      [.elapse 32000, .poll, .elapse 1] :=
    ⟨promptStep_absorbing rfl rfl rfl rfl (by decide), hpoll _, promptStep_dropped rfl rfl 1,
      trivial⟩
  exact ((run_expires hrequest [.sendFinalResponse (.ofCode .ok)]).2 _ rfl _ _ hprompt).2
    (by decide)

end ServerTransaction

end Rssip
