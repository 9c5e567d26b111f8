import Rssip.Transaction.Server

namespace Rssip

open Lib

/-!
# The states of a server transaction

In every run the states go forward along the edges of the server machine, with at most one
repetition of `Proceeding`.

* `ServerEdge` — the edges;
* `ServerTransaction.StatesOk` — the invariant: the history up to the final response is one of
  three, and what follows depends on who holds the transaction;
* `ServerTransaction.Cause` — what makes a step change the state;
* `ServerTransaction.run_serverHistory` — the statement about runs.
-/

/-- The edges of the server state machine. -/
def ServerEdge (isInvite : Bool) : State → State → Prop
  | .trying, t => isInvite = false ∧ (t = .proceeding ∨ t = .completed)
  | .proceeding, t => t = .completed ∨ isInvite = true ∧ t = .terminated
  | .completed, t => isInvite = true ∧ t = .confirmed ∨ t = .terminated
  | .confirmed, t => t = .terminated
  | .calling, _ | .terminated, _ => False

instance (isInvite : Bool) : DecidableRel (ServerEdge isInvite) := fun s t => by
  cases s <;> unfold ServerEdge <;> infer_instance

/-- The state before the first response. -/
def serverStart (isInvite : Bool) : State := if isInvite then .proceeding else .trying

/-- The states before the final response. -/
def statesBefore (isInvite provisional : Bool) : List State :=
  serverStart isInvite :: if provisional then [.proceeding] else []

/-- A transaction that can still send provisional responses. -/
def ServerActivity.IsOpen : ServerActivity → Prop
  | .idle | .sendingProvisional _ => True
  | _ => False

/-- The states after the final response, by who holds the transaction. -/
def ServerActivity.Admits (isInvite : Bool) : ServerActivity → List State → Prop
  | .idle, after | .sendingProvisional _, after | .sendingFinal _, after => after = []
  | .joining _ _, after | .absorbing _ _ _, after => after = [.completed]
  | .retransmitting _ _ _ _ _, after => isInvite = true ∧ after = [.completed]
  | .confirmed _, after => isInvite = true ∧ after = [.completed, .confirmed]
  | .dropped, after =>
    after = [] ∨ after = [.completed] ∨ after = [.completed, .terminated] ∨
      isInvite = true ∧ (after = [.terminated] ∨ after = [.completed, .confirmed, .terminated])

/-- What holds of the state machine of a server transaction. -/
structure ServerStates (isInvite provisional : Bool) (after : List State) (m : StateMachine) :
    Prop where
  machine : m.Ok
  history : m.history = statesBefore isInvite provisional ++ after

namespace ServerStates

variable {isInvite provisional : Bool} {after : List State} {m : StateMachine}

/-- There are at most two states before the final response. -/
theorem length_statesBefore_le (isInvite provisional : Bool) :
    (statesBefore isInvite provisional).length ≤ 2 := by
  cases provisional <;> simp [statesBefore]

/-- A change after the final response. -/
theorem setState (h : ServerStates isInvite provisional after m) (hafter : after.length ≤ 2)
    (s : State) : ServerStates isInvite provisional (after ++ [s]) (m.setState s) where
  machine := by
    refine h.machine.setState ?_ s
    have hbefore := length_statesBefore_le isInvite provisional
    rw [h.history, List.length_append, broadcastCapacity]
    omega
  history := by
    rw [StateMachine.history_setState, h.history, List.append_assoc]

/-- The first provisional response. -/
theorem setProceeding (h : ServerStates isInvite false [] m) :
    ServerStates isInvite true [] (m.setState .proceeding) where
  machine := h.machine.setState (by rw [h.history]; cases isInvite <;> decide) .proceeding
  history := by
    rw [StateMachine.history_setState, h.history]
    rfl

/-- Another receiver for the states does not change them. -/
theorem subscribeState (h : ServerStates isInvite provisional after m) :
    ServerStates isInvite provisional after m.subscribeState :=
  { h with machine := h.machine.subscribeState }

/-- To read a state from a receiver does not change it. -/
theorem recv (h : ServerStates isInvite provisional after m) (i : Nat) :
    ServerStates isInvite provisional after (m.recv i) :=
  { h with machine := h.machine.recv i }

end ServerStates

/-- What the states of a server transaction look like: they go along the edges, apart from one
    repetition of `Proceeding` in the transaction of an `INVITE`. -/
structure ServerHistory (isInvite : Bool) (history : List State) : Prop where
  first : history.head? = some (serverStart isInvite)
  edges : ∃ states, states.IsChain (ServerEdge isInvite) ∧
    (history = states ∨
      isInvite = true ∧ states.head? = some .proceeding ∧ history = .proceeding :: states)
  ascending : history.Pairwise (· ≤ ·)
  confirmed : isInvite = false → .confirmed ∉ history
  trying : isInvite = true → .trying ∉ history
  terminated : .terminated ∉ history.dropLast

/-- The states after the final response, whoever holds the transaction. -/
theorem ServerActivity.Admits.cases {isInvite : Bool} {activity : ServerActivity}
    {after : List State} (h : activity.Admits isInvite after) :
    after ∈ [[], [.completed], [.completed, .terminated]] ∨ isInvite = true ∧
      after ∈ [[.terminated], [.completed, .confirmed], [.completed, .confirmed, .terminated]] := by
  cases activity with
  | idle | sendingProvisional _ | sendingFinal _ | joining _ _ | absorbing _ _ _ =>
    rw [show after = _ from h]
    exact .inl (by decide)
  | retransmitting _ _ _ _ _ =>
    rw [h.2]
    exact .inl (by decide)
  | confirmed _ =>
    rw [h.2]
    exact .inr ⟨h.1, by decide⟩
  | dropped =>
    rcases h with rfl | rfl | rfl | ⟨hinvite, rfl | rfl⟩
    · exact .inl (by decide)
    · exact .inl (by decide)
    · exact .inl (by decide)
    · exact .inr ⟨hinvite, by decide⟩
    · exact .inr ⟨hinvite, by decide⟩

/-- The states before the final response and those behind it, together, go along the edges. -/
theorem ServerStates.serverHistory {isInvite provisional : Bool} {after : List State}
    {m : StateMachine} (h : ServerStates isInvite provisional after m)
    {activity : ServerActivity} (hafter : activity.Admits isInvite after) :
    ServerHistory isInvite m.history := by
  rw [h.history]
  have hcases := hafter.cases
  simp only [List.mem_cons, List.not_mem_nil, or_false] at hcases
  -- what is left is a fixed list in every case
  cases isInvite with
  | false =>
    rcases hcases with (rfl | rfl | rfl) | ⟨hinvite, -⟩
    all_goals first
      | cases hinvite
      | cases provisional <;>
        exact ⟨rfl, ⟨_, by decide, .inl rfl⟩, by decide, by decide, by decide, by decide⟩
  | true =>
    cases provisional with
    | false =>
      rcases hcases with (rfl | rfl | rfl) | ⟨-, rfl | rfl | rfl⟩
      all_goals
        exact ⟨rfl, ⟨_, by decide, .inl rfl⟩, by decide, by decide, by decide, by decide⟩
    | true =>
      rcases hcases with (rfl | rfl | rfl) | ⟨-, rfl | rfl | rfl⟩
      all_goals
        exact ⟨rfl, ⟨_, by decide, .inr ⟨rfl, rfl, rfl⟩⟩, by decide, by decide, by decide,
          by decide⟩

namespace ServerTransaction

/-- The invariant of a server transaction's state machine. -/
def StatesOk (s : ServerTransaction) : Prop :=
  ∃ provisional after, ServerStates s.isInviteTsx provisional after s.stateMachine ∧
    s.activity.Admits s.isInviteTsx after ∧
    (s.activity.IsOpen → provisional = s.provisionalRetransHandle.isSome)

/-- What makes a step change the state, by the states it adds. -/
inductive Cause (s : ServerTransaction) (e : ServerEvent) : List State → Prop
  | none : Cause s e []
  | provisional {response target} (hactivity : s.activity = .sendingProvisional response)
      (hsent : e = .sent (.ok target)) : Cause s e [.proceeding]
  | success {response target} (hactivity : s.activity = .sendingFinal response)
      (hsent : e = .sent (.ok target)) (hinvite : s.isInviteTsx = true)
      (hcode : 200 ≤ response.code.asU16 ∧ response.code.asU16 ≤ 299) : Cause s e [.terminated]
  | final {response target} (hactivity : s.activity = .sendingFinal response)
      (hsent : e = .sent (.ok target)) : Cause s e [.completed]
  | reliable {response target} (hactivity : s.activity = .sendingFinal response)
      (hsent : e = .sent (.ok target)) : Cause s e [.completed, .terminated]
  | ack {response interval expires deadline msg rest}
      (hactivity : s.activity = .retransmitting response interval expires deadline false)
      (hpoll : e = .poll) (hmsgs : s.channel.queue = msg :: rest) (hack : msg.isAck = true) :
      Cause s e [.confirmed]
  | over (hpoll : e = .poll) (hlate : s.state = .completed ∨ s.state = .confirmed) :
      Cause s e [.terminated]

/-- The states that a step adds have a cause. -/
def Advances (s : ServerTransaction) (e : ServerEvent) (s' : ServerTransaction) : Prop :=
  ∃ added, s'.stateMachine.history = s.stateMachine.history ++ added ∧ Cause s e added

/-- A step that adds no state needs no cause for one. -/
theorem Advances.of_same {s s' : ServerTransaction} {e : ServerEvent}
    (h : s'.stateMachine.history = s.stateMachine.history) : Advances s e s' :=
  ⟨[], by rw [h, List.append_nil], .none⟩

/-- A step with a cause that keeps the request and the invariant. -/
structure StepOk (s : ServerTransaction) (e : ServerEvent) (s' : ServerTransaction) : Prop where
  request : s'.request = s.request
  states : s'.StatesOk
  advances : Advances s e s'

/-- A step that leaves the states alone. -/
theorem StatesOk.same {s s' : ServerTransaction} (h : s.StatesOk) {e : ServerEvent}
    (hrequest : s'.request = s.request) (hmachine : s'.stateMachine = s.stateMachine)
    (hadmits : ∀ after, s.activity.Admits s.isInviteTsx after →
      s'.activity.Admits s.isInviteTsx after)
    (hopen : s'.activity.IsOpen → s.activity.IsOpen ∧
      s'.provisionalRetransHandle.isSome = s.provisionalRetransHandle.isSome) :
    StepOk s e s' := by
  obtain ⟨provisional, after, hstates, hafter, hprovisional⟩ := h
  have hinvite : s'.isInviteTsx = s.isInviteTsx := isInviteTsx_eq hrequest
  refine ⟨hrequest, ⟨provisional, after, ?_, ?_, fun h' => ?_⟩, .of_same (by rw [hmachine])⟩
  · rw [hinvite, hmachine]
    exact hstates
  · rw [hinvite]
    exact hadmits after hafter
  · obtain ⟨hwas, hhandle⟩ := hopen h'
    rw [hhandle]
    exact hprovisional hwas

/-- The end of a transaction after its final response. -/
theorem StatesOk.terminate {s : ServerTransaction} (h : s.StatesOk)
    (hactivity : (∃ response interval expires deadline sending,
        s.activity = .retransmitting response interval expires deadline sending) ∨
      (∃ response deadline sending, s.activity = .absorbing response deadline sending) ∨
      ∃ wakeup, s.activity = .confirmed wakeup) :
    s.terminate.StatesOk ∧ (s.state = .completed ∨ s.state = .confirmed) ∧
      s.terminate.stateMachine.history = s.stateMachine.history ++ [.terminated] := by
  obtain ⟨provisional, after, hstates, hafter, -⟩ := h
  have hlast := hstates.machine.last
  rw [hstates.history] at hlast
  rcases hactivity with ⟨response, interval, expires, deadline, sending, hactivity⟩ |
    ⟨response, deadline, sending, hactivity⟩ | ⟨wakeup, hactivity⟩ <;> rw [hactivity] at hafter
  · obtain ⟨hinvite, rfl⟩ := hafter
    rw [List.getLast?_concat, Option.some.injEq] at hlast
    exact ⟨⟨provisional, _, hstates.setState (by decide) .terminated, .inr (.inr (.inl rfl)),
      False.elim⟩, .inl hlast.symm, rfl⟩
  · obtain rfl : after = [.completed] := hafter
    rw [List.getLast?_concat, Option.some.injEq] at hlast
    exact ⟨⟨provisional, _, hstates.setState (by decide) .terminated, .inr (.inr (.inl rfl)),
      False.elim⟩, .inl hlast.symm, rfl⟩
  · obtain ⟨hinvite, rfl⟩ := hafter
    rw [List.getLast?_append] at hlast
    have hstate : s.state = .confirmed := (Option.some.inj hlast).symm
    exact ⟨⟨provisional, _, hstates.setState (by decide) .terminated,
      .inr (.inr (.inr ⟨hinvite, .inr rfl⟩)), False.elim⟩, .inr hstate, rfl⟩

/-- A provisional response was sent. -/
theorem StatesOk.finishProvisional {s : ServerTransaction} (h : s.StatesOk)
    {response₀ : OutgoingResponse} (hactivity : s.activity = .sendingProvisional response₀)
    (response : OutgoingResponse) {target : TargetTransportInfo}
    (targetInfo : Option TargetTransportInfo) :
    StepOk s (.sent (.ok target))
      ({ s with targetInfo := targetInfo }.finishProvisional response) := by
  simp only [ServerTransaction.finishProvisional]
  cases hhandle : s.provisionalRetransHandle with
  | some task =>
    simp only []
    split
    all_goals
      exact h.same rfl rfl (by rw [hactivity]; exact fun _ => id)
        fun _ => ⟨by rw [hactivity]; trivial, by rw [hhandle]; rfl⟩
  | none =>
    simp only []
    split
    · -- the first one: the task is spawned
      obtain ⟨provisional, after, hstates, hafter, hprovisional⟩ := h
      rw [hactivity] at hafter hprovisional
      obtain rfl : after = [] := hafter
      have hfirst : provisional = false := by
        rw [hprovisional trivial, hhandle]
        rfl
      rw [hfirst] at hstates
      exact ⟨rfl, ⟨true, [], hstates.setProceeding.subscribeState, rfl, fun _ => rfl⟩,
        [.proceeding], rfl, .provisional hactivity rfl⟩
    · exact h.same rfl rfl (fun after hafter => .inl (by rw [hactivity] at hafter; exact hafter))
        False.elim

/-- The task that repeats the final response takes over. -/
theorem spawnFinalTask_statesOk {s : ServerTransaction} {provisional : Bool}
    (hstates : ServerStates s.isInviteTsx provisional [.completed] s.stateMachine)
    (response : OutgoingResponse) (deadline : Nat) :
    (s.spawnFinalTask response deadline).StatesOk ∧
      (s.spawnFinalTask response deadline).stateMachine = s.stateMachine ∧
      (s.spawnFinalTask response deadline).request = s.request := by
  simp only [spawnFinalTask]
  split
  · next hinvite =>
    have hinvite : s.isInviteTsx = true := (Bool.and_eq_true _ _ ▸ hinvite).1
    exact ⟨⟨provisional, [.completed], hstates, ⟨hinvite, rfl⟩, False.elim⟩, rfl, rfl⟩
  · exact ⟨⟨provisional, [.completed], hstates, rfl, False.elim⟩, rfl, rfl⟩

/-- The code of a response is not changed by its transmission. -/
theorem code_after (res : Except Error TargetTransportInfo) (r : OutgoingResponse) :
    (r.after res).code = r.code := by
  cases res <;> rfl

/-- The final response was sent. -/
theorem StatesOk.finishFinal {s : ServerTransaction} (h : s.StatesOk)
    {response : OutgoingResponse} (hactivity : s.activity = .sendingFinal response)
    {target : TargetTransportInfo} (targetInfo : Option TargetTransportInfo) :
    StepOk s (.sent (.ok target))
      ({ s with targetInfo := targetInfo }.finishFinal (response.after (.ok target))) := by
  obtain ⟨provisional, after, hstates, hafter, -⟩ := h
  rw [hactivity] at hafter
  obtain rfl : after = [] := hafter
  have hcompleted := hstates.setState (by decide) .completed
  simp only [ServerTransaction.finishFinal, code_after]
  split
  · -- a 2xx for an `INVITE`
    next hsuccess =>
    simp only [Bool.and_eq_true, decide_eq_true_eq] at hsuccess
    obtain ⟨hinvite, hlow, hhigh⟩ := hsuccess
    exact ⟨rfl, ⟨provisional, [.terminated], hstates.setState (by decide) .terminated,
      .inr (.inr (.inr ⟨hinvite, .inl rfl⟩)), False.elim⟩, [.terminated], rfl,
      .success hactivity rfl hinvite ⟨hlow, hhigh.le⟩⟩
  · -- any other response goes through `Completed`
    split
    · exact ⟨rfl, ⟨provisional, [.completed, .terminated], hcompleted.setState (by decide) .terminated,
        .inr (.inr (.inl rfl)), False.elim⟩, [.completed, .terminated],
        List.append_assoc _ _ _, .reliable hactivity rfl⟩
    · split
      · exact ⟨rfl, ⟨provisional, [.completed], hcompleted, rfl, False.elim⟩, [.completed], rfl,
          .final hactivity rfl⟩
      · split
        · have hspawn := spawnFinalTask_statesOk
            (s := { { s with targetInfo := targetInfo }.setState .completed with
              hasReceiver := false }) hcompleted (response.after (.ok target))
            (s.now + if s.isInviteTsx then T4 else T1 * 64)
          exact ⟨hspawn.2.2, hspawn.1, [.completed], congrArg StateMachine.history hspawn.2.1,
            .final hactivity rfl⟩
        · exact ⟨rfl, ⟨provisional, [.completed], hcompleted, .inr (.inl rfl), False.elim⟩,
            [.completed], rfl, .final hactivity rfl⟩

/-- To keep the target of a transmission changes nothing but the target. -/
theorem keepTarget_eq (res : Except Error TargetTransportInfo) (s : ServerTransaction) :
    ∃ targetInfo, s.keepTarget res = { s with targetInfo := targetInfo } := by
  unfold keepTarget
  split
  · split
    · exact ⟨_, rfl⟩
    · exact ⟨s.targetInfo, rfl⟩
  · exact ⟨s.targetInfo, rfl⟩

/-- The task that repeats the final response is done with a transmission. -/
theorem StatesOk.keepTarget {s : ServerTransaction} (h : s.StatesOk) {e : ServerEvent}
    (res : Except Error TargetTransportInfo) {activity : ServerActivity}
    (hadmits : ∀ after, s.activity.Admits s.isInviteTsx after →
      activity.Admits s.isInviteTsx after) (hopen : ¬ activity.IsOpen) :
    StepOk s e ((s.keepTarget res).become activity) := by
  obtain ⟨targetInfo, hkeep⟩ := s.keepTarget_eq res
  rw [hkeep]
  exact h.same rfl rfl hadmits fun h' => (hopen h').elim

/-- The result of a transmission enters the states of its response, or none. -/
theorem StatesOk.sent {s : ServerTransaction} (h : s.StatesOk)
    (res : Except Error TargetTransportInfo) : StepOk s (.sent res) (s.sent res) := by
  unfold ServerTransaction.sent
  split
  · next hactivity =>
    obtain ⟨targetInfo, hkeep⟩ := s.keepTarget_eq (.ok _)
    rw [hkeep]
    exact h.finishProvisional hactivity _ targetInfo
  · next hactivity =>
    exact h.same rfl rfl (by rw [hactivity]; exact fun _ => id)
      fun _ => ⟨by rw [hactivity]; trivial, rfl⟩
  · next hactivity =>
    obtain ⟨targetInfo, hkeep⟩ := s.keepTarget_eq (.ok _)
    rw [hkeep]
    exact h.finishFinal hactivity targetInfo
  · next hactivity =>
    exact h.same rfl rfl (by rw [hactivity]; exact fun _ => .inl) False.elim
  · next hactivity => exact h.keepTarget _ (by rw [hactivity]; exact fun _ => id) id
  · next hactivity => exact h.keepTarget _ (by rw [hactivity]; exact fun _ => id) id
  · exact h.same rfl rfl (fun _ => id) fun hopen => ⟨hopen, rfl⟩

/-! ### The other steps -/

/-- A poll of the repeated final response enters `Confirmed` for an `ACK`, and the last state at its
    end. -/
theorem StatesOk.pollRetransmitting {s : ServerTransaction} (h : s.StatesOk)
    {response : OutgoingResponse} {interval expires deadline : Nat}
    (hactivity : s.activity = .retransmitting response interval expires deadline false) :
    StepOk s .poll (s.pollRetransmitting response interval expires deadline) := by
  -- the responses sent and the messages taken do not matter here
  have hstay : ∀ {s' : ServerTransaction}, s'.request = s.request →
      s'.stateMachine = s.stateMachine → (∀ after, s.activity.Admits s.isInviteTsx after →
        s'.activity.Admits s.isInviteTsx after) → ¬ s'.activity.IsOpen → StepOk s .poll s' :=
    fun hrequest hmachine hadmits hopen =>
      h.same hrequest hmachine hadmits fun h' => (hopen h').elim
  rcases s.channel.pollRecv_cases with
    ⟨msg, rest, hmsgs, hpoll⟩ | ⟨-, -, hpoll⟩ | ⟨-, -, hpoll⟩
  · simp only [ServerTransaction.pollRetransmitting, hpoll]
    split
    · next hack =>
      obtain ⟨provisional, after, hstates, hafter, -⟩ := h
      rw [hactivity] at hafter
      obtain ⟨hinvite, rfl⟩ := hafter
      exact ⟨rfl, ⟨provisional, [.completed, .confirmed], hstates.setState (by decide) .confirmed,
        ⟨hinvite, rfl⟩, False.elim⟩, [.confirmed], rfl, .ack hactivity rfl hmsgs hack⟩
    · exact hstay rfl rfl (by rw [hactivity]; exact fun _ => id) id
  · simp only [ServerTransaction.pollRetransmitting, hpoll]
    refine hstay rfl rfl ?_ id
    rw [hactivity]
    exact fun _ hafter => .inr (.inl hafter.2)
  · simp only [ServerTransaction.pollRetransmitting, hpoll]
    split
    · exact hstay rfl rfl (by rw [hactivity]; exact fun _ => id) id
    · split
      · obtain ⟨hstates, hlate, hhistory⟩ := h.terminate (.inl ⟨_, _, _, _, _, hactivity⟩)
        exact ⟨rfl, hstates, [.terminated], hhistory, .over rfl hlate⟩
      · exact hstay rfl rfl (fun _ => id) (by rw [hactivity]; exact id)

/-- A poll of the task that absorbs copies enters the last state when it ends. -/
theorem StatesOk.pollAbsorbing {s : ServerTransaction} (h : s.StatesOk)
    {response : OutgoingResponse} {deadline : Nat}
    (hactivity : s.activity = .absorbing response deadline false) :
    StepOk s .poll (s.pollAbsorbing response deadline) := by
  obtain ⟨hstates, hlate, hhistory⟩ := h.terminate (.inr (.inl ⟨_, _, _, hactivity⟩))
  rcases s.channel.pollRecv_cases with
    ⟨msg, rest, -, hpoll⟩ | ⟨-, -, hpoll⟩ | ⟨-, -, hpoll⟩
  · simp only [ServerTransaction.pollAbsorbing, hpoll]
    exact h.same rfl rfl (by rw [hactivity]; exact fun _ => id) False.elim
  · simp only [ServerTransaction.pollAbsorbing, hpoll]
    exact ⟨rfl, hstates, [.terminated], hhistory, .over rfl hlate⟩
  · simp only [ServerTransaction.pollAbsorbing, hpoll]
    split
    · exact ⟨rfl, hstates, [.terminated], hhistory, .over rfl hlate⟩
    · exact h.same rfl rfl (fun _ => id) fun hopen => ⟨hopen, rfl⟩

/-- A poll enters the states of what the call or the task does, by who holds the transaction. -/
theorem StatesOk.poll {s : ServerTransaction} (h : s.StatesOk) : StepOk s .poll s.poll := by
  unfold ServerTransaction.poll
  split
  · next response deadline hactivity =>
    split
    · -- the provisional task gave the receiver back
      obtain ⟨provisional, after, hstates, hafter, -⟩ := h
      rw [hactivity] at hafter
      obtain rfl : after = [.completed] := hafter
      have hspawn := spawnFinalTask_statesOk
        (s := { s with provisionalRetransHandle := none }) hstates response deadline
      exact ⟨hspawn.2.2, hspawn.1, .of_same (congrArg StateMachine.history hspawn.2.1)⟩
    · exact h.same rfl rfl (fun _ => id) fun hopen => ⟨hopen, rfl⟩
  · next hactivity => exact h.pollRetransmitting hactivity
  · next hactivity =>
    split
    · obtain ⟨hstates, hlate, hhistory⟩ := h.terminate (.inr (.inr ⟨_, hactivity⟩))
      exact ⟨rfl, hstates, [.terminated], hhistory, .over rfl hlate⟩
    · exact h.same rfl rfl (fun _ => id) fun hopen => ⟨hopen, rfl⟩
  · next hactivity => exact h.pollAbsorbing hactivity
  all_goals exact h.same rfl rfl (fun _ => id) fun hopen => ⟨hopen, rfl⟩

/-- The provisional task changes nothing but itself, the channel and the trace. -/
theorem pollTask_frame (s : ServerTransaction) :
    s.pollTask.request = s.request ∧ s.pollTask.stateMachine = s.stateMachine ∧
      s.pollTask.activity = s.activity ∧
      s.pollTask.provisionalRetransHandle.isSome = s.provisionalRetransHandle.isSome := by
  unfold pollTask
  cases hhandle : s.provisionalRetransHandle with
  | none => exact ⟨rfl, rfl, rfl, by rw [hhandle]⟩
  | some task =>
    simp only []
    split
    · exact ⟨rfl, rfl, rfl, by rw [hhandle]⟩
    · split
      · exact ⟨rfl, rfl, rfl, rfl⟩
      · split
        · exact ⟨rfl, rfl, rfl, rfl⟩
        · split
          · exact ⟨rfl, rfl, rfl, rfl⟩
          · exact ⟨rfl, rfl, rfl, rfl⟩

/-- The result of a repetition changes the response that is kept, and nothing of the call. -/
theorem retransmitted_frame (res : Except Error TargetTransportInfo) (s : ServerTransaction) :
    (s.retransmitted res).request = s.request ∧
      (s.retransmitted res).stateMachine = s.stateMachine ∧
      (s.retransmitted res).activity = s.activity ∧
      (s.retransmitted res).provisionalRetransHandle.isSome =
        s.provisionalRetransHandle.isSome := by
  unfold retransmitted
  cases hhandle : s.provisionalRetransHandle with
  | none => exact ⟨rfl, rfl, rfl, by rw [hhandle]⟩
  | some task =>
    simp only []
    split
    · exact ⟨rfl, rfl, rfl, rfl⟩
    · exact ⟨rfl, rfl, rfl, by rw [hhandle]⟩

/-- To give up a call enters no state. -/
theorem StatesOk.cancel {s : ServerTransaction} (h : s.StatesOk) : StepOk s .cancel s.cancel := by
  unfold ServerTransaction.cancel
  split
  · next hactivity =>
    exact h.same rfl rfl (by rw [hactivity]; exact fun _ => id)
      fun _ => ⟨by rw [hactivity]; trivial, rfl⟩
  · next hactivity => exact h.same rfl rfl (by rw [hactivity]; exact fun _ => .inl) False.elim
  · next hactivity =>
    exact h.same rfl rfl (by rw [hactivity]; exact fun _ hafter => .inr (.inl hafter)) False.elim
  all_goals exact h.same rfl rfl (fun _ => id) fun hopen => ⟨hopen, rfl⟩

/-- **Every step keeps the invariant, and has a cause for every state it adds.** -/
theorem StatesOk.step {s : ServerTransaction} (h : s.StatesOk) (e : ServerEvent) :
    StepOk s e (s.step e) := by
  -- a step that the transaction is not ready for changes nothing
  have hsame : StepOk s e s := h.same rfl rfl (fun _ => id) fun hopen => ⟨hopen, rfl⟩
  cases e with
  | deliver msg =>
    simp only [ServerTransaction.step]
    split
    · exact hsame
    · exact h.same rfl rfl (fun _ => id) fun hopen => ⟨hopen, rfl⟩
  | close => exact h.same rfl rfl (fun _ => id) fun hopen => ⟨hopen, rfl⟩
  | elapse ms => exact h.same rfl rfl (fun _ => id) fun hopen => ⟨hopen, rfl⟩
  | sendProvisionalResponse response =>
    simp only [ServerTransaction.step, ServerTransaction.sendProvisionalResponse]
    split
    · next hidle =>
      -- the user holds the transaction, whether or not the code is a provisional one
      split
      · exact h.same rfl rfl (by rw [hidle]; exact fun _ => id)
          fun _ => ⟨by rw [hidle]; trivial, rfl⟩
      · exact h.same rfl rfl (fun _ => id) fun hopen => ⟨hopen, rfl⟩
    · exact hsame
  | sendFinalResponse response =>
    simp only [ServerTransaction.step, ServerTransaction.sendFinalResponse]
    split
    · next hidle =>
      -- the call owns the transaction from here on
      split
      · exact h.same rfl rfl (by rw [hidle]; exact fun _ => id) False.elim
      · exact h.same rfl rfl (by rw [hidle]; exact fun _ => .inl) False.elim
    · exact hsame
  | sent res => exact h.sent res
  | retransmitted res =>
    -- the task has no say in the states
    obtain ⟨hrequest, hmachine, hactivity, hhandle⟩ := retransmitted_frame res s
    exact h.same hrequest hmachine (fun _ hafter => hactivity ▸ hafter)
      fun hopen => ⟨hactivity ▸ hopen, hhandle⟩
  | poll => exact h.poll
  | pollTask =>
    obtain ⟨hrequest, hmachine, hactivity, hhandle⟩ := pollTask_frame s
    exact h.same hrequest hmachine (fun _ hafter => hactivity ▸ hafter)
      fun hopen => ⟨hactivity ▸ hopen, hhandle⟩
  | cancel => exact h.cancel
  | drop =>
    simp only [ServerTransaction.step]
    split
    · next hidle => exact h.same rfl rfl (by rw [hidle]; exact fun _ => .inl) False.elim
    · exact hsame
  | subscribeState =>
    simp only [ServerTransaction.step]
    split
    · obtain ⟨provisional, after, hstates, hafter, hprovisional⟩ := h
      exact ⟨rfl, ⟨provisional, after, hstates.subscribeState, hafter, hprovisional⟩, .of_same rfl⟩
    · exact hsame
  | recvState i =>
    simp only [ServerTransaction.step]
    split
    · exact hsame
    · obtain ⟨provisional, after, hstates, hafter, hprovisional⟩ := h
      exact ⟨rfl, ⟨provisional, after, hstates.recv i, hafter, hprovisional⟩, .of_same rfl⟩

/-! ### Runs -/

/-- A server transaction starts in the state before the first response. -/
theorem statesOk_fromRequest {request : IncomingRequest} {now : Nat} {s : ServerTransaction}
    (h : fromRequest request now = some s) : s.StatesOk := by
  unfold fromRequest at h
  split at h
  · cases h
  · obtain ⟨key, -, rfl⟩ := Option.map_eq_some_iff.mp h
    refine ⟨false, [], ⟨StateMachine.ok_new _, ?_⟩, rfl, fun _ => rfl⟩
    show [if request.method = .invite then State.proceeding else .trying] =
      [if decide (request.method = .invite) then .proceeding else .trying]
    simp only [decide_eq_true_eq]

/-- The state is the last one that was entered. -/
theorem StatesOk.getLast?_history {s : ServerTransaction} (h : s.StatesOk) :
    s.stateMachine.history.getLast? = some s.state := by
  obtain ⟨provisional, after, hstates, -⟩ := h
  exact hstates.machine.last

/-- The invariant holds in every state of a run, and the request stays. -/
theorem run_statesOk {s : ServerTransaction} (h : s.StatesOk) (es : List ServerEvent) :
    (s.run es).StatesOk ∧ (s.run es).request = s.request := by
  have hinv : ∀ (s' : ServerTransaction) (e : ServerEvent),
      s'.StatesOk ∧ s'.request = s.request →
      (s'.step e).StatesOk ∧ (s'.step e).request = s.request := by
    rintro s' e ⟨hs', hrequest⟩
    exact ⟨(hs'.step e).states, (hs'.step e).request.trans hrequest⟩
  exact exec_invariant hinv ⟨h, rfl⟩ es

/-- **The states of a server transaction.** In every run they are as `ServerHistory` says, and a
    state is added only where `Cause` says: `Terminated` after `Proceeding` when a 2xx was sent
    for an `INVITE`, `Confirmed` when an `ACK` is received. -/
theorem run_serverHistory {request : IncomingRequest} {now : Nat} {s : ServerTransaction}
    (h : fromRequest request now = some s) (es : List ServerEvent) :
    ServerHistory s.isInviteTsx (s.run es).stateMachine.history ∧
      (s.run es).stateMachine.history.getLast? = some (s.run es).state ∧
      ∀ e, Advances (s.run es) e ((s.run es).step e) := by
  obtain ⟨hrun, hrequest⟩ := run_statesOk (statesOk_fromRequest h) es
  refine ⟨?_, ?_, fun e => (hrun.step e).advances⟩
  · obtain ⟨provisional, after, hstates, hafter, -⟩ := hrun
    have hinvite : (s.run es).isInviteTsx = s.isInviteTsx := isInviteTsx_eq hrequest
    rw [hinvite] at hstates hafter
    exact hstates.serverHistory hafter
  · obtain ⟨provisional, after, hstates, -⟩ := hrun
    exact hstates.machine.last

/-- An `INVITE` that rings, is busy and is acknowledged. -/
theorem run_serverHistory_busy :
    let target := ⟨.localhost, .localhost false⟩
    let m := ((new (.newKey3261 .uas .invite "z9hG4bK1") (.fromLocalhost .invite none false) 0).run
      [.sendProvisionalResponse (.ofCode .ringing), .sent (.ok target),
        .sendFinalResponse (.ofCode .busyHere), .sent (.ok target), .pollTask, .poll,
        .deliver (.request (.fromLocalhost .ack none false)), .poll, .elapse 5000,
        .poll]).stateMachine
    m.history = [.proceeding, .proceeding, .completed, .confirmed, .terminated] ∧
      ServerHistory true m.history :=
  have hrequest : fromRequest (.fromLocalhost .invite none false) 0 =
      some (new (.newKey3261 .uas .invite "z9hG4bK1") (.fromLocalhost .invite none false) 0) := rfl
  ⟨by decide, (run_serverHistory hrequest _).1⟩

/-! ### What no step changes -/

/-- What the functions of a transaction leave alone. -/
structure Frame (s s' : ServerTransaction) : Prop where
  transactionKey : s'.transactionKey = s.transactionKey
  request : s'.request = s.request
  targetInfo : s'.targetInfo = s.targetInfo
  now : s'.now = s.now

/-- What is not touched is left alone. -/
theorem Frame.refl (s : ServerTransaction) : Frame s s := ⟨rfl, rfl, rfl, rfl⟩

/-- The end of a call for a provisional response leaves the fixed parts alone. -/
theorem frame_finishProvisional (response : OutgoingResponse) (s : ServerTransaction) :
    Frame s (s.finishProvisional response) := by
  unfold finishProvisional
  split
  · simp only []
    split
    all_goals exact ⟨rfl, rfl, rfl, rfl⟩
  · split
    all_goals exact ⟨rfl, rfl, rfl, rfl⟩

/-- To leave a final response to its task leaves the fixed parts alone. -/
theorem frame_spawnFinalTask (response : OutgoingResponse) (deadline : Nat)
    (s : ServerTransaction) : Frame s (s.spawnFinalTask response deadline) := by
  unfold spawnFinalTask
  simp only []
  split
  all_goals exact ⟨rfl, rfl, rfl, rfl⟩

/-- The end of a call for a final response leaves the fixed parts alone. -/
theorem frame_finishFinal (response : OutgoingResponse) (s : ServerTransaction) :
    Frame s (s.finishFinal response) := by
  unfold finishFinal
  split
  · exact ⟨rfl, rfl, rfl, rfl⟩
  · simp only []
    split
    · exact ⟨rfl, rfl, rfl, rfl⟩
    · split
      · exact ⟨rfl, rfl, rfl, rfl⟩
      · split
        · obtain ⟨hkey, hrequest, htarget, hnow⟩ := frame_spawnFinalTask response
            (s.now + if s.isInviteTsx then T4 else T1 * 64)
            { s.setState .completed with hasReceiver := false }
          exact ⟨hkey, hrequest, htarget, hnow⟩
        · exact ⟨rfl, rfl, rfl, rfl⟩

/-- The end of a transmission may note the target first. -/
theorem frame_sent (res : Except Error TargetTransportInfo) (s : ServerTransaction) :
    Frame s (s.sent res) ∨ Frame (s.keepTarget res) (s.sent res) := by
  unfold sent
  split
  · exact .inr (frame_finishProvisional _ _)
  · exact .inl ⟨rfl, rfl, rfl, rfl⟩
  · exact .inr (frame_finishFinal _ _)
  · exact .inl ⟨rfl, rfl, rfl, rfl⟩
  · exact .inr ⟨rfl, rfl, rfl, rfl⟩
  · exact .inr ⟨rfl, rfl, rfl, rfl⟩
  · exact .inl (Frame.refl s)

/-- A poll of the call leaves the fixed parts alone. -/
theorem frame_poll (s : ServerTransaction) : Frame s s.poll := by
  unfold poll
  split
  · split
    · obtain ⟨hkey, hrequest, htarget, hnow⟩ := frame_spawnFinalTask _ _
        { s with provisionalRetransHandle := none }
      exact ⟨hkey, hrequest, htarget, hnow⟩
    · exact Frame.refl s
  · unfold pollRetransmitting
    simp only []
    repeat' split
    all_goals exact ⟨rfl, rfl, rfl, rfl⟩
  · split
    all_goals exact ⟨rfl, rfl, rfl, rfl⟩
  · unfold pollAbsorbing
    simp only []
    repeat' split
    all_goals exact ⟨rfl, rfl, rfl, rfl⟩
  all_goals exact Frame.refl s

/-- A poll of the task leaves the fixed parts alone. -/
theorem frame_pollTask (s : ServerTransaction) : Frame s s.pollTask := by
  unfold pollTask
  repeat' split
  all_goals exact ⟨rfl, rfl, rfl, rfl⟩

/-- **What a step leaves alone**, unless time passes or a target is noted. -/
theorem frame_step (s : ServerTransaction) {e : ServerEvent} (helapse : ∀ ms, e ≠ .elapse ms)
    (hsent : ∀ res, e ≠ .sent res) : Frame s (s.step e) := by
  cases e with
  | elapse ms => exact absurd rfl (helapse ms)
  | sent res => exact absurd rfl (hsent res)
  | poll => exact frame_poll s
  | pollTask => exact frame_pollTask s
  | _ =>
    simp only [step, sendProvisionalResponse, sendFinalResponse, retransmitted, cancel]
    repeat' split
    all_goals exact ⟨rfl, rfl, rfl, rfl⟩

/-- Only `elapse` moves the clock. -/
theorem now_step (s : ServerTransaction) {e : ServerEvent} (he : ∀ ms, e ≠ .elapse ms) :
    (s.step e).now = s.now := by
  by_cases hsent : ∃ res, e = .sent res
  · obtain ⟨res, rfl⟩ := hsent
    obtain ⟨targetInfo, hkeep⟩ := s.keepTarget_eq res
    rcases frame_sent res s with hframe | hframe
    · exact hframe.now
    · rw [hkeep] at hframe
      exact hframe.now
  · exact (frame_step s he fun res heq => hsent ⟨res, heq⟩).now

/-- The key of a transaction never changes. -/
theorem transactionKey_step (s : ServerTransaction) (e : ServerEvent) :
    (s.step e).transactionKey = s.transactionKey := by
  by_cases hsent : ∃ res, e = .sent res
  · obtain ⟨res, rfl⟩ := hsent
    obtain ⟨targetInfo, hkeep⟩ := s.keepTarget_eq res
    rcases frame_sent res s with hframe | hframe
    · exact hframe.transactionKey
    · rw [hkeep] at hframe
      exact hframe.transactionKey
  · by_cases helapse : ∃ ms, e = .elapse ms
    · obtain ⟨ms, rfl⟩ := helapse
      rfl
    · exact (frame_step s (fun ms heq => helapse ⟨ms, heq⟩)
        fun res heq => hsent ⟨res, heq⟩).transactionKey

/-- A transaction that is gone stays gone. -/
theorem dropped_step {s : ServerTransaction} (h : s.activity = .dropped) (e : ServerEvent) :
    (s.step e).activity = .dropped := by
  cases e with
  | poll =>
    simp only [step, poll, h]
  | pollTask => exact (pollTask_frame s).2.2.1.trans h
  | retransmitted res => exact (retransmitted_frame res s).2.2.1.trans h
  | _ =>
    simp only [step, sent, cancel, h, if_neg (nofun : ServerActivity.dropped ≠ .idle)]
    repeat' split
    all_goals first
      | exact h
      | rfl

/-- A server transaction is about the request it was made from. -/
theorem request_fromRequest {request : IncomingRequest} {now : Nat} {s : ServerTransaction}
    (h : fromRequest request now = some s) : s.request = request := by
  unfold fromRequest at h
  split at h
  · cases h
  · obtain ⟨key, -, rfl⟩ := Option.map_eq_some_iff.mp h
    rfl

/-- The method of a transaction, and its transport, are those of its request. -/
theorem run_isInviteTsx {request : IncomingRequest} {now : Nat} {s : ServerTransaction}
    (h : fromRequest request now = some s) (es : List ServerEvent) :
    (s.run es).isInviteTsx = decide (request.method = .invite) ∧
      (s.run es).isReliable = s.isReliable := by
  have hrequest := (run_statesOk (statesOk_fromRequest h) es).2
  refine ⟨(isInviteTsx_eq hrequest).trans ?_, isReliable_eq hrequest⟩
  unfold isInviteTsx
  rw [request_fromRequest h]

end ServerTransaction

end Rssip
