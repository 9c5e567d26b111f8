import Rssip.Transaction.ServerStates

namespace Rssip

open Lib

/-!
# The order of responses

A response is handed to the transport somewhere between the start and the end of its
transmission, and the provisional task has transmissions of its own.  Here the responses of the
user are numbered, to see in which order they get there.

* `ServerWire` — a server transaction with the numbers of its responses;
* `ServerWire.Forward` — no response is handed over after a later one;
* `run_forward` — when that is so, all along a run.
-/

/-- What a pass of the loop of the provisional task comes to: it waits, it ends, it takes the next
    provisional response, or it reads a message and starts to repeat the one it has. -/
inductive TaskPass where
  | waits
  | leaves
  | takes
  | reads
deriving DecidableEq

/-- The branch of the `select!` that is ready, in its order. -/
def ServerTransaction.taskPass (s : ServerTransaction) : TaskPass :=
  match s.provisionalRetransHandle with
  | none => .waits
  | some task =>
    if task.returned || task.sending then .waits
    else if s.stateRxReady task then .leaves
    else
      match task.provisionals with
      | _ :: _ => .takes
      | [] =>
        match s.channel.pollRecv with
        | (.ready (some _), _) => .reads
        | _ => .waits

/-- The response that a call, or the task that repeats the final response, has. -/
def ServerActivity.held : ServerActivity → Option OutgoingResponse
  | .sendingProvisional response | .sendingFinal response | .joining response _
  | .retransmitting response _ _ _ _ | .absorbing response _ _ => some response
  | .idle | .confirmed _ | .dropped => none

/-- The response that is being transmitted. -/
def ServerActivity.transmitting : ServerActivity → Option OutgoingResponse
  | .sendingProvisional response | .sendingFinal response
  | .retransmitting response _ _ _ true | .absorbing response _ true => some response
  | _ => none

/-- A server transaction with the responses of its user, counted from one: the number of the last
    one handed to the transport, of the last one that the provisional task was told of, of the
    one it has and of those in its queue.  `wire` is all that was handed to the transport. -/
structure ServerWire where
  server : ServerTransaction
  given : List Response := []
  latest : Nat := 0
  told : Nat := 0
  taskNo : Nat := 0
  queued : List Nat := []
  callHanded : Bool := false
  taskHanded : Bool := false
  wire : List (Nat × Response) := []

/-- The steps of a run: those of the transaction, and the hand-over of a response that a call,
    the task that repeats the final response, or the provisional task is transmitting. -/
inductive WireEvent where
  | server (e : ServerEvent)
  | callHands
  | taskHands

namespace ServerWire

/-- The response of the call, or the final one, is handed over. -/
def callHands (w : ServerWire) : ServerWire :=
  match w.server.activity.transmitting with
  | none => w
  | some response =>
    if w.callHanded then w
    else
      { w with
        latest := w.given.length
        callHanded := true
        wire := w.wire ++ [(w.given.length, response.response)] }

/-- The response of the provisional task is handed over. -/
def taskHands (w : ServerWire) : ServerWire :=
  match w.server.provisionalRetransHandle with
  | none => w
  | some task =>
    if task.sending && !w.taskHanded then
      { w with
        taskHanded := true
        wire := w.wire ++ [(w.taskNo, task.response.response)] }
    else w

/-- A call has a response for the peer. -/
def give (response : OutgoingResponse) (w : ServerWire) : ServerWire :=
  { w with given := w.given ++ [response.response], callHanded := false }

/-- A call passes its response on to the provisional task, which it spawns if need be. -/
def tell (w : ServerWire) : ServerWire :=
  match w.server.provisionalRetransHandle with
  | some task =>
    if task.returned then w
    else { w with queued := w.queued ++ [w.given.length], told := w.given.length }
  | none =>
    if w.server.hasReceiver then
      { w with taskNo := w.given.length, queued := [], told := w.given.length }
    else w

/-- What a step of the transaction does to the numbers.  What was transmitted was handed over. -/
def note (w : ServerWire) : ServerEvent → ServerWire
  | .sendProvisionalResponse response =>
    if w.server.activity = .idle ∧ response.code.isProvisional then w.give response else w
  | .sendFinalResponse response =>
    if w.server.activity = .idle ∧ response.code.isFinal then w.give response else w
  | .sent (.ok _) =>
    match w.server.activity with
    | .sendingProvisional _ => { w.callHands.tell with callHanded := false }
    | _ => { w.callHands with callHanded := false }
  | .sent (.error _) | .cancel => { w with callHanded := false }
  | .retransmitted (.ok _) => w.taskHands
  | .pollTask =>
    match w.server.taskPass with
    | .takes => { w with taskNo := w.queued.headD w.taskNo, queued := w.queued.tail }
    | .reads => { w with taskHanded := false }
    | .waits | .leaves => w
  | _ => w

/-- A step of the transaction, or the transport takes what the call or the task has handed over. -/
def step (w : ServerWire) : WireEvent → ServerWire
  | .server e => { w.note e with server := w.server.step e }
  | .callHands => w.callHands
  | .taskHands => w.taskHands

/-- The transaction after a run. -/
def run (w : ServerWire) (es : List WireEvent) : ServerWire := exec step w es

/-- It is the response with the number `n` of those given. -/
def Numbered (given : List Response) (n : Nat) (response : Response) : Prop :=
  0 < n ∧ given[n - 1]? = some response

/-- Responses of the user are handed over, and none after a later one. -/
structure Forward (w : ServerWire) : Prop where
  ascending : w.wire.Pairwise fun p q => p.1 ≤ q.1
  numbered : ∀ p ∈ w.wire, Numbered w.given p.1 p.2

/-- A transmission of a call, or of the final response, has not got to the transport yet. -/
def CallToHand (w : ServerWire) : Prop :=
  w.server.activity.transmitting.isSome ∧ w.callHanded = false

/-- A transmission of the provisional task has not got to the transport yet. -/
def TaskToHand (w : ServerWire) : Prop :=
  w.server.provisionalRetransHandle.any ProvisionalTask.sending ∧ w.taskHanded = false

/-- What a step must meet: a call hands its response over while the provisional task has none to
    hand over, and the task reads a message while it was told of all that was handed over. -/
def InTurn (w : ServerWire) : WireEvent → Prop
  | .callHands | .server (.sent (.ok _)) => w.CallToHand → ¬ w.TaskToHand
  | .server .pollTask => w.server.taskPass = .reads → w.told = w.latest
  | _ => True

end ServerWire

namespace ServerTransaction

/-! ### What the steps of the transaction do to its responses -/

/-- A transmission changes where a response goes next, not the response. -/
theorem response_after (res : Except Error TargetTransportInfo) (r : OutgoingResponse) :
    (r.after res).response = r.response := by
  cases res <;> rfl

/-- The response of the call, or the final one, is one that there was before. -/
def HeldFrom (s s' : ServerTransaction) : Prop :=
  ∀ r', s'.activity.held = some r' → ∃ r, s.activity.held = some r ∧ r'.response = r.response

/-- If what is under way is the same, so is its response. -/
theorem HeldFrom.of_eq {s s' : ServerTransaction} (h : s'.activity = s.activity) :
    s.HeldFrom s' := by
  intro r' hr'
  rw [h] at hr'
  exact ⟨r', hr', rfl⟩

/-- If nothing is under way then there is no response to come from anywhere. -/
theorem HeldFrom.of_none {s s' : ServerTransaction} (h : s'.activity.held = none) :
    s.HeldFrom s' := by
  intro r' hr'
  rw [h] at hr'
  cases hr'

/-- A response under way that was under way before comes from there. -/
theorem HeldFrom.of_some {s s' : ServerTransaction} {r r' : OutgoingResponse}
    (h : s.activity.held = some r) (h' : s'.activity.held = some r')
    (heq : r'.response = r.response) : s.HeldFrom s' := by
  intro r'' hr''
  rw [← Option.some.inj (h'.symm.trans hr'')]
  exact ⟨r, h, heq⟩

/-- When a call for a provisional response has ended it holds none. -/
theorem held_finishProvisional (response : OutgoingResponse) (s : ServerTransaction) :
    (s.finishProvisional response).activity.held = none := by
  unfold finishProvisional
  split
  · dsimp only
    split <;> rfl
  · split <;> rfl

/-- The final task holds the final response. -/
theorem held_spawnFinalTask (response : OutgoingResponse) (deadline : Nat)
    (s : ServerTransaction) :
    (s.spawnFinalTask response deadline).activity.held = some response := by
  unfold spawnFinalTask
  dsimp only
  split <;> rfl

/-- When a call for the final response has ended, its response is with the task or nowhere. -/
theorem held_finishFinal (response : OutgoingResponse) (s : ServerTransaction) :
    (s.finishFinal response).activity.held = none ∨
      (s.finishFinal response).activity.held = some response := by
  unfold finishFinal
  split
  · exact .inl rfl
  · dsimp only
    split
    · exact .inl rfl
    · split
      · exact .inr rfl
      · split
        · exact .inr (held_spawnFinalTask _ _ _)
        · exact .inl rfl

/-- The result of a transmission brings up no new response. -/
theorem heldFrom_sent (res : Except Error TargetTransportInfo) (s : ServerTransaction) :
    s.HeldFrom (s.sent res) := by
  unfold sent
  split
  · exact .of_none (held_finishProvisional _ _)
  · exact .of_none rfl
  · next response target hactivity =>
    rcases held_finishFinal (response.after (.ok target)) (s.keepTarget (.ok target)) with
      hnone | hsome
    · exact .of_none hnone
    · exact .of_some (by rw [hactivity]; rfl) hsome (response_after _ _)
  · exact .of_none rfl
  · next hactivity => exact .of_some (by rw [hactivity]; rfl) rfl (response_after _ _)
  · next hactivity => exact .of_some (by rw [hactivity]; rfl) rfl (response_after _ _)
  · exact .of_eq rfl

/-- A poll brings up no new response. -/
theorem heldFrom_poll (s : ServerTransaction) : s.HeldFrom s.poll := by
  unfold poll
  split
  · next response deadline hactivity =>
    split
    · exact .of_some (by rw [hactivity]; rfl) (held_spawnFinalTask _ _ _) rfl
    · exact .of_eq rfl
  · next response interval expires deadline hactivity =>
    -- the response is held on unless the task ends
    have hheld : s.activity.held = some response := by rw [hactivity]; rfl
    unfold pollRetransmitting
    split
    · dsimp only
      split
      · exact .of_none rfl
      · exact .of_some hheld rfl rfl
    · exact .of_none rfl
    · dsimp only
      split
      · exact .of_some hheld rfl rfl
      · split
        · exact .of_none rfl
        · exact .of_eq rfl
  · split
    · exact .of_none rfl
    · exact .of_eq rfl
  · next response deadline hactivity =>
    unfold pollAbsorbing
    split
    · exact .of_some (by rw [hactivity]; rfl) rfl rfl
    · exact .of_none rfl
    · dsimp only
      split
      · exact .of_none rfl
      · exact .of_eq rfl
  all_goals exact .of_eq rfl

/-- To give up a call brings up no new response. -/
theorem heldFrom_cancel (s : ServerTransaction) : s.HeldFrom s.cancel := by
  unfold cancel
  split
  all_goals first
    | exact .of_none rfl
    | exact .of_eq rfl

/-- A call of the user has a response of its own. -/
def Gives : ServerEvent → Prop
  | .sendProvisionalResponse _ | .sendFinalResponse _ => True
  | _ => False

/-- **A step other than a call brings no new response.** -/
theorem heldFrom_step (s : ServerTransaction) {e : ServerEvent} (he : ¬ Gives e) :
    s.HeldFrom (s.step e) := by
  -- only a call that gives a response puts another one into the hands of the task
  cases e with
  | sendProvisionalResponse response => exact absurd trivial he
  | sendFinalResponse response => exact absurd trivial he
  | sent res => exact heldFrom_sent res s
  | poll => exact heldFrom_poll s
  | cancel => exact heldFrom_cancel s
  | pollTask => exact .of_eq (pollTask_frame s).2.2.1
  | retransmitted res => exact .of_eq (retransmitted_frame res s).2.2.1
  | close => exact .of_eq rfl
  | elapse ms => exact .of_eq rfl
  | deliver msg =>
    simp only [step]
    split
    all_goals exact .of_eq rfl
  | drop =>
    simp only [step]
    split
    · exact .of_none rfl
    · exact .of_eq rfl
  | subscribeState =>
    simp only [step]
    split
    all_goals exact .of_eq rfl
  | recvState i =>
    simp only [step]
    split
    all_goals exact .of_eq rfl

/-! ### What they do to the provisional task -/

/-- The final task does not touch the provisional one. -/
theorem handle_spawnFinalTask (response : OutgoingResponse) (deadline : Nat)
    (s : ServerTransaction) :
    (s.spawnFinalTask response deadline).provisionalRetransHandle =
      s.provisionalRetransHandle := by
  unfold spawnFinalTask
  dsimp only
  split <;> rfl

/-- The end of a call for the final response does not touch the provisional task, which was joined
    before. -/
theorem handle_finishFinal (response : OutgoingResponse) (s : ServerTransaction) :
    (s.finishFinal response).provisionalRetransHandle = s.provisionalRetransHandle := by
  unfold finishFinal
  split
  · rfl
  · dsimp only
    split
    · rfl
    · split
      · rfl
      · split
        · exact handle_spawnFinalTask _ _ _
        · rfl

/-- Only a call that is done with a provisional response tells the task of one. -/
theorem handle_sent (res : Except Error TargetTransportInfo) {s : ServerTransaction}
    (h : ∀ response, s.activity ≠ .sendingProvisional response) :
    (s.sent res).provisionalRetransHandle = s.provisionalRetransHandle := by
  obtain ⟨targetInfo, hkeep⟩ := s.keepTarget_eq res
  unfold sent
  split
  · next response _ hactivity => exact absurd hactivity (h response)
  · rfl
  · rw [handle_finishFinal, hkeep]
  · rfl
  · rw [hkeep]
    rfl
  · rw [hkeep]
    rfl
  · rfl

/-- To repeat the final response does not touch the provisional task. -/
theorem handle_pollRetransmitting (response : OutgoingResponse) (interval expires deadline : Nat)
    (s : ServerTransaction) :
    (s.pollRetransmitting response interval expires deadline).provisionalRetransHandle =
      s.provisionalRetransHandle := by
  unfold pollRetransmitting
  split
  · dsimp only
    split <;> rfl
  · rfl
  · dsimp only
    split
    · rfl
    · split <;> rfl

/-- To absorb copies does not touch the provisional task. -/
theorem handle_pollAbsorbing (response : OutgoingResponse) (deadline : Nat)
    (s : ServerTransaction) :
    (s.pollAbsorbing response deadline).provisionalRetransHandle =
      s.provisionalRetransHandle := by
  unfold pollAbsorbing
  split
  · rfl
  · rfl
  · dsimp only
    split <;> rfl

/-- The call of the final response takes the task out of the transaction. -/
theorem handle_poll {s : ServerTransaction} {task : ProvisionalTask}
    (h : s.poll.provisionalRetransHandle = some task) :
    s.provisionalRetransHandle = some task := by
  unfold poll at h
  split at h
  · split at h
    · rw [handle_spawnFinalTask] at h
      cases h
    · exact h
  · rw [handle_pollRetransmitting] at h
    exact h
  · split at h
    · exact h
    · exact h
  · rw [handle_pollAbsorbing] at h
    exact h
  all_goals exact h

/-- The step is one of the provisional task, or the end of a transmission of a call. -/
def MovesTask : ServerEvent → Prop
  | .sent (.ok _) | .retransmitted _ | .pollTask => True
  | _ => False

/-- **The other steps leave the provisional task alone, or take it away.** -/
theorem handle_step {s : ServerTransaction} {e : ServerEvent} (he : ¬ MovesTask e)
    {task : ProvisionalTask} (h : (s.step e).provisionalRetransHandle = some task) :
    s.provisionalRetransHandle = some task := by
  cases e with
  | retransmitted res => exact absurd trivial he
  | pollTask => exact absurd trivial he
  | poll => exact handle_poll h
  | close => exact h
  | elapse ms => exact h
  | sent res =>
    cases res with
    | ok target => exact absurd trivial he
    | error e =>
      -- only a provisional response that was sent puts up a task
      by_cases hactivity : ∃ response, s.activity = .sendingProvisional response
      · obtain ⟨response, hactivity⟩ := hactivity
        simp only [step, sent, hactivity] at h
        exact h
      · have hsame := handle_sent (.error e) fun response heq => hactivity ⟨response, heq⟩
        exact hsame.symm.trans h
  | cancel =>
    simp only [step, cancel] at h
    split at h <;> exact h
  | deliver msg =>
    simp only [step] at h
    split at h <;> exact h
  | drop =>
    simp only [step] at h
    split at h <;> exact h
  | subscribeState =>
    simp only [step] at h
    split at h <;> exact h
  | recvState i =>
    simp only [step] at h
    split at h <;> exact h
  | sendProvisionalResponse response =>
    simp only [step, sendProvisionalResponse] at h
    split at h
    · split at h <;> exact h
    · exact h
  | sendFinalResponse response =>
    simp only [step, sendFinalResponse] at h
    split at h
    · split at h <;> exact h
    · exact h

/-- **What a pass of the loop of the task does**, by the branch that is ready. -/
theorem pollTask_cases (s : ServerTransaction) :
    ((s.taskPass = .waits ∨ s.taskPass = .leaves) ∧
        ∀ task, s.pollTask.provisionalRetransHandle = some task →
          ∃ task', s.provisionalRetransHandle = some task' ∧ task.response = task'.response ∧
            task.provisionals = task'.provisionals ∧ task.sending = task'.sending) ∨
      (∃ task response provisionals, s.taskPass = .takes ∧
        s.provisionalRetransHandle = some task ∧ task.provisionals = response :: provisionals ∧
        task.sending = false ∧ s.pollTask.provisionalRetransHandle =
          some { task with response := response, provisionals := provisionals }) ∨
      ∃ task, s.taskPass = .reads ∧ s.provisionalRetransHandle = some task ∧
        task.provisionals = [] ∧ s.pollTask.provisionalRetransHandle =
          some { task with provisionals := [], sending := true } := by
  unfold taskPass pollTask
  cases hhandle : s.provisionalRetransHandle with
  | none =>
    refine .inl ⟨.inl rfl, fun task h => ?_⟩
    rw [hhandle] at h
    cases h
  | some task =>
    dsimp only
    -- the task is done or still sends: it only waits
    by_cases hbusy : task.returned || task.sending
    · simp only [hbusy, if_true]
      refine .inl ⟨.inl trivial, fun task' h => ?_⟩
      rw [hhandle] at h
      obtain rfl := Option.some.inj h
      exact ⟨_, rfl, rfl, rfl, rfl⟩
    · have hsending : task.sending = false := by
        rw [Bool.or_eq_true, not_or] at hbusy
        exact Bool.eq_false_of_not_eq_true hbusy.2
      simp only [if_neg hbusy]
      -- a change of state ends it, before it looks at anything else
      by_cases hready : s.stateRxReady task
      · simp only [hready, if_true]
        refine .inl ⟨.inr trivial, fun task' h => ?_⟩
        obtain rfl := Option.some.inj h
        exact ⟨task, rfl, rfl, rfl, rfl⟩
      · simp only [if_neg hready]
        -- a newer response comes before a retransmitted request
        cases hprovisionals : task.provisionals with
        | cons response provisionals =>
          exact .inr (.inl ⟨task, response, provisionals, rfl, rfl, hprovisionals, hsending, rfl⟩)
        | nil =>
          dsimp only
          rcases s.channel.pollRecv_cases with ⟨msg, rest, -, hpoll⟩ | ⟨-, -, hpoll⟩ | ⟨-, -, hpoll⟩
          · rw [hpoll]
            exact .inr (.inr ⟨task, rfl, rfl, hprovisionals, rfl⟩)
          all_goals
            rw [hpoll]
            refine .inl ⟨.inl rfl, fun task' h => ?_⟩
            have h : some task = some task' := h
            obtain rfl := Option.some.inj h
            exact ⟨task, rfl, rfl, rfl, rfl⟩

/-- What the end of a transmission does to the task. -/
theorem handle_retransmitted {res : Except Error TargetTransportInfo} {s : ServerTransaction}
    {task : ProvisionalTask} (h : (s.retransmitted res).provisionalRetransHandle = some task) :
    ∃ task', s.provisionalRetransHandle = some task' ∧
      task.response.response = task'.response.response ∧
      task.provisionals = task'.provisionals ∧ task.sending = false := by
  unfold retransmitted at h
  cases hhandle : s.provisionalRetransHandle with
  | none =>
    simp only [hhandle] at h
    cases h
  | some task' =>
    simp only [hhandle] at h
    split at h
    · obtain rfl := Option.some.inj h
      exact ⟨task', rfl, response_after _ _, rfl, rfl⟩
    · next hsending =>
      obtain rfl := Option.some.inj (hhandle.symm.trans h)
      exact ⟨_, rfl, rfl, rfl, Bool.eq_false_of_not_eq_true hsending⟩

end ServerTransaction

namespace ServerWire

/-! ### The invariant -/

/-- A response keeps its number when more are given. -/
theorem Numbered.append {given : List Response} {n : Nat} {response : Response}
    (h : Numbered given n response) (given' : List Response) :
    Numbered (given ++ given') n response := by
  obtain ⟨hpos, hget⟩ := h
  refine ⟨hpos, ?_⟩
  rw [List.getElem?_append_left (List.getElem?_eq_some_iff.mp hget).1]
  exact hget

/-- The response given last has the number of all given so far. -/
theorem numbered_concat (given : List Response) (response : Response) :
    Numbered (given ++ [response]) (given ++ [response]).length response := by
  rw [List.length_append, List.length_singleton]
  exact ⟨Nat.succ_pos _, List.getElem?_concat_length⟩

/-- The provisional task has the responses that it was told of, in order. -/
structure TaskOk (w : ServerWire) (task : ProvisionalTask) : Prop where
  response : Numbered w.given w.taskNo task.response.response
  queued : List.Forall₂ (fun n (p : OutgoingResponse) => Numbered w.given n p.response) w.queued
    task.provisionals
  told : w.told = w.queued.getLastD w.taskNo

/-- The call, or the final response, is the last one given, and a response that the task is about
    to hand over is the last one handed over. -/
structure Ok (w : ServerWire) : Prop where
  held : ∀ r, w.server.activity.held = some r → Numbered w.given w.given.length r.response
  task : ∀ task, w.server.provisionalRetransHandle = some task → w.TaskOk task
  wire : ∀ p ∈ w.wire, Numbered w.given p.1 p.2 ∧ p.1 ≤ w.latest
  ascending : w.wire.Pairwise fun p q => p.1 ≤ q.1
  latest : w.latest ≤ w.given.length
  inFlight : w.TaskToHand → w.taskNo = w.latest

/-- A response that is transmitted is one under way. -/
theorem held_of_transmitting {activity : ServerActivity} {r : OutgoingResponse}
    (h : activity.transmitting = some r) : activity.held = some r := by
  unfold ServerActivity.transmitting at h
  split at h
  all_goals first
    | exact h
    | cases h

/-- The hand-over of a call's response is a matter of the transport, not of the transaction. -/
theorem callHands_server (w : ServerWire) : w.callHands.server = w.server := by
  unfold callHands
  split
  · rfl
  · split <;> rfl

/-- The hand-over of the task's response is a matter of the transport as well. -/
theorem taskHands_server (w : ServerWire) : w.taskHands.server = w.server := by
  unfold taskHands
  split
  · rfl
  · split <;> rfl

/-- Something is handed over that is not older than all before. -/
theorem pairwise_concat {wire : List (Nat × Response)} {n : Nat} (response : Response)
    (h : wire.Pairwise fun p q => p.1 ≤ q.1) (hle : ∀ p ∈ wire, p.1 ≤ n) :
    (wire ++ [(n, response)]).Pairwise fun p q => p.1 ≤ q.1 := by
  refine List.pairwise_append.mpr ⟨h, List.pairwise_singleton _ _, fun p hp q hq => ?_⟩
  rw [List.mem_singleton.mp hq]
  exact hle p hp

/-- A call hands over the last response given, so that all later ones are newer, if the task has
    none to hand over. -/
theorem Ok.callHands {w : ServerWire} (h : w.Ok) (hcond : w.CallToHand → ¬ w.TaskToHand) :
    w.callHands.Ok := by
  unfold ServerWire.callHands
  split
  · exact h
  · next response htransmitting =>
    split
    · exact h
    · next hhanded =>
      have htoHand : w.CallToHand :=
        ⟨by rw [htransmitting]; rfl, Bool.eq_false_of_not_eq_true hhanded⟩
      have hnumbered := h.held response (held_of_transmitting htransmitting)
      refine ⟨h.held, fun task htask => ?_, ?_, ?_, le_refl _, fun htask => ?_⟩
      · obtain ⟨hresponse, hqueued, htold⟩ := h.task task htask
        exact ⟨hresponse, hqueued, htold⟩
      · intro p hp
        rcases List.mem_append.mp hp with hold | hnew
        · exact ⟨(h.wire p hold).1, (h.wire p hold).2.trans h.latest⟩
        · rw [List.mem_singleton.mp hnew]
          exact ⟨hnumbered, le_refl _⟩
      · exact pairwise_concat _ h.ascending fun p hp => (h.wire p hp).2.trans h.latest
      · exact absurd htask (hcond htoHand)

/-- The task hands over a response that is not older than the last one handed over. -/
theorem Ok.taskHands {w : ServerWire} (h : w.Ok) : w.taskHands.Ok := by
  unfold ServerWire.taskHands
  split
  · exact h
  · next task htask =>
    split
    · next hready =>
      rw [Bool.and_eq_true, Bool.not_eq_true'] at hready
      have hno : w.taskNo = w.latest :=
        h.inFlight ⟨by rw [htask]; exact hready.1, hready.2⟩
      have hnumbered := (h.task task htask).response
      refine ⟨h.held, fun task' htask' => ?_, ?_, ?_, h.latest, fun htoHand => ?_⟩
      · obtain ⟨hresponse, hqueued, htold⟩ := h.task task' htask'
        exact ⟨hresponse, hqueued, htold⟩
      · intro p hp
        rcases List.mem_append.mp hp with hold | hnew
        · exact h.wire p hold
        · rw [List.mem_singleton.mp hnew]
          exact ⟨hnumbered, le_of_eq hno⟩
      · refine pairwise_concat _ h.ascending fun p hp => ?_
        rw [hno]
        exact (h.wire p hp).2
      · exact absurd htoHand.2 (by simp)
    · exact h

/-- A step of the transaction with no new response and nothing new for the task. -/
theorem Ok.server {w : ServerWire} (h : w.Ok) {s' : ServerTransaction} {callHanded : Bool}
    (hheld : w.server.HeldFrom s')
    (htask : ∀ task, s'.provisionalRetransHandle = some task →
      w.server.provisionalRetransHandle = some task) :
    Ok { w with callHanded := callHanded, server := s' } where
  held r hr := by
    obtain ⟨r₀, hr₀, heq⟩ := hheld r hr
    rw [heq]
    exact h.held r₀ hr₀
  task task hs' := by
    obtain ⟨hresponse, hqueued, htold⟩ := h.task task (htask task hs')
    exact ⟨hresponse, hqueued, htold⟩
  wire := h.wire
  ascending := h.ascending
  latest := h.latest
  inFlight := by
    rintro ⟨hsending, hhanded⟩
    obtain ⟨task, hs', htrue⟩ := (Option.any_eq_true _ _).mp hsending
    refine h.inFlight ⟨?_, hhanded⟩
    rw [htask task hs']
    exact htrue

/-- A call of the user starts. -/
theorem Ok.give {w : ServerWire} (h : w.Ok) {response : OutgoingResponse}
    {s' : ServerTransaction} (hheld : s'.activity.held = some response)
    (htask : s'.provisionalRetransHandle = w.server.provisionalRetransHandle) :
    Ok { w.give response with server := s' } where
  held r hr := by
    rw [← Option.some.inj (hheld.symm.trans hr)]
    exact numbered_concat w.given response.response
  task task hs' := by
    obtain ⟨hresponse, hqueued, htold⟩ := h.task task (htask.symm.trans hs')
    exact ⟨hresponse.append _, hqueued.imp fun _ _ hn => hn.append _, htold⟩
  wire p hp := ⟨(h.wire p hp).1.append _, (h.wire p hp).2⟩
  ascending := h.ascending
  latest := by
    show w.latest ≤ (w.given ++ [_]).length
    rw [List.length_append]
    exact h.latest.trans (Nat.le_add_right _ _)
  inFlight := by
    rintro ⟨hsending, hhanded⟩
    exact h.inFlight ⟨by rw [← htask]; exact hsending, hhanded⟩

/-- A call is done with a provisional response, and tells the task. -/
theorem Ok.tell {w : ServerWire} (h : w.Ok) {response : OutgoingResponse}
    (hactivity : w.server.activity = .sendingProvisional response) (target : TargetTransportInfo) :
    Ok { w.tell with callHanded := false, server := w.server.sent (.ok target) } := by
  have hnumbered : Numbered w.given w.given.length (response.after (.ok target)).response := by
    rw [ServerTransaction.response_after]
    exact h.held response (by rw [hactivity]; rfl)
  obtain ⟨targetInfo, hkeep⟩ := w.server.keepTarget_eq (.ok target)
  have hheld := ServerTransaction.heldFrom_sent (.ok target) w.server
  have hsent : w.server.sent (.ok target) =
      { w.server with targetInfo := targetInfo }.finishProvisional
        (response.after (.ok target)) := by
    simp only [ServerTransaction.sent, hactivity, hkeep]
  rw [hsent] at hheld ⊢
  unfold ServerWire.tell ServerTransaction.finishProvisional at *
  cases hhandle : w.server.provisionalRetransHandle with
  | some task =>
    simp only [hhandle] at hheld ⊢
    by_cases hreturned : task.returned
    · -- a task that is done is told of nothing
      simp only [hreturned, if_true] at hheld ⊢
      refine h.server hheld fun task' htask' => ?_
      exact hhandle.trans htask'
    · -- the response goes to the end of the queue
      simp only [if_neg hreturned] at hheld ⊢
      obtain ⟨hresponse, hqueued, -⟩ := h.task task hhandle
      refine ⟨fun r hr => absurd hr (by simp [ServerActivity.held, ServerTransaction.become]),
        fun task' htask' => ?_, h.wire, h.ascending, h.latest, ?_⟩
      · obtain rfl := Option.some.inj htask'
        refine ⟨hresponse, ?_, List.getLastD_concat.symm⟩
        exact List.rel_append hqueued (List.Forall₂.cons hnumbered List.Forall₂.nil)
      · rintro ⟨hsending, hhanded⟩
        refine h.inFlight ⟨?_, hhanded⟩
        rw [hhandle]
        exact hsending
  | none =>
    simp only [hhandle] at hheld ⊢
    by_cases hreceiver : w.server.hasReceiver
    · simp only [hreceiver, if_true] at hheld ⊢
      refine ⟨fun r hr => absurd hr (by simp [ServerActivity.held, ServerTransaction.become]),
        fun task' htask' => ?_, h.wire, h.ascending, h.latest, ?_⟩
      · obtain rfl := Option.some.inj htask'
        exact ⟨hnumbered, List.Forall₂.nil, rfl⟩
      · -- the new task has nothing to hand over
        rintro ⟨hsending, -⟩
        cases hsending
    · simp only [if_neg hreceiver] at hheld ⊢
      refine h.server hheld fun task' htask' => ?_
      exact hhandle.trans htask'

/-- A pass of the loop of the task. -/
theorem Ok.pollTask {w : ServerWire} (h : w.Ok)
    (hcond : w.server.taskPass = .reads → w.told = w.latest) :
    (w.step (.server .pollTask)).Ok := by
  have hactivity := (ServerTransaction.pollTask_frame w.server).2.2.1
  have hheld : ∀ r, w.server.pollTask.activity.held = some r →
      Numbered w.given w.given.length r.response := by
    rw [hactivity]
    exact h.held
  rcases ServerTransaction.pollTask_cases w.server with
    ⟨hpass, hsame⟩ | ⟨task, response, provisionals, hpass, htask, hqueue, hidle, heq⟩ |
      ⟨task, hpass, htask, hqueue, heq⟩
  · -- the pass waits, or the task ends
    have hnote : w.note .pollTask = w := by
      rcases hpass with hpass | hpass <;> simp only [note, hpass]
    rw [step, hnote]
    refine ⟨hheld, fun task htask => ?_, h.wire, h.ascending, h.latest, ?_⟩
    · obtain ⟨task', htask', hresponse, hprovisionals, -⟩ := hsame task htask
      have hok := h.task task' htask'
      refine ⟨?_, ?_, hok.told⟩
      · rw [hresponse]
        exact hok.response
      · rw [hprovisionals]
        exact hok.queued
    · rintro ⟨hsending, hhanded⟩
      obtain ⟨task, htask, htrue⟩ := (Option.any_eq_true _ _).mp hsending
      obtain ⟨task', htask', -, -, hsame'⟩ := hsame task htask
      refine h.inFlight ⟨?_, hhanded⟩
      rw [htask', Option.any_some, ← hsame']
      exact htrue
  · -- the next response comes to the front
    simp only [step, note, hpass]
    obtain ⟨-, hqueued, htold⟩ := h.task task htask
    rw [hqueue] at hqueued
    obtain ⟨n, queued, hn, hrest, hnos⟩ := List.forall₂_cons_right_iff.mp hqueued
    rw [hnos, List.getLastD_cons] at htold
    rw [hnos]
    refine ⟨hheld, fun task' htask' => ?_, h.wire, h.ascending, h.latest, ?_⟩
    · obtain rfl := Option.some.inj (heq.symm.trans htask')
      exact ⟨hn, hrest, htold⟩
    · rintro ⟨hsending, -⟩
      have hsending : w.server.pollTask.provisionalRetransHandle.any ProvisionalTask.sending :=
        hsending
      rw [heq, Option.any_some] at hsending
      exact absurd (hsending.symm.trans hidle) (by decide)
  · -- what it repeats is the last response that it was told of
    simp only [step, note, hpass]
    obtain ⟨hresponse, hqueued, htold⟩ := h.task task htask
    rw [hqueue] at hqueued
    have hnos : w.queued = [] := List.forall₂_nil_right_iff.mp hqueued
    rw [hnos] at htold
    refine ⟨hheld, fun task' htask' => ?_, h.wire, h.ascending, h.latest, fun _ => ?_⟩
    · obtain rfl := Option.some.inj (heq.symm.trans htask')
      refine ⟨hresponse, ?_, ?_⟩
      · show List.Forall₂ _ w.queued []
        rw [hnos]
        exact List.Forall₂.nil
      · show w.told = w.queued.getLastD w.taskNo
        rw [hnos]
        exact htold
    · show w.taskNo = w.latest
      rw [← hcond hpass, htold]
      rfl

/-- The result of a repetition keeps all numbers. -/
theorem Ok.retransmitted {w : ServerWire} (h : w.Ok) (res : Except Error TargetTransportInfo) :
    Ok { w with server := w.server.retransmitted res } where
  held := by
    show ∀ r, (w.server.retransmitted res).activity.held = some r → _
    rw [(ServerTransaction.retransmitted_frame res w.server).2.2.1]
    exact h.held
  task task htask := by
    obtain ⟨task', htask', hresponse, hprovisionals, -⟩ :=
      ServerTransaction.handle_retransmitted htask
    have hok := h.task task' htask'
    refine ⟨?_, ?_, hok.told⟩
    · rw [hresponse]
      exact hok.response
    · rw [hprovisionals]
      exact hok.queued
  wire := h.wire
  ascending := h.ascending
  latest := h.latest
  inFlight := by
    rintro ⟨hsending, -⟩
    obtain ⟨task, htask, htrue⟩ := (Option.any_eq_true _ _).mp hsending
    obtain ⟨-, -, -, -, hidle⟩ := ServerTransaction.handle_retransmitted htask
    exact absurd (htrue.symm.trans hidle) (by decide)

/-- A call that starts, or is refused. -/
theorem Ok.call {w : ServerWire} (h : w.Ok) {e : ServerEvent} (he : ServerTransaction.Gives e) :
    (w.step (.server e)).Ok := by
  -- a call that the transaction does not take leaves the wire as it is
  cases e with
  | sendProvisionalResponse response =>
    simp only [ServerWire.step, note, ServerTransaction.step,
      ServerTransaction.sendProvisionalResponse]
    by_cases hidle : w.server.activity = .idle
    · simp only [hidle, true_and, if_true]
      by_cases hcode : response.code.isProvisional
      · simp only [hcode, if_true]
        exact h.give rfl rfl
      · simp only [if_neg hcode]
        exact h.server (.of_eq rfl) fun _ htask => htask
    · simp only [hidle, false_and, if_false]
      exact h
  | sendFinalResponse response =>
    simp only [ServerWire.step, note, ServerTransaction.step, ServerTransaction.sendFinalResponse]
    by_cases hidle : w.server.activity = .idle
    · simp only [hidle, true_and, if_true]
      by_cases hcode : response.code.isFinal
      · simp only [hcode, if_true]
        exact h.give rfl rfl
      · simp only [if_neg hcode]
        exact h.server (.of_none rfl) fun _ htask => htask
    · simp only [hidle, false_and, if_false]
      exact h
  | _ => cases he

/-- The end of a transmission of a call, or of the task that repeats the final response. -/
theorem Ok.sent {w : ServerWire} (h : w.Ok) {target : TargetTransportInfo}
    (hcond : w.CallToHand → ¬ w.TaskToHand) : (w.step (.server (.sent (.ok target)))).Ok := by
  have hhanded := h.callHands hcond
  have hserver := w.callHands_server
  by_cases hactivity : ∃ response, w.server.activity = .sendingProvisional response
  · obtain ⟨response, hactivity⟩ := hactivity
    simp only [ServerWire.step, note, hactivity, ServerTransaction.step]
    rw [← hserver] at hactivity ⊢
    exact hhanded.tell hactivity target
  · have hother : ∀ response, w.server.activity ≠ .sendingProvisional response :=
      fun response heq => hactivity ⟨response, heq⟩
    have hnote : w.note (.sent (.ok target)) = { w.callHands with callHanded := false } := by
      unfold note
      dsimp only
      split
      · next response heq => exact absurd heq (hother response)
      · rfl
    rw [ServerWire.step, hnote]
    refine hhanded.server ?_ fun task htask => ?_
    · rw [hserver]
      exact ServerTransaction.heldFrom_sent _ _
    · rw [hserver, ← ServerTransaction.handle_sent (.ok target) hother]
      exact htask

/-- **What every step that is in turn keeps.** -/
theorem Ok.step {w : ServerWire} (h : w.Ok) {e : WireEvent} (hcond : w.InTurn e) :
    (w.step e).Ok := by
  cases e with
  | callHands => exact h.callHands hcond
  | taskHands => exact h.taskHands
  | server e =>
    by_cases hgives : ServerTransaction.Gives e
    · exact h.call hgives
    · by_cases hmoves : ServerTransaction.MovesTask e
      · -- a pass of the task, or what was sent
        cases e with
        | pollTask => exact h.pollTask hcond
        | sent res =>
          cases res with
          | ok target => exact h.sent hcond
          | error e => cases hmoves
        | retransmitted res =>
          cases res with
          | ok target =>
            have hhanded := h.taskHands.retransmitted (.ok target)
            rw [taskHands_server] at hhanded
            exact hhanded
          | error e => exact h.retransmitted (.error e)
        | _ => cases hmoves
      · -- the other steps give nothing, and tell the task of nothing
        have hheld := ServerTransaction.heldFrom_step w.server hgives
        have htask : ∀ task, (w.server.step e).provisionalRetransHandle = some task →
            w.server.provisionalRetransHandle = some task :=
          fun _ => ServerTransaction.handle_step hmoves
        cases e with
        | sendProvisionalResponse _ => exact absurd trivial hgives
        | sendFinalResponse _ => exact absurd trivial hgives
        | pollTask => exact absurd trivial hmoves
        | retransmitted _ => exact absurd trivial hmoves
        | sent res =>
          cases res with
          | ok target => exact absurd trivial hmoves
          | error e => exact h.server hheld htask
        | _ => exact h.server hheld htask

/-- Under the invariant the numbers handed over do not go back. -/
theorem Ok.forward {w : ServerWire} (h : w.Ok) : w.Forward :=
  ⟨h.ascending, fun p hp => (h.wire p hp).1⟩

/-- At the start no response was given. -/
theorem ok_fromRequest {request : IncomingRequest} {now : Nat} {s : ServerTransaction}
    (h : ServerTransaction.fromRequest request now = some s) : Ok { server := s } := by
  unfold ServerTransaction.fromRequest at h
  split_ifs at h
  obtain ⟨key, -, rfl⟩ := Option.map_eq_some_iff.mp h
  refine ⟨fun r hr => ?_, fun task htask => ?_, fun _ hp => ?_, List.Pairwise.nil, le_refl _, ?_⟩
  · cases hr
  · cases htask
  · cases hp
  · rintro ⟨hsending, -⟩
    cases hsending

/-- **Responses do not go back.** In every run of a server transaction in which no call hands its
    response over while the provisional task has one to hand over, and the task reads no message
    before it was told of all that was handed over, the responses get to the transport in the
    order in which the user gave them, each of them perhaps many times. -/
theorem run_forward {request : IncomingRequest} {now : Nat} {s : ServerTransaction}
    (h : ServerTransaction.fromRequest request now = some s) {es : List WireEvent}
    (hes : Meets step InTurn { server := s } es) : Always step Forward { server := s } es :=
  always_of_meets (fun _ _ hok hcond => hok.step hcond) (fun _ hok => hok.forward)
    (ok_fromRequest h) hes

/-- **A run is a run of the transaction**, which does not see when responses are handed over. -/
theorem run_server (w : ServerWire) (es : List WireEvent) :
    (w.run es).server = w.server.run (es.filterMap fun
      | .server e => some e
      | .callHands | .taskHands => none) := by
  induction es generalizing w with
  | nil => rfl
  | cons e es ih =>
    rw [run, exec_cons]
    cases e with
    | server e => exact ih _
    | callHands => exact (ih _).trans (by rw [step, callHands_server]; rfl)
    | taskHands => exact (ih _).trans (by rw [step, taskHands_server]; rfl)

/-! ### An `INVITE` -/

/-- The start of the server transaction of an `INVITE`. -/
def invite : Option ServerWire :=
  (ServerTransaction.fromRequest (.fromLocalhost .invite none false) 0).map fun s => { server := s }

/-- A provisional response is given and repeated, and then the final one is given. -/
theorem run_forward_invite :
    ∃ s, ServerTransaction.fromRequest (.fromLocalhost .invite none false) 0 = some s ∧
      Always step Forward { server := s } [
        .server (.sendProvisionalResponse (.ofCode .ringing)), .callHands,
        .server (.sent (.ok ⟨SocketAddr.localhost, .localhost false⟩)),
        .server (.deliver (.request (.fromLocalhost .invite none false))),
        .server .pollTask, .taskHands,
        .server (.retransmitted (.ok ⟨SocketAddr.localhost, .localhost false⟩)),
        .server (.sendFinalResponse (.ofCode .busyHere)), .callHands] := by
  have hstart : ServerTransaction.fromRequest (.fromLocalhost .invite none false) 0 = some _ := rfl
  refine ⟨_, hstart, run_forward hstart ?_⟩
  refine ⟨trivial, fun _ h => ?_, fun h => ?_, trivial, fun _ => rfl, trivial, trivial, trivial,
    fun _ h => ?_, trivial⟩
  · cases h.1
  · cases h.2
  · cases h.1

/-- A retransmission is read between the hand-over of a response and the end of its call: an
    older response follows a newer one, and the final one. -/
theorem not_forward_invite :
    ¬ (∀ w, invite = some w → ∀ response, Forward (w.run [
        .server (.sendProvisionalResponse (.ofCode .trying)),
        .server (.sent (.ok ⟨SocketAddr.localhost, .localhost false⟩)),
        .server (.deliver (.request (.fromLocalhost .invite none false))),
        .server (.sendProvisionalResponse response), .callHands,
        .server .pollTask, .taskHands])) ∧
    ¬ (∀ w, invite = some w → ∀ response, Forward (w.run [
        .server (.sendProvisionalResponse (.ofCode .trying)),
        .server (.sent (.ok ⟨SocketAddr.localhost, .localhost false⟩)),
        .server (.deliver (.request (.fromLocalhost .invite none false))),
        .server (.sendFinalResponse response), .callHands,
        .server .pollTask, .taskHands])) := by
  refine ⟨fun h => ?_, fun h => ?_⟩
  · have hback := (h _ rfl (.ofCode .ringing)).ascending
    revert hback
    decide
  · have hback := (h _ rfl (.ofCode .ok)).ascending
    revert hback
    decide

end ServerWire

end Rssip
