import Mathlib.Algebra.Group.Nat.Defs
import Mathlib.Data.List.Chain
import Mathlib.Order.Basic

namespace Rssip

/-!
# Transaction states and their notification

The state of a transaction and the broadcast that tells subscribers about its changes.

* `T1`, `T2`, `T4` — the timers, in milliseconds;
* `State` — the states, in the order the derived comparison gives them;
* `StateMachine` — the state, its history and the subscribers;
* `Subscriber.InStep` — a subscriber has, or will, receive every change since it
  subscribed, in order; kept by every operation while the changes fit the broadcast buffer.
-/

/-- The estimated round-trip time. -/
def T1 : Nat := 500

/-- The longest interval between retransmissions. -/
def T2 : Nat := 4000

/-- The longest time a message stays in the network. -/
def T4 : Nat := 5000

/-- The gap before a repetition that comes after `k` others. -/
def retransGap (k : Nat) : Nat := min (2 ^ k * T1) T2

/-- The first gap is the round-trip time. -/
theorem retransGap_zero : retransGap 0 = T1 := by decide

/-- Each gap is twice the one before, up to the longest. -/
theorem retransGap_succ (k : Nat) : min (retransGap k * 2) T2 = retransGap (k + 1) := by
  unfold retransGap
  rw [Nat.pow_succ, Nat.mul_right_comm]
  omega

/-- The states of a transaction. -/
inductive State where
  | calling
  | trying
  | proceeding
  | completed
  | confirmed
  | terminated
deriving DecidableEq

/-- The place of a state in the derived order. -/
def State.rank : State → Nat
  | calling => 0
  | trying => 1
  | proceeding => 2
  | completed => 3
  | confirmed => 4
  | terminated => 5

instance : Preorder State := Preorder.lift State.rank
instance (s t : State) : Decidable (s ≤ t) := inferInstanceAs (Decidable (s.rank ≤ t.rank))
instance (s t : State) : Decidable (s < t) := inferInstanceAs (Decidable (s.rank < t.rank))

/-! ### The state machine -/

/-- The capacity of the broadcast channel.  The channel is asked for six and rounds up to the
    next power of two. -/
def broadcastCapacity : Nat := 8

/-- A receiver of state changes: what it has received, what is buffered for it, and whether it
    fell so far behind that changes were dropped.  `since` counts the states it was too late
    for. -/
structure Subscriber where
  since : Nat
  received : List State := []
  buffer : List State := []
  lagged : Bool := false
deriving DecidableEq

/-- A change is broadcast: a full buffer loses its oldest value. -/
def Subscriber.push (state : State) (sub : Subscriber) : Subscriber :=
  if sub.buffer.length < broadcastCapacity then { sub with buffer := sub.buffer ++ [state] }
  else { sub with buffer := sub.buffer.tail ++ [state], lagged := true }

/-- The subscriber receives the oldest buffered change. -/
def Subscriber.recv (sub : Subscriber) : Subscriber :=
  match sub.buffer with
  | [] => sub
  | state :: buffer => { sub with received := sub.received ++ [state], buffer := buffer }

/-- A change that is broadcast does not move the start of a subscription. -/
@[simp] theorem Subscriber.since_push (state : State) (sub : Subscriber) :
    (sub.push state).since = sub.since := by
  unfold push
  split <;> rfl

/-- To read a change does not move the start of a subscription. -/
@[simp] theorem Subscriber.since_recv (sub : Subscriber) : sub.recv.since = sub.since := by
  unfold recv
  split <;> rfl

/-- The state of a transaction with the states it went through, the first one included. -/
structure StateMachine where
  state : State
  history : List State
  subscribers : List Subscriber := []
deriving DecidableEq

namespace StateMachine

/-- A machine in a state, with nobody to tell. -/
def new (state : State) : StateMachine := { state := state, history := [state] }

/-- The machine goes to a state, also if it is in it already, and all subscribers are told. -/
def setState (state : State) (m : StateMachine) : StateMachine :=
  { state := state
    history := m.history ++ [state]
    subscribers := m.subscribers.map (Subscriber.push state) }

/-- A subscriber is told what comes from now on. -/
def subscribeState (m : StateMachine) : StateMachine :=
  { m with subscribers := m.subscribers ++ [{ since := m.history.length }] }

/-- The subscriber `i` receives. -/
def recv (i : Nat) (m : StateMachine) : StateMachine :=
  { m with
    subscribers := m.subscribers.mapIdx fun j sub => if j = i then sub.recv else sub }

/-- A state that is set is added to the history, also if it is the same again. -/
@[simp] theorem state_new (s : State) : (new s).state = s := rfl
@[simp] theorem history_new (s : State) : (new s).history = [s] := rfl
@[simp] theorem state_setState (s : State) (m : StateMachine) : (m.setState s).state = s := rfl
@[simp] theorem history_setState (s : State) (m : StateMachine) :
    (m.setState s).history = m.history ++ [s] := rfl

/-- A subscription does not change the history. -/
@[simp] theorem state_subscribeState (m : StateMachine) : m.subscribeState.state = m.state := rfl
@[simp] theorem history_subscribeState (m : StateMachine) :
    m.subscribeState.history = m.history := rfl

/-- To read a change does not change the history. -/
@[simp] theorem state_recv (i : Nat) (m : StateMachine) : (m.recv i).state = m.state := rfl
@[simp] theorem history_recv (i : Nat) (m : StateMachine) : (m.recv i).history = m.history := rfl

end StateMachine

/-! ### Subscribers -/

/-- What the subscriber received and what is buffered for it are the changes since it
    subscribed, in order. -/
structure Subscriber.InStep (history : List State) (sub : Subscriber) : Prop where
  changes : sub.received ++ sub.buffer = history.drop sub.since
  since_le : sub.since ≤ history.length
  notLagged : sub.lagged = false

/-- A subscriber with room in its buffer stays in step with a change. -/
theorem Subscriber.InStep.push {history : List State} {sub : Subscriber} (h : sub.InStep history)
    {state : State} (hlen : history.length - sub.since < broadcastCapacity) :
    (sub.push state).InStep (history ++ [state]) := by
  have hle := h.since_le
  have hbuffer : sub.buffer.length < broadcastCapacity := by
    have hcount := congrArg List.length h.changes
    rw [List.length_append, List.length_drop] at hcount
    omega
  rw [Subscriber.push, if_pos hbuffer]
  refine ⟨?_, ?_, h.notLagged⟩
  · show sub.received ++ (sub.buffer ++ [state]) = _
    rw [← List.append_assoc, h.changes, List.drop_append_of_le_length hle]
  · rw [List.length_append]
    exact Nat.le_add_right_of_le hle

/-- A subscriber that reads a change stays in step. -/
theorem Subscriber.InStep.recv {history : List State} {sub : Subscriber}
    (h : sub.InStep history) : sub.recv.InStep history := by
  unfold Subscriber.recv
  cases hbuffer : sub.buffer with
  | nil => exact h
  | cons state buffer =>
    refine ⟨?_, h.since_le, h.notLagged⟩
    rw [← h.changes, hbuffer, List.append_assoc]
    rfl

namespace StateMachine

/-- The current state ends the history, and every subscriber is in step with it. -/
structure Ok (m : StateMachine) : Prop where
  last : m.history.getLast? = some m.state
  inStep : ∀ sub ∈ m.subscribers, sub.InStep m.history
  first : ∀ sub ∈ m.subscribers, 0 < sub.since

/-- A new machine is in order. -/
theorem ok_new (s : State) : (new s).Ok where
  last := rfl
  inStep := by simp [new]
  first := by simp [new]

/-- As many changes as the channel holds are all broadcast in time. -/
theorem Ok.setState {m : StateMachine} (h : m.Ok) (hlen : m.history.length ≤ broadcastCapacity)
    (s : State) : (m.setState s).Ok where
  last := by simp
  inStep := by
    intro sub hsub
    obtain ⟨sub, hmem, rfl⟩ := List.mem_map.mp hsub
    have hpos := h.first sub hmem
    have hle := (h.inStep sub hmem).since_le
    -- the first state of the history was never broadcast
    exact (h.inStep sub hmem).push (by omega)
  first := by
    intro sub hsub
    obtain ⟨sub, hmem, rfl⟩ := List.mem_map.mp hsub
    rw [Subscriber.since_push]
    exact h.first sub hmem

/-- A new subscriber is in step: nothing has changed since. -/
theorem Ok.subscribeState {m : StateMachine} (h : m.Ok) : m.subscribeState.Ok where
  last := h.last
  inStep := by
    intro sub hsub
    rcases List.mem_append.mp hsub with hmem | hmem
    · exact h.inStep sub hmem
    · rw [List.mem_singleton.mp hmem]
      exact ⟨by simp, le_refl _, rfl⟩
  first := by
    intro sub hsub
    rcases List.mem_append.mp hsub with hmem | hmem
    · exact h.first sub hmem
    · rw [List.mem_singleton.mp hmem]
      refine List.length_pos_iff.mpr fun hnil => ?_
      have hlast := h.last
      rw [hnil] at hlast
      simp at hlast

/-- To read a change keeps the machine in order. -/
theorem Ok.recv {m : StateMachine} (h : m.Ok) (i : Nat) : (m.recv i).Ok where
  last := h.last
  inStep := by
    intro sub hsub
    obtain ⟨j, hj, rfl⟩ := List.mem_mapIdx.mp hsub
    have hold := h.inStep _ (List.getElem_mem hj)
    split
    · exact hold.recv
    · exact hold
  first := by
    intro sub hsub
    obtain ⟨j, hj, rfl⟩ := List.mem_mapIdx.mp hsub
    have hold := h.first _ (List.getElem_mem hj)
    split
    · rw [Subscriber.since_recv]
      exact hold
    · exact hold

end StateMachine

end Rssip
