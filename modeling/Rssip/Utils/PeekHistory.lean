import Rssip.Lib.Machine
import Rssip.Utils.PeekableReceiver

namespace Rssip

open Lib

/-!
# The order of received messages

A receiver that can peek has one message in front of its channel.  Its operations wait for the
channel at one place each, where they may be given up.

* `ReceiverOp.resume` — an operation goes on behind the wait;
* `PeekHistory` — a receiver, and the messages that were sent and returned so far;
* `run_fifo` — what was returned and what is still there is what was sent, in order.
-/

/-- An operation that waits for the channel. -/
inductive ReceiverOp (T : Type) where
  | recv
  | peek
  | recvIf (cond : T → Bool)

variable {T : Type}

namespace ReceiverOp

/-- The first poll of an operation. -/
def poll (c : PeekableReceiver T) : ReceiverOp T → Poll (Option T) × PeekableReceiver T
  | recv => c.pollRecv
  | peek => c.pollPeek
  | recvIf cond => c.pollRecvIf cond

/-- What an operation does with what comes from the channel. -/
def proceed (msg : Option T) (c : PeekableReceiver T) : ReceiverOp T → Option T × PeekableReceiver T
  | recv => (msg, c)
  | peek => (msg, { c with peeked := msg })
  | recvIf cond =>
    let c := { c with peeked := msg }
    match msg with
    | some matched => if cond matched then (some matched, { c with peeked := none }) else (none, c)
    | none => (none, c)

/-- A later poll, of an operation that waits for the channel. -/
def resume (c : PeekableReceiver T) (op : ReceiverOp T) : Poll (Option T) × PeekableReceiver T :=
  match c.rx.pollRecv with
  | (.ready msg, rx) =>
    let (res, c) := op.proceed msg { c with rx := rx }
    (.ready res, c)
  | (.pending, rx) => (.pending, { c with rx := rx })

/-- The message that an operation takes from the receiver; `peek` gives a reference to it. -/
def taken (res : Option T) : ReceiverOp T → Option T
  | recv | recvIf _ => res
  | peek => none

end ReceiverOp

/-- A receiver with what has been sent to it, what it has returned, and the operation that waits. -/
structure PeekHistory (T : Type) where
  receiver : PeekableReceiver T
  waiting : Option (ReceiverOp T) := none
  sent : List T
  returned : List T := []

/-- A step of the senders, or of the one who holds the receiver. -/
inductive ReceiverEvent (T : Type) where
  | send (msg : T)
  | close
  | call (op : ReceiverOp T)
  | poll
  | cancel
  | tryRecv

namespace PeekHistory

/-- A new receiver for a channel. -/
def start (rx : Receiver T) : PeekHistory T where
  receiver := { rx := rx }
  sent := rx.queue

/-- An operation has been polled. -/
def polled (op : ReceiverOp T) (out : Poll (Option T) × PeekableReceiver T) (w : PeekHistory T) :
    PeekHistory T :=
  match out.1 with
  | .pending => { w with receiver := out.2, waiting := some op }
  | .ready res =>
    { w with
      receiver := out.2
      waiting := none
      returned := w.returned ++ (op.taken res).toList }

/-- One step.  While an operation waits, it has the receiver for itself. -/
def step (w : PeekHistory T) : ReceiverEvent T → PeekHistory T
  | .send msg =>
    if w.receiver.closed then w
    else { w with receiver := w.receiver.send msg, sent := w.sent ++ [msg] }
  | .close => { w with receiver := w.receiver.close }
  | .call op =>
    match w.waiting with
    | some _ => w
    | none => w.polled op (op.poll w.receiver)
  | .poll =>
    match w.waiting with
    | some op => w.polled op (op.resume w.receiver)
    | none => w
  | .cancel => { w with waiting := none }
  | .tryRecv =>
    match w.waiting with
    | some _ => w
    | none =>
      let (res, c) := w.receiver.tryRecv
      { w with receiver := c, returned := w.returned ++ res.toOption.toList }

/-- The receiver and what it has given, after a list of operations. -/
def run (w : PeekHistory T) (es : List (ReceiverEvent T)) : PeekHistory T := exec step w es

/-- Nothing is lost, and an operation waits only where no message has been peeked. -/
structure Fifo (w : PeekHistory T) : Prop where
  order : w.returned ++ w.receiver.messages = w.sent
  waiting : w.waiting.isSome → w.receiver.peeked = none

end PeekHistory

namespace ReceiverOp

/-- Without a peeked message an operation waits at its start. -/
theorem resume_eq_poll {c : PeekableReceiver T} (h : c.peeked = none) (op : ReceiverOp T) :
    op.resume c = op.poll c := by
  obtain ⟨rx, peeked⟩ := c
  obtain rfl : peeked = none := h
  rcases rx.pollRecv_cases with ⟨msg, rest, -, hpoll⟩ | ⟨-, -, hpoll⟩ | ⟨-, -, hpoll⟩
  · cases op with
    | recv => simp [resume, poll, proceed, PeekableReceiver.pollRecv, hpoll]
    | peek => simp [resume, poll, proceed, PeekableReceiver.pollPeek, hpoll]
    | recvIf cond =>
      cases hcond : cond msg <;>
        simp [resume, poll, proceed, PeekableReceiver.pollPeek, PeekableReceiver.pollRecvIf, hpoll,
          hcond]
  all_goals
    cases op <;>
      simp [resume, poll, proceed, PeekableReceiver.pollRecv, PeekableReceiver.pollPeek,
        PeekableReceiver.pollRecvIf, hpoll]

/-- What a poll does to the messages: one that waits finds no message, and one that is ready has
    taken the message it gives. -/
structure Conserves (op : ReceiverOp T) (c : PeekableReceiver T)
    (out : Poll (Option T) × PeekableReceiver T) : Prop where
  pending : out.1 = .pending → out.2 = c ∧ c.peeked = none
  ready : ∀ res, out.1 = .ready res → (op.taken res).toList ++ out.2.messages = c.messages

theorem conserves_poll (op : ReceiverOp T) (c : PeekableReceiver T) :
    op.Conserves c (op.poll c) := by
  have hnone : c.messages = [] → c.peeked = none := fun h =>
    Option.toList_eq_nil_iff.mp (List.append_eq_nil_iff.mp h).1
  cases op with
  | recv =>
    rw [poll]
    rcases c.pollRecv_cases with ⟨msg, rest, c', hmessages, hpoll, hrest, -⟩ |
      ⟨hmessages, -, hpoll⟩ | ⟨hmessages, -, hpoll⟩
    · rw [hpoll]
      refine ⟨nofun, fun res hres => ?_⟩
      obtain rfl := Poll.ready.inj hres
      rw [hmessages, hrest]
      rfl
    · rw [hpoll]
      refine ⟨nofun, fun res hres => ?_⟩
      obtain rfl := Poll.ready.inj hres
      rfl
    · rw [hpoll]
      exact ⟨fun _ => ⟨rfl, hnone hmessages⟩, nofun⟩
  | peek =>
    rw [poll]
    rcases c.pollPeek_cases with ⟨msg, rest, c', -, hpoll, hrest⟩ | ⟨hmessages, -, hpoll⟩ |
      ⟨hmessages, -, hpoll⟩
    · rw [hpoll]
      exact ⟨nofun, fun _ _ => hrest⟩
    · rw [hpoll]
      exact ⟨nofun, fun _ _ => rfl⟩
    · rw [hpoll]
      exact ⟨fun _ => ⟨rfl, hnone hmessages⟩, nofun⟩
  | recvIf cond =>
    rw [poll]
    rcases c.pollRecvIf_cases cond with ⟨msg, rest, c', hmessages, -, hpoll, hrest, -⟩ |
      ⟨msg, rest, c', -, -, hpoll, hrest, -⟩ | ⟨hmessages, -, c', hpoll, hrest, -⟩ |
      ⟨hmessages, -, hpoll⟩
    · rw [hpoll]
      refine ⟨nofun, fun res hres => ?_⟩
      obtain rfl := Poll.ready.inj hres
      rw [hmessages, hrest]
      rfl
    · rw [hpoll]
      refine ⟨nofun, fun res hres => ?_⟩
      obtain rfl := Poll.ready.inj hres
      exact hrest
    · rw [hpoll]
      refine ⟨nofun, fun res hres => ?_⟩
      obtain rfl := Poll.ready.inj hres
      exact hrest.trans hmessages.symm
    · rw [hpoll]
      exact ⟨fun _ => ⟨rfl, hnone hmessages⟩, nofun⟩

end ReceiverOp

namespace PeekHistory

variable {w : PeekHistory T}

theorem Fifo.polled (h : w.Fifo) {op : ReceiverOp T} {out : Poll (Option T) × PeekableReceiver T}
    (hout : op.Conserves w.receiver out) : (w.polled op out).Fifo := by
  obtain ⟨polled, c⟩ := out
  cases polled with
  | pending =>
    obtain ⟨rfl, hpeeked⟩ := hout.pending rfl
    exact ⟨h.order, fun _ => hpeeked⟩
  | ready res =>
    refine ⟨?_, nofun⟩
    show w.returned ++ (op.taken res).toList ++ c.messages = w.sent
    rw [List.append_assoc, hout.ready res rfl]
    exact h.order

/-- **A step loses nothing.** -/
theorem Fifo.step (h : w.Fifo) (e : ReceiverEvent T) : (w.step e).Fifo := by
  cases e with
  | send msg =>
    simp only [PeekHistory.step]
    split
    · exact h
    · refine ⟨?_, h.waiting⟩
      show w.returned ++ (w.receiver.send msg).messages = w.sent ++ [msg]
      rw [PeekableReceiver.messages_send, ← List.append_assoc, h.order]
  | close => exact ⟨h.order, h.waiting⟩
  | cancel => exact ⟨h.order, nofun⟩
  | call op =>
    simp only [PeekHistory.step]
    split
    · exact h
    · exact h.polled (op.conserves_poll w.receiver)
  | poll =>
    simp only [PeekHistory.step]
    split
    · next op hwaiting =>
      have hpeeked : w.receiver.peeked = none := h.waiting (by rw [hwaiting]; rfl)
      rw [op.resume_eq_poll hpeeked]
      exact h.polled (op.conserves_poll w.receiver)
    · exact h
  | tryRecv =>
    simp only [PeekHistory.step]
    split
    · exact h
    · next hwaiting =>
      rcases w.receiver.tryRecv_cases with ⟨msg, c', hrecv, hmessages⟩ | ⟨-, e, hrecv⟩
      · rw [hrecv]
        refine ⟨?_, fun hsome => ?_⟩
        · show w.returned ++ [msg] ++ c'.messages = w.sent
          rw [List.append_assoc, ← h.order, hmessages]
          rfl
        · rw [hwaiting] at hsome
          cases hsome
      · rw [hrecv]
        refine ⟨?_, h.waiting⟩
        show w.returned ++ [] ++ w.receiver.messages = w.sent
        rw [List.append_nil, h.order]

theorem fifo_start (rx : Receiver T) : (start rx).Fifo := ⟨rfl, nofun⟩

/-- `recv_if` takes a message only if it returns it. -/
theorem messages_pollRecvIf (cond : T → Bool) (c : PeekableReceiver T) :
    (∃ msg, (c.pollRecvIf cond).1 = .ready (some msg) ∧ cond msg = true ∧
        c.messages = msg :: (c.pollRecvIf cond).2.messages) ∨
      (∀ msg, (c.pollRecvIf cond).1 ≠ .ready (some msg)) ∧
        (c.pollRecvIf cond).2.messages = c.messages := by
  rcases c.pollRecvIf_cases cond with ⟨msg, rest, c', hmessages, hcond, hpoll, hrest, -⟩ |
    ⟨msg, rest, c', -, -, hpoll, hrest, -⟩ | ⟨hmessages, -, c', hpoll, hrest, -⟩ |
    ⟨hmessages, -, hpoll⟩
  · rw [hpoll, hmessages, hrest]
    exact .inl ⟨msg, rfl, hcond, rfl⟩
  · rw [hpoll]
    exact .inr ⟨fun _ => by simp, hrest⟩
  · rw [hpoll]
    exact .inr ⟨fun _ => by simp, hrest.trans hmessages.symm⟩
  · rw [hpoll]
    exact .inr ⟨fun _ => by simp, rfl⟩

/-- **The order of received messages.** After every run the messages that were returned, the peeked
    one and those in the channel are those that were sent, in order.  An operation that waits goes
    on as if it were called anew, and `recv_if` takes a message only if it returns it. -/
theorem run_fifo (rx : Receiver T) (es : List (ReceiverEvent T)) :
    let w := (start rx).run es
    w.returned ++ w.receiver.peeked.toList ++ w.receiver.rx.queue = w.sent ∧
      (∀ op ∈ w.waiting, op.resume w.receiver = op.poll w.receiver) ∧
      ∀ cond,
        (∃ msg, (w.receiver.pollRecvIf cond).1 = .ready (some msg) ∧ cond msg = true ∧
            w.receiver.messages = msg :: (w.receiver.pollRecvIf cond).2.messages) ∨
          (∀ msg, (w.receiver.pollRecvIf cond).1 ≠ .ready (some msg)) ∧
            (w.receiver.pollRecvIf cond).2.messages = w.receiver.messages := by
  intro w
  have hfifo : w.Fifo := exec_invariant (fun _ e h => h.step e) (fifo_start rx) es
  refine ⟨?_, fun op hop => ?_, fun cond => messages_pollRecvIf cond w.receiver⟩
  · rw [List.append_assoc]
    exact hfifo.order
  · exact op.resume_eq_poll (hfifo.waiting (Option.isSome_of_mem hop))

end PeekHistory

end Rssip
