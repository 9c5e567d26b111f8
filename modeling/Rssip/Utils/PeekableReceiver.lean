import Mathlib.Data.List.Basic

namespace Rssip

/-!
# Receivers that can peek

The receiving half of a channel, and one with a message of look-ahead, `PeekableReceiver` of
`rssip-utils`.  The operations are the polls of the asynchronous ones.

* `Poll` — the result of polling a future;
* `Receiver` — the receiving half of a channel;
* `pollPeek`, `pollRecv`, `pollRecvIf` — one poll of `peek`, `recv` and `recv_if`;
* `tryRecv` — a receive that does not wait.
-/

/-- The result of polling a future. -/
inductive Poll (α : Type) where
  | ready (a : α)
  | pending
deriving DecidableEq

/-- The receiving half of a channel: the messages in it, and whether every sender is gone. -/
structure Receiver (T : Type) where
  queue : List T := []
  closed : Bool := false
deriving DecidableEq

/-- A receiver with one message taken out to look at. -/
structure PeekableReceiver (T : Type) where
  rx : Receiver T := {}
  peeked : Option T := none
deriving DecidableEq

variable {T : Type}

namespace Receiver

/-- A message enters the channel. -/
def send (msg : T) (rx : Receiver T) : Receiver T := { rx with queue := rx.queue ++ [msg] }

/-- The last sender is gone. -/
def close (rx : Receiver T) : Receiver T := { rx with closed := true }

/-- One poll of `recv`. -/
def pollRecv (rx : Receiver T) : Poll (Option T) × Receiver T :=
  match rx.queue with
  | msg :: queue => (.ready (some msg), { rx with queue := queue })
  | [] => if rx.closed then (.ready none, rx) else (.pending, rx)

/-- Why `try_recv` gives no message. -/
inductive TryRecvError where
  | empty
  | disconnected
deriving DecidableEq

/-- A message, if there is one; an error says whether there may still come one. -/
def tryRecv (rx : Receiver T) : Except TryRecvError T × Receiver T :=
  match rx.queue with
  | msg :: queue => (.ok msg, { rx with queue := queue })
  | [] => (.error (if rx.closed then .disconnected else .empty), rx)

/-- **What a poll of `recv` does**, by the messages in the channel. -/
theorem pollRecv_cases (rx : Receiver T) :
    (∃ msg rest, rx.queue = msg :: rest ∧
        rx.pollRecv = (.ready (some msg), { rx with queue := rest })) ∨
      (rx.queue = [] ∧ rx.closed = true ∧ rx.pollRecv = (.ready none, rx)) ∨
      (rx.queue = [] ∧ rx.closed = false ∧ rx.pollRecv = (.pending, rx)) := by
  obtain ⟨queue, closed⟩ := rx
  cases queue with
  | cons msg queue => exact .inl ⟨msg, queue, rfl, rfl⟩
  | nil =>
    cases closed with
    | true => exact .inr (.inl ⟨rfl, rfl, rfl⟩)
    | false => exact .inr (.inr ⟨rfl, rfl, rfl⟩)

end Receiver

namespace PeekableReceiver

/-- A message comes into the channel. -/
def send (msg : T) (c : PeekableReceiver T) : PeekableReceiver T := { c with rx := c.rx.send msg }

/-- The senders are gone. -/
def close (c : PeekableReceiver T) : PeekableReceiver T := { c with rx := c.rx.close }

/-- The senders are gone; messages may be left. -/
def closed (c : PeekableReceiver T) : Bool := c.rx.closed

/-- The messages not received yet, in order. -/
def messages (c : PeekableReceiver T) : List T := c.peeked.toList ++ c.rx.queue

/-- One poll of `recv`. -/
def pollRecv (c : PeekableReceiver T) : Poll (Option T) × PeekableReceiver T :=
  match c.peeked with
  | some msg => (.ready (some msg), { c with peeked := none })
  | none =>
    let (msg, rx) := c.rx.pollRecv
    (msg, { c with rx := rx })

/-- The message that was looked at, or the next one of the channel. -/
def tryRecv (c : PeekableReceiver T) : Except Receiver.TryRecvError T × PeekableReceiver T :=
  match c.peeked with
  | some msg => (.ok msg, { c with peeked := none })
  | none =>
    let (res, rx) := c.rx.tryRecv
    (res, { c with rx := rx })

/-- One poll of `peek`. -/
def pollPeek (c : PeekableReceiver T) : Poll (Option T) × PeekableReceiver T :=
  match c.peeked with
  | some msg => (.ready (some msg), c)
  | none =>
    match c.rx.pollRecv with
    | (.ready msg, rx) => (.ready msg, { rx := rx, peeked := msg })
    | (.pending, rx) => (.pending, { c with rx := rx })

/-- One poll of `recv_if`: the next message if it satisfies `cond`, no message if it does
    not, or if there is none to come. -/
def pollRecvIf (cond : T → Bool) (c : PeekableReceiver T) :
    Poll (Option T) × PeekableReceiver T :=
  match c.pollPeek with
  | (.ready (some msg), c) =>
    if cond msg then (.ready (some msg), { c with peeked := none }) else (.ready none, c)
  | (.ready none, c) => (.ready none, c)
  | (.pending, c) => (.pending, c)

@[simp] theorem messages_send (msg : T) (c : PeekableReceiver T) :
    (c.send msg).messages = c.messages ++ [msg] := by
  simp [messages, send, Receiver.send]

@[simp] theorem closed_send (msg : T) (c : PeekableReceiver T) :
    (c.send msg).closed = c.closed := rfl

/-- **What a poll of `recv_if` does**, by the messages not received yet. -/
theorem pollRecvIf_cases (cond : T → Bool) (c : PeekableReceiver T) :
    (∃ msg rest c', c.messages = msg :: rest ∧ cond msg = true ∧
        c.pollRecvIf cond = (.ready (some msg), c') ∧ c'.messages = rest ∧
        c'.closed = c.closed) ∨
      (∃ msg rest c', c.messages = msg :: rest ∧ cond msg = false ∧
        c.pollRecvIf cond = (.ready none, c') ∧ c'.messages = c.messages ∧
        c'.closed = c.closed) ∨
      (c.messages = [] ∧ c.closed = true ∧
        ∃ c', c.pollRecvIf cond = (.ready none, c') ∧ c'.messages = [] ∧ c'.closed = true) ∨
      (c.messages = [] ∧ c.closed = false ∧ c.pollRecvIf cond = (.pending, c)) := by
  obtain ⟨⟨queue, closed⟩, peeked⟩ := c
  -- a message that was put back comes before the queue
  cases peeked with
  | some msg =>
    cases hcond : cond msg with
    | true => exact .inl ⟨msg, queue, ⟨⟨queue, closed⟩, none⟩, rfl, hcond,
        by simp [pollRecvIf, pollPeek, hcond], rfl, rfl⟩
    | false => exact .inr (.inl ⟨msg, queue, ⟨⟨queue, closed⟩, some msg⟩, rfl, hcond,
        by simp [pollRecvIf, pollPeek, hcond], rfl, rfl⟩)
  | none =>
    cases queue with
    | cons msg queue =>
      cases hcond : cond msg with
      | true => exact .inl ⟨msg, queue, ⟨⟨queue, closed⟩, none⟩, rfl, hcond,
          by simp [pollRecvIf, pollPeek, Receiver.pollRecv, hcond], rfl, rfl⟩
      | false => exact .inr (.inl ⟨msg, queue, ⟨⟨queue, closed⟩, some msg⟩, rfl, hcond,
          by simp [pollRecvIf, pollPeek, Receiver.pollRecv, hcond], rfl, rfl⟩)
    | nil =>
      cases closed with
      | true => exact .inr (.inr (.inl ⟨rfl, rfl, ⟨⟨[], true⟩, none⟩,
          by simp [pollRecvIf, pollPeek, Receiver.pollRecv], rfl, rfl⟩))
      | false => exact .inr (.inr (.inr ⟨rfl, rfl,
          by simp [pollRecvIf, pollPeek, Receiver.pollRecv]⟩))

/-- **What a poll of `recv` does**, by the messages not received yet. -/
theorem pollRecv_cases (c : PeekableReceiver T) :
    (∃ msg rest c', c.messages = msg :: rest ∧ c.pollRecv = (.ready (some msg), c') ∧
        c'.messages = rest ∧ c'.closed = c.closed) ∨
      (c.messages = [] ∧ c.closed = true ∧ c.pollRecv = (.ready none, c)) ∨
      (c.messages = [] ∧ c.closed = false ∧ c.pollRecv = (.pending, c)) := by
  obtain ⟨⟨queue, closed⟩, peeked⟩ := c
  cases peeked with
  | some msg => exact .inl ⟨msg, queue, ⟨⟨queue, closed⟩, none⟩, rfl, rfl, rfl, rfl⟩
  | none =>
    cases queue with
    | cons msg queue => exact .inl ⟨msg, queue, ⟨⟨queue, closed⟩, none⟩, rfl, rfl, rfl, rfl⟩
    | nil =>
      cases closed with
      | true => exact .inr (.inl ⟨rfl, rfl, rfl⟩)
      | false => exact .inr (.inr ⟨rfl, rfl, rfl⟩)

/-- **What a poll of `peek` does**, by the messages not received yet. -/
theorem pollPeek_cases (c : PeekableReceiver T) :
    (∃ msg rest c', c.messages = msg :: rest ∧ c.pollPeek = (.ready (some msg), c') ∧
        c'.messages = c.messages) ∨
      (c.messages = [] ∧ c.closed = true ∧ c.pollPeek = (.ready none, c)) ∨
      (c.messages = [] ∧ c.closed = false ∧ c.pollPeek = (.pending, c)) := by
  obtain ⟨⟨queue, closed⟩, peeked⟩ := c
  cases peeked with
  | some msg => exact .inl ⟨msg, queue, ⟨⟨queue, closed⟩, some msg⟩, rfl, rfl, rfl⟩
  | none =>
    cases queue with
    | cons msg queue => exact .inl ⟨msg, queue, ⟨⟨queue, closed⟩, some msg⟩, rfl, rfl, rfl⟩
    | nil =>
      cases closed with
      | true => exact .inr (.inl ⟨rfl, rfl, rfl⟩)
      | false => exact .inr (.inr ⟨rfl, rfl, rfl⟩)

/-- **What `try_recv` does**, by the messages not received yet. -/
theorem tryRecv_cases (c : PeekableReceiver T) :
    (∃ msg c', c.tryRecv = (.ok msg, c') ∧ c.messages = msg :: c'.messages) ∨
      (c.messages = [] ∧ ∃ e, c.tryRecv = (.error e, c)) := by
  obtain ⟨⟨queue, closed⟩, peeked⟩ := c
  cases peeked with
  | some msg => exact .inl ⟨msg, ⟨⟨queue, closed⟩, none⟩, rfl, rfl⟩
  | none =>
    cases queue with
    | cons msg queue => exact .inl ⟨msg, ⟨⟨queue, closed⟩, none⟩, rfl, rfl⟩
    | nil => exact .inr ⟨rfl, _, rfl⟩

end PeekableReceiver

end Rssip
