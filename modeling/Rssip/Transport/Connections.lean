import Rssip.Lib.Machine
import Rssip.Lib.Registry
import Rssip.Transport.Outgoing

namespace Rssip

open Lib

/-!
# The table of connections

Connections are kept in a map, under their local address and their protocol.

* `TransportKey.ofConnection` — the key of a connection;
* `ConnectionTable` — the map, and the connections whose read loop runs;
* `run_mapped_iff` — when the map has the live connections and no others: no two of them have one
  key, and every read loop ends with the end of its stream.
-/

/-- What a transport is entered under: an address and a protocol. -/
structure TransportKey where
  socketAddr : SocketAddr
  protocol : TransportProtocol
deriving DecidableEq

/-- A connection that was made or accepted. -/
structure Connection where
  protocol : TransportProtocol
  localAddr : SocketAddr
  remoteAddr : SocketAddr
deriving DecidableEq

/-- The local address, which all connections of a listener share. -/
def TransportKey.ofConnection (c : Connection) : TransportKey := ⟨c.localAddr, c.protocol⟩

/-- How the read loop of a connection ends. -/
inductive ReadEnd where
  /-- The stream is at its end, or a `Close` has come. -/
  | disconnected
  /-- A frame is no message, or the stream fails. -/
  | readError
  /-- The answer to a keep-alive cannot be sent. -/
  | keepaliveError
deriving DecidableEq

/-- Only behind the loop the connection is removed; an error returns out of it. -/
def ReadEnd.removes : ReadEnd → Bool
  | disconnected => true
  | readError | keepaliveError => false

/-- A connection by its number. -/
abbrev ConnectionId := Nat

/-- The table of transports, and the connections behind it. -/
structure ConnectionTable where
  transports : TransportKey → Option ConnectionId := fun _ => none
  /-- The connections whose read loop runs. -/
  live : List (ConnectionId × Connection) := []
  /-- The number of connections so far. -/
  opened : ConnectionId := 0

/-- `opened` is the registration of a connection, with which its read loop starts, on either
    side. -/
inductive ConnectionEvent where
  | opened (c : Connection)
  | closed (id : ConnectionId) (how : ReadEnd)

namespace ConnectionTable

/-- A transport is entered; what had its key before is lost. -/
def registerTransport (key : TransportKey) (id : ConnectionId) (w : ConnectionTable) :
    ConnectionTable :=
  { w with transports := Function.update w.transports key (some id) }

/-- What is entered under the key is taken out, whichever connection it is. -/
def removeTransport (key : TransportKey) (w : ConnectionTable) : ConnectionTable :=
  { w with transports := Function.update w.transports key none }

/-- A new connection registers itself. -/
def establish (c : Connection) (w : ConnectionTable) : ConnectionTable :=
  { w.registerTransport (.ofConnection c) w.opened with
    live := (w.opened, c) :: w.live
    opened := w.opened + 1 }

/-- The read loop of a connection ends. -/
def close (id : ConnectionId) (how : ReadEnd) (w : ConnectionTable) : ConnectionTable :=
  match w.live.find? fun t => t.1 = id with
  | none => w
  | some t =>
    let w := if how.removes then w.removeTransport (.ofConnection t.2) else w
    { w with live := w.live.filter fun t => t.1 ≠ id }

/-- A connection is opened, or its read loop ends. -/
def step (w : ConnectionTable) : ConnectionEvent → ConnectionTable
  | .opened c => w.establish c
  | .closed id how => w.close id how

/-- The map has the live connections and no others. -/
structure Mapped (w : ConnectionTable) : Prop where
  listed : ∀ t ∈ w.live, w.transports (.ofConnection t.2) = some t.1
  backed : ∀ key id, w.transports key = some id →
    ∃ c, (id, c) ∈ w.live ∧ TransportKey.ofConnection c = key

/-- A new connection has a key of its own, and one that ends is removed. -/
def Separate (w : ConnectionTable) : ConnectionEvent → Prop
  | .opened c => ∀ t ∈ w.live, TransportKey.ofConnection t.2 ≠ .ofConnection c
  | .closed id how => (∃ t ∈ w.live, t.1 = id) → how.removes

/-! ### The table as a registry -/

/-- The map, and the keys of the live connections. -/
def registry (w : ConnectionTable) : Registry TransportKey ConnectionId where
  table := w.transports
  live := w.live.map fun t => (t.1, .ofConnection t.2)

theorem mem_registry {w : ConnectionTable} {id : ConnectionId} {key : TransportKey} :
    (id, key) ∈ w.registry.live ↔ ∃ c, (id, c) ∈ w.live ∧ TransportKey.ofConnection c = key := by
  rw [registry, List.mem_map]
  constructor
  · rintro ⟨⟨id', c⟩, hmem, heq⟩
    obtain ⟨rfl, rfl⟩ := Prod.mk.inj heq
    exact ⟨c, hmem, rfl⟩
  · rintro ⟨c, hmem, rfl⟩
    exact ⟨(id, c), hmem, rfl⟩

theorem mapped_iff {w : ConnectionTable} :
    w.Mapped ↔ w.registry.Listed ∧ w.registry.Backed := by
  constructor
  · rintro ⟨hlisted, hbacked⟩
    refine ⟨fun t ht => ?_, fun key id hentry => mem_registry.mpr (hbacked key id hentry)⟩
    obtain ⟨t', ht', rfl⟩ := List.mem_map.mp ht
    exact hlisted t' ht'
  · rintro ⟨hlisted, hbacked⟩
    refine ⟨fun t ht => ?_, fun key id hentry => mem_registry.mp (hbacked key id hentry)⟩
    exact hlisted _ (List.mem_map_of_mem ht)

/-- The numbers of the live connections. -/
structure Ok (w : ConnectionTable) : Prop where
  unique : w.registry.Unique
  bound : ∀ t ∈ w.live, t.1 < w.opened

theorem ok_start : ({} : ConnectionTable).Ok where
  unique _ h := nomatch h
  bound _ h := nomatch h

theorem registry_establish (c : Connection) (w : ConnectionTable) :
    (w.establish c).registry = w.registry.insert w.opened (.ofConnection c) := rfl

theorem Ok.fresh {w : ConnectionTable} (h : w.Ok) : ∀ t ∈ w.registry.live, t.1 ≠ w.opened := by
  intro t ht
  obtain ⟨t', ht', rfl⟩ := List.mem_map.mp ht
  exact Nat.ne_of_lt (h.bound t' ht')

/-- What the end of a read loop does. -/
theorem close_cases (id : ConnectionId) (how : ReadEnd) (w : ConnectionTable) :
    (∃ c, (id, c) ∈ w.live ∧
        (w.close id how).live = w.live.filter (fun t => t.1 ≠ id) ∧
        (w.close id how).opened = w.opened ∧
        (w.close id how).transports =
          if how.removes then Function.update w.transports (.ofConnection c) none
          else w.transports) ∨
      (∀ t ∈ w.live, t.1 ≠ id) ∧ w.close id how = w := by
  unfold close
  cases hfind : w.live.find? fun t => t.1 = id with
  | none =>
    refine .inr ⟨fun t ht hid => ?_, rfl⟩
    exact List.find?_eq_none.mp hfind t ht (decide_eq_true hid)
  | some t =>
    have hid := List.find?_some hfind
    simp only [decide_eq_true_eq] at hid
    subst hid
    refine .inl ⟨t.2, List.mem_of_find?_eq_some hfind, ?_, ?_, ?_⟩
    · cases how <;> rfl
    · cases how <;> rfl
    · cases how <;> rfl

/-- A connection that is removed when it ends leaves the registry. -/
theorem registry_close {w : ConnectionTable} {id : ConnectionId} {how : ReadEnd} {c : Connection}
    (hlive : (w.close id how).live = w.live.filter (fun t => t.1 ≠ id))
    (htransports : (w.close id how).transports =
      Function.update w.transports (.ofConnection c) none) :
    (w.close id how).registry = w.registry.remove id (.ofConnection c) := by
  unfold registry Registry.remove
  rw [hlive, htransports, List.filter_map]
  rfl

theorem Ok.step {w : ConnectionTable} (h : w.Ok) (e : ConnectionEvent) : (w.step e).Ok := by
  cases e with
  | opened c =>
    refine ⟨h.unique.insert _ h.fresh, fun t ht => ?_⟩
    rcases List.mem_cons.mp ht with rfl | hold
    · exact Nat.lt_succ_self _
    · exact Nat.lt_succ_of_lt (h.bound t hold)
  | closed id how =>
    rcases close_cases id how w with ⟨c, -, hlive, hopened, -⟩ | ⟨-, hsame⟩
    · constructor
      · intro t ht t' ht'
        obtain ⟨u, hu, rfl⟩ := List.mem_map.mp ht
        obtain ⟨u', hu', rfl⟩ := List.mem_map.mp ht'
        rw [show (w.step (.closed id how)).live = _ from hlive] at hu hu'
        exact h.unique _ (List.mem_map_of_mem (List.mem_filter.mp hu).1) _
          (List.mem_map_of_mem (List.mem_filter.mp hu').1)
      · intro t ht
        rw [show (w.step (.closed id how)).live = _ from hlive] at ht
        rw [show (w.step (.closed id how)).opened = _ from hopened]
        exact h.bound t (List.mem_filter.mp ht).1
    · rw [show w.step (.closed id how) = w from hsame]
      exact h

/-- In a map of the live connections a key is free exactly when none of them has it. -/
theorem Mapped.free_iff {w : ConnectionTable} (h : w.Mapped) (key : TransportKey) :
    w.transports key = none ↔ ∀ t ∈ w.live, TransportKey.ofConnection t.2 ≠ key := by
  constructor
  · rintro hfree t ht rfl
    rw [h.listed t ht] at hfree
    cases hfree
  · intro hall
    by_contra hne
    obtain ⟨id, hentry⟩ := Option.ne_none_iff_exists'.mp hne
    obtain ⟨c, hmem, hkey⟩ := h.backed key id hentry
    exact hall _ hmem hkey

theorem listed_close {w : ConnectionTable} (h : w.registry.Listed) (id : ConnectionId)
    (how : ReadEnd) : (w.close id how).registry.Listed := by
  rcases close_cases id how w with ⟨c, hmem, hlive, -, htransports⟩ | ⟨-, hsame⟩
  · by_cases hremoves : how.removes = true
    · rw [if_pos hremoves] at htransports
      rw [registry_close hlive htransports]
      exact h.remove (mem_registry.mpr ⟨c, hmem, rfl⟩)
    · rw [if_neg hremoves] at htransports
      intro t ht
      obtain ⟨c', hmem', hkey⟩ := mem_registry.mp ht
      rw [hlive] at hmem'
      show (w.close id how).transports t.2 = some t.1
      rw [htransports]
      exact h t (mem_registry.mpr ⟨c', (List.mem_filter.mp hmem').1, hkey⟩)
  · rw [hsame]
    exact h

/-- The end of a loop leaves no entry behind exactly when it removes the one that the connection
    is found by. -/
theorem backed_close_iff {w : ConnectionTable} (hok : w.Ok) (h : w.registry.Backed)
    (id : ConnectionId) (how : ReadEnd) :
    (w.close id how).registry.Backed ↔
      ((∃ t ∈ w.live, t.1 = id ∧ w.transports (.ofConnection t.2) = some id) → how.removes) := by
  rcases close_cases id how w with ⟨c, hmem, hlive, -, htransports⟩ | ⟨hnone, hsame⟩
  · have hreg : (id, TransportKey.ofConnection c) ∈ w.registry.live := mem_registry.mpr ⟨c, hmem, rfl⟩
    by_cases hremoves : how.removes = true
    · rw [if_pos hremoves] at htransports
      refine iff_of_true ?_ fun _ => hremoves
      rw [registry_close hlive htransports]
      exact h.remove hok.unique hreg
    · rw [if_neg hremoves] at htransports
      have hgone : ∀ key, (id, key) ∉ (w.close id how).registry.live := by
        intro key hin
        obtain ⟨c', hmem', -⟩ := mem_registry.mp hin
        rw [hlive, List.mem_filter] at hmem'
        simp at hmem'
      constructor
      · -- its entry would be that of no live connection
        rintro hbacked ⟨t, ht, rfl, hentry⟩
        have hentry' : (w.close t.1 how).transports (.ofConnection t.2) = some t.1 := by
          rw [htransports]
          exact hentry
        exact absurd (hbacked _ _ hentry') (hgone _)
      · intro hnot key id' hentry
        have hkept : (w.close id how).transports key = some id' := hentry
        rw [htransports] at hkept
        obtain ⟨c', hmem', hkey⟩ := mem_registry.mp (h key id' hkept)
        refine mem_registry.mpr ⟨c', ?_, hkey⟩
        rw [hlive, List.mem_filter]
        refine ⟨hmem', decide_eq_true fun heq => hremoves (hnot ?_)⟩
        -- the entry is not that of the connection that ends
        have heq : id' = id := heq
        subst heq
        exact ⟨_, hmem', rfl, by rw [hkey]; exact hkept⟩
  · rw [hsame]
    exact iff_of_true h fun ⟨t, ht, hid, _⟩ => absurd hid (hnone t ht)

theorem mapped_closed_iff {w : ConnectionTable} (hok : w.Ok) (h : w.Mapped) (id : ConnectionId)
    (how : ReadEnd) : (w.close id how).Mapped ↔ w.Separate (.closed id how) := by
  obtain ⟨hlisted, hbacked⟩ := mapped_iff.mp h
  rw [mapped_iff, and_iff_right (listed_close hlisted id how), backed_close_iff hok hbacked]
  -- every live connection has its entry
  have hentry : ∀ t ∈ w.live, (t.1 = id ∧ w.transports (.ofConnection t.2) = some id) ↔ t.1 = id := by
    intro t ht
    refine and_iff_left_of_imp fun hid => ?_
    rw [h.listed t ht, hid]
  refine imp_congr_left (exists_congr fun t => and_congr_right (hentry t))

/-- **A step keeps the map** exactly when it keeps the connections separate. -/
theorem mapped_step_iff {w : ConnectionTable} (hok : w.Ok) (h : w.Mapped) (e : ConnectionEvent) :
    (w.step e).Mapped ↔ w.Separate e := by
  cases e with
  | opened c =>
    obtain ⟨hlisted, hbacked⟩ := mapped_iff.mp h
    rw [show w.step (.opened c) = w.establish c from rfl, mapped_iff, registry_establish,
      Registry.listed_insert_iff hbacked hlisted hok.fresh,
      and_iff_left (hbacked.insert _ _)]
    exact h.free_iff _
  | closed id how => exact mapped_closed_iff hok h id how

/-- **When the map has the live connections.** All along a run it has an entry for every live
    connection, and none for one that has ended, exactly when no connection is opened under the
    key of a live one, and none ends with an error. -/
theorem run_mapped_iff (es : List ConnectionEvent) :
    Always step Mapped {} es ↔ Meets step Separate {} es := by
  have hinv : ∀ (w : ConnectionTable) e, w.Ok → (w.step e).Ok := fun _ e h => h.step e
  have hstart : Mapped {} := ⟨fun _ h => (nomatch h), fun _ _ h => nomatch h⟩
  exact always_iff_meets hinv (fun _ e hok h => mapped_step_iff hok h e) ok_start hstart es

/-- A connection to a listener at `127.0.0.1:5060`. -/
def accepted (port : UInt16) : Connection where
  protocol := .tcp
  localAddr := SocketAddr.localhost
  remoteAddr := { SocketAddr.localhost with port := port }

/-- Of two connections to one listener only the second is in the map. -/
theorem not_run_mapped_accepted :
    ¬ Always step Mapped {} [.opened (accepted 40000), .opened (accepted 40001)] := by
  intro h
  have hentry := (h _ (List.prefix_refl _)).listed (0, accepted 40000)
    (List.mem_cons_of_mem _ List.mem_cons_self)
  cases hentry

end ConnectionTable

end Rssip
