import Rssip.Transport.Connections

namespace Rssip

open Lib

/-!
# The choice of a transport

A transport is looked up by the address that a message goes to, and a connection is opened when
there is none.  A connection is kept under its own address.

* `TransportLayer.selectTransport` — the lookup, and what is opened after it;
* `TransportLayer.step` — connections are looked for, made, accepted and ended in any order;
* `Reused` — the connections that were opened are found under the addresses they lead to;
* `run_reused_iff` — the runs in which they are.
-/

/-- What `select_transport` does: it returns a transport, or opens a connection. -/
inductive Selected where
  | transport (id : ConnectionId)
  | connect (socketAddr : SocketAddr)
  | connectWebSocket (socketAddr : SocketAddr) (secure : Bool)
  | unsupported
deriving DecidableEq

/-- The table, the addresses that are being connected to, and the connections that were opened,
    each with the address it was opened for. -/
structure TransportLayer where
  table : ConnectionTable := {}
  connecting : List SocketAddr := []
  dialled : List (ConnectionId × SocketAddr) := []

/-- The steps of a run.  `connected` and `failed` end the connect at the given place; `other` is
    the accept of a connection, its opening as a WebSocket, or the end of any connection. -/
inductive TransportEvent where
  | select (socketAddr : SocketAddr) (protocol : TransportProtocol)
      (existing : Option ConnectionId)
  | connected (i : Nat) (localAddr remoteAddr : SocketAddr)
  | failed (i : Nat)
  | other (e : ConnectionEvent)

namespace TransportLayer

/-- The transport of a key.  `existing` is what a search of the map finds, which is made for
    protocols without connections only. -/
def getTransport (existing : Option ConnectionId) (key : TransportKey) (w : TransportLayer) :
    Option ConnectionId :=
  match w.table.transports key with
  | some transport => some transport
  | none => if key.protocol.isReliable then none else existing

/-- A transport that is there, or the connection that has to be made. -/
def selectTransport (existing : Option ConnectionId) (socketAddr : SocketAddr)
    (protocol : TransportProtocol) (w : TransportLayer) : Selected :=
  match w.getTransport existing ⟨socketAddr, protocol⟩ with
  | some transport => .transport transport
  | none =>
    match protocol with
    | .tcp => .connect socketAddr
    | .ws => .connectWebSocket socketAddr false
    | .wss => .connectWebSocket socketAddr true
    | _ => .unsupported

/-- A step.  A connect that is done registers its connection, under the address at this end. -/
def step (w : TransportLayer) : TransportEvent → TransportLayer
  | .select socketAddr protocol existing =>
    match w.selectTransport existing socketAddr protocol with
    | .connect socketAddr => { w with connecting := w.connecting ++ [socketAddr] }
    | _ => w
  | .connected i localAddr remoteAddr =>
    match w.connecting[i]? with
    | some socketAddr =>
      { table := w.table.establish ⟨.tcp, localAddr, remoteAddr⟩
        connecting := w.connecting.eraseIdx i
        dialled := (w.table.opened, socketAddr) :: w.dialled }
    | none => w
  | .failed i => { w with connecting := w.connecting.eraseIdx i }
  | .other e => { w with table := w.table.step e }

/-- The connection was opened for the address, and its read loop runs. -/
def Dialled (id : ConnectionId) (socketAddr : SocketAddr) (w : TransportLayer) : Prop :=
  (id, socketAddr) ∈ w.dialled ∧ ∃ c, (id, c) ∈ w.table.live

/-- A connection that was opened for an address is what is selected for it. -/
def Reused (w : TransportLayer) : Prop :=
  ∀ id socketAddr, w.Dialled id socketAddr →
    ∀ existing, w.selectTransport existing socketAddr .tcp = .transport id

/-- A connection leads to its own address, which no other one was opened for; no connection comes
    from an address that another one was opened for, and none of them is removed. -/
def KeepsDialled (w : TransportLayer) : TransportEvent → Prop
  | .select _ _ _ | .failed _ => True
  | .connected i localAddr _ => ∀ socketAddr, w.connecting[i]? = some socketAddr →
      localAddr = socketAddr ∧ ∀ id, ¬ w.Dialled id socketAddr
  | .other (.opened c) => c.protocol = .tcp → ∀ id, ¬ w.Dialled id c.localAddr
  | .other (.closed id how) => how.removes = true → ∀ c, (id, c) ∈ w.table.live →
      c.protocol = .tcp → ∀ id', id' ≠ id → ¬ w.Dialled id' c.localAddr

/-! ### The numbers of the connections -/

/-- The table has its numbers right, and every number in use is that of a connection there
    was. -/
structure Ok (w : TransportLayer) : Prop where
  table : w.table.Ok
  entry : ∀ key id, w.table.transports key = some id → id < w.table.opened
  dialled : ∀ t ∈ w.dialled, t.1 < w.table.opened

theorem ok_start : ({} : TransportLayer).Ok where
  table := ConnectionTable.ok_start
  entry _ _ h := nomatch h
  dialled _ h := nomatch h

/-- An entry comes from an update, or was there. -/
theorem entry_establish {c : Connection} {w : ConnectionTable} {key : TransportKey}
    {id : ConnectionId} (h : (w.establish c).transports key = some id) :
    (key = .ofConnection c ∧ id = w.opened) ∨ w.transports key = some id := by
  have h : Function.update w.transports (.ofConnection c) (some w.opened) key = some id := h
  by_cases hkey : key = .ofConnection c
  · rw [hkey, Function.update_self, Option.some.injEq] at h
    exact .inl ⟨hkey, h.symm⟩
  · rw [Function.update_of_ne hkey] at h
    exact .inr h

theorem Ok.other {w : TransportLayer} (h : w.Ok) (e : ConnectionEvent) :
    (w.step (.other e)).Ok := by
  refine ⟨h.table.step e, ?_, ?_⟩
  · intro key id hentry
    cases e with
    | opened c =>
      rcases entry_establish hentry with ⟨-, rfl⟩ | hold
      · exact Nat.lt_succ_self _
      · exact Nat.lt_succ_of_lt (h.entry key id hold)
    | closed id' how =>
      have hentry : (w.table.close id' how).transports key = some id := hentry
      show id < (w.table.close id' how).opened
      rcases ConnectionTable.close_cases id' how w.table with
        ⟨c, -, -, hopened, htransports⟩ | ⟨-, hsame⟩
      · rw [hopened]
        rw [htransports] at hentry
        refine h.entry key id ?_
        split at hentry
        · -- the removal leaves the entries of other keys
          by_cases hkey : key = .ofConnection c
          · rw [hkey, Function.update_self] at hentry
            cases hentry
          · rwa [Function.update_of_ne hkey] at hentry
        · exact hentry
      · rw [hsame] at hentry ⊢
        exact h.entry key id hentry
  · intro t ht
    have hlt := h.dialled t ht
    cases e with
    | opened c => exact Nat.lt_succ_of_lt hlt
    | closed id' how =>
      show t.1 < (w.table.close id' how).opened
      rcases ConnectionTable.close_cases id' how w.table with ⟨-, -, -, hopened, -⟩ | ⟨-, hsame⟩
      · rw [hopened]
        exact hlt
      · rw [hsame]
        exact hlt

theorem Ok.step {w : TransportLayer} (h : w.Ok) (e : TransportEvent) : (w.step e).Ok := by
  cases e with
  | select socketAddr protocol existing =>
    simp only [TransportLayer.step]
    split
    · exact ⟨h.table, h.entry, h.dialled⟩
    · exact h
  | connected i localAddr remoteAddr =>
    simp only [TransportLayer.step]
    split
    · obtain ⟨htable, hentry, hdialled⟩ := h.other (.opened ⟨.tcp, localAddr, remoteAddr⟩)
      refine ⟨htable, hentry, fun t ht => ?_⟩
      rcases List.mem_cons.mp ht with rfl | hold
      · exact Nat.lt_succ_self _
      · exact hdialled t hold
    · exact h
  | failed i => exact ⟨h.table, h.entry, h.dialled⟩
  | other e => exact h.other e

/-! ### Reuse -/

/-- What is selected for `TCP` is what the map has. -/
theorem selectTransport_eq_iff {w : TransportLayer} {existing : Option ConnectionId}
    {socketAddr : SocketAddr} {id : ConnectionId} :
    w.selectTransport existing socketAddr .tcp = .transport id ↔
      w.table.transports ⟨socketAddr, .tcp⟩ = some id := by
  unfold selectTransport getTransport
  cases w.table.transports ⟨socketAddr, .tcp⟩ with
  | some id' => simp
  | none => simp [TransportProtocol.isReliable]

theorem reused_iff {w : TransportLayer} :
    w.Reused ↔ ∀ id socketAddr, w.Dialled id socketAddr →
      w.table.transports ⟨socketAddr, .tcp⟩ = some id :=
  forall_congr' fun _ => forall_congr' fun _ => imp_congr_right fun _ =>
    (forall_congr' fun _ => selectTransport_eq_iff).trans (forall_const _)

/-- The keys of `TCP` connections are their addresses. -/
theorem key_eq_iff {socketAddr : SocketAddr} {c : Connection} :
    (⟨socketAddr, .tcp⟩ : TransportKey) = .ofConnection c ↔
      c.protocol = .tcp ∧ socketAddr = c.localAddr := by
  unfold TransportKey.ofConnection
  rw [TransportKey.mk.injEq, and_comm, eq_comm (a := TransportProtocol.tcp)]

/-- After a connection has come, those that were there before are found as before, unless it has
    taken their place. -/
theorem found_establish_iff {w : TransportLayer} (hok : w.Ok) (c : Connection) {id : ConnectionId}
    {socketAddr : SocketAddr} (hdialled : w.Dialled id socketAddr)
    (h : w.table.transports ⟨socketAddr, .tcp⟩ = some id) :
    (w.table.establish c).transports ⟨socketAddr, .tcp⟩ = some id ↔
      ¬ (c.protocol = .tcp ∧ socketAddr = c.localAddr) := by
  rw [← key_eq_iff]
  show Function.update w.table.transports (.ofConnection c) (some w.table.opened) _ = _ ↔ _
  have hlt := hok.dialled _ hdialled.1
  by_cases hkey : (⟨socketAddr, .tcp⟩ : TransportKey) = .ofConnection c
  · rw [hkey, Function.update_self, Option.some.injEq]
    exact iff_of_false (fun heq => (Nat.ne_of_lt hlt) heq.symm) (fun hne => hne rfl)
  · rw [Function.update_of_ne hkey]
    exact iff_of_true h hkey

theorem reused_opened_iff {w : TransportLayer} (hok : w.Ok) (h : w.Reused) (c : Connection) :
    (w.step (.other (.opened c))).Reused ↔ w.KeepsDialled (.other (.opened c)) := by
  rw [reused_iff] at h
  have hlive : ∀ id socketAddr,
      (w.step (.other (.opened c))).Dialled id socketAddr ↔ w.Dialled id socketAddr := by
    intro id socketAddr
    refine and_congr_right fun hmem => ⟨?_, ?_⟩
    · rintro ⟨c', hc'⟩
      rcases List.mem_cons.mp hc' with heq | hold
      · -- the new connection was not opened from here
        rw [(Prod.mk.inj heq).1] at hmem
        exact absurd (hok.dialled _ hmem) (lt_irrefl _)
      · exact ⟨c', hold⟩
    · rintro ⟨c', hc'⟩
      exact ⟨c', List.mem_cons_of_mem _ hc'⟩
  rw [reused_iff]
  constructor
  · intro hreused htcp id hdialled
    have hfound := hreused id _ ((hlive _ _).mpr hdialled)
    exact (found_establish_iff hok c hdialled (h id _ hdialled)).mp hfound ⟨htcp, rfl⟩
  · intro hkeeps id socketAddr hdialled
    have hold := (hlive _ _).mp hdialled
    refine (found_establish_iff hok c hold (h id _ hold)).mpr ?_
    rintro ⟨htcp, rfl⟩
    exact hkeeps htcp id hold

theorem reused_connected_iff {w : TransportLayer} (hok : w.Ok) (h : w.Reused) (i : Nat)
    (localAddr remoteAddr : SocketAddr) :
    (w.step (.connected i localAddr remoteAddr)).Reused ↔
      w.KeepsDialled (.connected i localAddr remoteAddr) := by
  simp only [step, KeepsDialled]
  cases hi : w.connecting[i]? with
  | none => exact iff_of_true h fun _ hne => nomatch hne
  | some socketAddr =>
    rw [reused_iff] at h ⊢
    simp only [Option.some.injEq, forall_eq']
    have hnew : Dialled w.table.opened socketAddr
        { table := w.table.establish ⟨.tcp, localAddr, remoteAddr⟩
          connecting := w.connecting.eraseIdx i
          dialled := (w.table.opened, socketAddr) :: w.dialled } :=
      ⟨List.mem_cons_self, _, List.mem_cons_self⟩
    constructor
    · intro hreused
      -- the new connection is found only if it has the address it was opened for
      have hlocal : localAddr = socketAddr := by
        rcases entry_establish (hreused _ _ hnew) with ⟨hkey, -⟩ | hold
        · exact (key_eq_iff.mp hkey).2.symm
        · exact absurd (hok.entry _ _ hold) (lt_irrefl _)
      refine ⟨hlocal, fun id hdialled => ?_⟩
      have hfound := hreused id socketAddr ⟨List.mem_cons_of_mem _ hdialled.1,
        hdialled.2.imp fun _ hlive => List.mem_cons_of_mem _ hlive⟩
      exact (found_establish_iff hok _ hdialled (h id _ hdialled)).mp hfound ⟨rfl, hlocal.symm⟩
    · rintro ⟨rfl, hfree⟩ id socketAddr' ⟨hmem, c, hc⟩
      rcases List.mem_cons.mp hmem with heq | hold
      · obtain ⟨rfl, rfl⟩ := Prod.mk.inj heq
        exact Function.update_self _ _ _
      · have hlt := hok.dialled _ hold
        rcases List.mem_cons.mp hc with heq | hlive
        · rw [(Prod.mk.inj heq).1] at hlt
          exact absurd hlt (lt_irrefl _)
        · have hdialled : w.Dialled id socketAddr' := ⟨hold, c, hlive⟩
          refine (found_establish_iff hok _ hdialled (h id _ hdialled)).mpr ?_
          rintro ⟨-, rfl⟩
          exact hfree id hdialled

theorem reused_closed_iff {w : TransportLayer} (hok : w.Ok) (h : w.Reused) (id : ConnectionId)
    (how : ReadEnd) :
    (w.step (.other (.closed id how))).Reused ↔ w.KeepsDialled (.other (.closed id how)) := by
  rw [reused_iff] at h
  rw [reused_iff]
  show (∀ id' socketAddr, (id', socketAddr) ∈ w.dialled ∧
      (∃ c, (id', c) ∈ (w.table.close id how).live) →
        (w.table.close id how).transports ⟨socketAddr, .tcp⟩ = some id') ↔ _
  rcases ConnectionTable.close_cases id how w.table with
    ⟨c, hc, hlive, -, htransports⟩ | ⟨hnone, hsame⟩
  · have hmem : ∀ t, t ∈ (w.table.close id how).live ↔ t ∈ w.table.live ∧ t.1 ≠ id := by
      intro t
      rw [hlive, List.mem_filter, decide_eq_true_eq]
    by_cases hremoves : how.removes = true
    · rw [htransports, if_pos hremoves]
      constructor
      · rintro hreused - c' hc' htcp id' hne ⟨hdialled, c'', hc''⟩
        -- the removal would take the entry of the other connection
        have hkey : TransportKey.ofConnection c' = .ofConnection c :=
          congrArg Prod.snd (hok.table.unique _ (ConnectionTable.mem_registry.mpr ⟨c', hc', rfl⟩)
            _ (ConnectionTable.mem_registry.mpr ⟨c, hc, rfl⟩) rfl)
        have hfound := hreused id' _ ⟨hdialled, c'', (hmem _).mpr ⟨hc'', hne⟩⟩
        rw [← hkey, ← key_eq_iff.mpr ⟨htcp, rfl⟩, Function.update_self] at hfound
        cases hfound
      · rintro hkeeps id' socketAddr ⟨hdialled, c', hc'⟩
        obtain ⟨hold, hne⟩ := (hmem _).mp hc'
        have hkey : (⟨socketAddr, .tcp⟩ : TransportKey) ≠ .ofConnection c := by
          intro hkey
          obtain ⟨htcp, rfl⟩ := key_eq_iff.mp hkey
          exact hkeeps hremoves c hc htcp id' hne ⟨hdialled, c', hold⟩
        rw [Function.update_of_ne hkey]
        exact h id' socketAddr ⟨hdialled, c', hold⟩
    · rw [htransports, if_neg hremoves]
      refine iff_of_true ?_ fun hyes => absurd hyes hremoves
      rintro id' socketAddr ⟨hdialled, c', hc'⟩
      exact h id' socketAddr ⟨hdialled, c', ((hmem _).mp hc').1⟩
  · rw [hsame]
    exact iff_of_true h fun _ c hc => absurd rfl (hnone _ hc)

/-- **A step keeps the opened connections in use** exactly when it keeps their entries. -/
theorem reused_step_iff {w : TransportLayer} (hok : w.Ok) (h : w.Reused) (e : TransportEvent) :
    (w.step e).Reused ↔ w.KeepsDialled e := by
  cases e with
  | select socketAddr protocol existing =>
    refine iff_of_true ?_ trivial
    rw [reused_iff] at h ⊢
    simp only [step]
    split
    · exact h
    · exact h
  | connected i localAddr remoteAddr => exact reused_connected_iff hok h i localAddr remoteAddr
  | failed i => exact iff_of_true (reused_iff.mpr (reused_iff.mp h)) trivial
  | other e =>
    cases e with
    | opened c => exact reused_opened_iff hok h c
    | closed id how => exact reused_closed_iff hok h id how

/-- **When opened connections are used again.** All along a run every live connection that was
    opened for an address is what is selected for it exactly when each of them is registered
    under the address that it was opened for, and keeps this entry. -/
theorem run_reused_iff (es : List TransportEvent) :
    Always step Reused {} es ↔ Meets step KeepsDialled {} es := by
  have hinv : ∀ (w : TransportLayer) e, w.Ok → (w.step e).Ok := fun _ e h => h.step e
  have hstart : Reused {} := fun _ _ hdialled => nomatch hdialled.1
  exact always_iff_meets hinv (fun _ e hok h => reused_step_iff hok h e) ok_start hstart es

/-- A server on this host. -/
def server : SocketAddr := { SocketAddr.localhost with port := 5080 }

/-- A message to the server opens a connection, and the next one opens another. -/
theorem not_run_reused_server :
    ¬ Always step Reused {} [.select server .tcp none, .connected 0 .localhost server] := by
  intro h
  have hselect := h _ (List.prefix_refl _) 0 server
    ⟨List.mem_cons_self, _, List.mem_cons_self⟩ none
  exact absurd hselect (by decide)

end TransportLayer

end Rssip
