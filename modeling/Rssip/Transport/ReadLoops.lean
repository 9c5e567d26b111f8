import Rssip.Transport.Decode
import Rssip.Transport.Reuse

namespace Rssip

open Lib

/-!
# The read loops of connections

A connection is read by a loop of its own: over the frames of a TCP stream, or over the messages
of a WebSocket.  The loop has several ways out, and only one of them takes the connection out of
the table.

* `tcpRead`, `webSocketRead` — what a loop makes of what comes next, and how it goes on;
* `ReadLoops.step` — connections are opened, and their loops read, in any order;
* `OnlyLive` — the table has no connection that nobody reads;
* `run_onlyLive_iff` — when it has none: every loop that ends does so behind the last message.
-/

/-! ### The loops -/

/-- What a read of a TCP stream gives. -/
inductive StreamRead where
  | bytes (chunk : Bytes)
  | eof
  | error

/-- What the stream of a WebSocket gives.  `control` is a ping, a pong or a raw frame. -/
inductive WsMessage where
  | text (data : Bytes)
  | binary (data : Bytes)
  | close
  | control
  | error
deriving DecidableEq

/-- Where a loop is: in front of the next read, with what it has not decoded yet, or at its
    end. -/
inductive LoopState where
  | reading (buffer : Bytes)
  | ended (how : ReadEnd)
deriving DecidableEq

/-- The frames in a row: the packets that are passed on, and whether every keep-alive could be
    answered, which `answered` says of each.  The first one that could not ends the loop. -/
def serve (answered : Nat → Bool) : List FramedMessage → List Bytes × Bool
  | [] => ([], true)
  | .complete data :: frames => ((serve answered frames).1.cons data, (serve answered frames).2)
  | .keepaliveRequest :: frames =>
    if answered 0 then serve (fun n => answered (n + 1)) frames else ([], false)
  | .keepaliveResponse :: frames => serve answered frames

/-- `tcp_read`, from one read of the stream to the next.  The buffer is decoded up to its end; at
    the end of the stream, what is left in it is an error. -/
def tcpRead (answered : Nat → Bool) (buffer : Bytes) : StreamRead → List Bytes × LoopState
  | .bytes chunk =>
    let decoded := drain decode (buffer ++ chunk)
    let served := serve answered decoded.1
    (served.1,
      if served.2 then
        match decoded.2 with
        | .more rest => .reading rest
        | .failed _ => .ended .readError
      else .ended .keepaliveError)
  | .eof =>
    let decoded := drain decode buffer
    let served := serve answered decoded.1
    (served.1,
      if served.2 then .ended (if decoded.2 = .more [] then .disconnected else .readError)
      else .ended .keepaliveError)
  | .error => ([], .ended .readError)

/-- The loop of `handle_ws_connection`; `none` is the end of the stream.  An error returns, and
    does not get behind the loop. -/
def webSocketRead : Option WsMessage → List Bytes × LoopState
  | some (.text data) | some (.binary data) => ([data], .reading [])
  | some .control => ([], .reading [])
  | some .error => ([], .ended .readError)
  | some .close | none => ([], .ended .disconnected)

/-! ### All loops -/

/-- The table, what each loop has not decoded yet, and the packets that were passed on. -/
structure ReadLoops where
  table : ConnectionTable := {}
  buffers : ConnectionId → Bytes := fun _ => []
  received : List (ConnectionId × Bytes) := []

/-- The steps of a run: a connection is opened, on either side, or a loop reads. -/
inductive LoopEvent where
  | opened (c : Connection)
  | tcp (id : ConnectionId) (read : StreamRead) (answered : Nat → Bool)
  | webSocket (id : ConnectionId) (next : Option WsMessage)

namespace ReadLoops

/-- The loop of the connection runs. -/
def Runs (id : ConnectionId) (protocol : TransportProtocol) (w : ReadLoops) : Prop :=
  ∃ t ∈ w.table.live, t.1 = id ∧ t.2.protocol = protocol

instance (id : ConnectionId) (protocol : TransportProtocol) :
    DecidablePred (Runs id protocol) := fun w =>
  inferInstanceAs (Decidable (∃ t ∈ w.table.live, t.1 = id ∧ t.2.protocol = protocol))

/-- What a read does. -/
def after (id : ConnectionId) (read : List Bytes × LoopState) (w : ReadLoops) : ReadLoops :=
  let received := w.received ++ read.1.map fun data => (id, data)
  match read.2 with
  | .reading buffer => { w with buffers := Function.update w.buffers id buffer, received := received }
  | .ended how => { w with table := w.table.close id how, received := received }

/-- A connection is opened, or its read loop goes on by one read. -/
def step (w : ReadLoops) : LoopEvent → ReadLoops
  | .opened c =>
    { w with table := w.table.establish c, buffers := Function.update w.buffers w.table.opened [] }
  | .tcp id read answered =>
    if w.Runs id .tcp then w.after id (tcpRead answered (w.buffers id) read) else w
  | .webSocket id next => if w.Runs id .ws then w.after id (webSocketRead next) else w

/-- The table has no connection that nobody reads, and none is selected. -/
structure OnlyLive (w : ReadLoops) : Prop where
  entries : ∀ key id, w.table.transports key = some id →
    ∃ c, (id, c) ∈ w.table.live ∧ TransportKey.ofConnection c = key
  selected : ∀ existing socketAddr protocol id, protocol.isReliable →
    TransportLayer.selectTransport existing socketAddr protocol { table := w.table } =
      .transport id → ∃ c, (id, c) ∈ w.table.live

/-- The loop runs, and its connection is the one that is found under its key. -/
def Found (id : ConnectionId) (protocol : TransportProtocol) (w : ReadLoops) : Prop :=
  ∃ t ∈ w.table.live, t.1 = id ∧ t.2.protocol = protocol ∧
    w.table.transports (.ofConnection t.2) = some id

end ReadLoops

/-- The buffer holds whole frames and the beginning of one, and every keep-alive in it is
    answered. -/
structure Decodes (answered : Nat → Bool) (buffer : Bytes) : Prop where
  frames : (drain decode buffer).2.failure = none
  answers : ∀ k < (drain decode buffer).1.count .keepaliveRequest, answered k

/-- A read that does not lead the loop out of the way through its end. -/
def StreamRead.Clean (answered : Nat → Bool) (buffer : Bytes) : StreamRead → Prop
  | .bytes chunk => Decodes answered (buffer ++ chunk)
  | .eof => Decodes answered buffer ∧ (drain decode buffer).2 = .more []
  | .error => False

/-- No connection that is found in the table ends with an error. -/
def ReadLoops.Clean (w : ReadLoops) : LoopEvent → Prop
  | .opened _ => True
  | .tcp id read answered => w.Found id .tcp → read.Clean answered (w.buffers id)
  | .webSocket id next => w.Found id .ws → next ≠ some .error

/-! ### How a loop ends -/

/-- Where a loop is left: not at an end at which the connection stays in the table. -/
def LoopState.Tidy : LoopState → Prop
  | .reading _ => True
  | .ended how => how.removes

theorem serve_snd_iff (answered : Nat → Bool) (frames : List FramedMessage) :
    (serve answered frames).2 = true ↔ ∀ k < frames.count .keepaliveRequest, answered k := by
  induction frames generalizing answered with
  | nil => simp [serve]
  | cons frame frames ih =>
    cases frame with
    | complete data =>
      rw [serve, List.count_cons_of_ne FramedMessage.noConfusion]
      exact ih answered
    | keepaliveResponse =>
      rw [serve, List.count_cons_of_ne (by decide)]
      exact ih answered
    | keepaliveRequest =>
      rw [serve, List.count_cons_self]
      by_cases h : answered 0
      · rw [if_pos h, ih]
        constructor
        · intro hall k hk
          cases k with
          | zero => exact h
          | succ k => exact hall k (by omega)
        · exact fun hall k hk => hall (k + 1) (by omega)
      · rw [if_neg h]
        exact iff_of_false (by simp) fun hall => h (hall 0 (by omega))

theorem decodes_iff {answered : Nat → Bool} {buffer : Bytes} :
    Decodes answered buffer ↔ (drain decode buffer).2.failure = none ∧
      (serve answered (drain decode buffer).1).2 = true := by
  rw [serve_snd_iff]
  exact ⟨fun h => ⟨h.frames, h.answers⟩, fun h => ⟨h.1, h.2⟩⟩

/-- **A loop over a TCP stream** goes on, or ends behind its last message, exactly when the read is
    clean. -/
theorem tidy_tcpRead_iff (answered : Nat → Bool) (buffer : Bytes) (read : StreamRead) :
    (tcpRead answered buffer read).2.Tidy ↔ read.Clean answered buffer := by
  cases read with
  | error => exact iff_of_false (fun h => nomatch h) id
  | bytes chunk =>
    simp only [StreamRead.Clean, decodes_iff, tcpRead]
    cases (serve answered (drain decode (buffer ++ chunk)).1).2 with
    | false => exact iff_of_false (fun h => nomatch h) fun h => nomatch h.2
    | true =>
      -- a frame that is no message is the one way out
      cases (drain decode (buffer ++ chunk)).2 with
      | more rest => exact iff_of_true trivial ⟨rfl, rfl⟩
      | failed e => exact iff_of_false (fun h => nomatch h) fun h => nomatch h.1
  | eof =>
    simp only [StreamRead.Clean, decodes_iff, tcpRead]
    cases (serve answered (drain decode buffer).1).2 with
    | false => exact iff_of_false (fun h => nomatch h) fun h => nomatch h.1.2
    | true =>
      by_cases hending : (drain decode buffer).2 = .more []
      · rw [if_pos rfl, if_pos hending, hending]
        exact iff_of_true rfl ⟨⟨rfl, rfl⟩, rfl⟩
      · rw [if_pos rfl, if_neg hending]
        exact iff_of_false (fun h => nomatch h) fun h => hending h.2

theorem tidy_webSocketRead_iff (next : Option WsMessage) :
    (webSocketRead next).2.Tidy ↔ next ≠ some .error := by
  cases next with
  | none => exact iff_of_true rfl (by simp)
  | some message => cases message <;> simp [webSocketRead, LoopState.Tidy, ReadEnd.removes]

/-! ### The table -/

namespace ReadLoops

/-- What is selected for a protocol with connections is in the table. -/
theorem entry_of_selected {existing : Option ConnectionId} {socketAddr : SocketAddr}
    {protocol : TransportProtocol} {id : ConnectionId} {w : TransportLayer}
    (hreliable : protocol.isReliable)
    (h : w.selectTransport existing socketAddr protocol = .transport id) :
    w.table.transports ⟨socketAddr, protocol⟩ = some id := by
  unfold TransportLayer.selectTransport TransportLayer.getTransport at h
  cases hentry : w.table.transports ⟨socketAddr, protocol⟩ with
  | some id' =>
    rw [hentry] at h
    simpa using h
  | none =>
    rw [hentry, if_pos hreliable] at h
    cases protocol <;> simp at h

theorem onlyLive_iff {w : ReadLoops} : w.OnlyLive ↔ w.table.registry.Backed := by
  constructor
  · exact fun h key id hentry => ConnectionTable.mem_registry.mpr (h.entries key id hentry)
  · intro h
    have hentries : ∀ key id, w.table.transports key = some id →
        ∃ c, (id, c) ∈ w.table.live ∧ TransportKey.ofConnection c = key :=
      fun key id hentry => ConnectionTable.mem_registry.mp (h key id hentry)
    refine ⟨hentries, ?_⟩
    intro existing socketAddr protocol id hreliable hselect
    obtain ⟨c, hmem, -⟩ := hentries _ _ (entry_of_selected hreliable hselect)
    exact ⟨c, hmem⟩

theorem ok_after {w : ReadLoops} (h : w.table.Ok) (id : ConnectionId)
    (read : List Bytes × LoopState) : (w.after id read).table.Ok := by
  unfold ReadLoops.after
  cases read.2 with
  | reading buffer => exact h
  | ended how => exact h.step (.closed id how)

theorem ok_step {w : ReadLoops} (h : w.table.Ok) (e : LoopEvent) : (w.step e).table.Ok := by
  cases e with
  | opened c => exact h.step (.opened c)
  | tcp id read answered =>
    by_cases hruns : w.Runs id .tcp
    · rw [step, if_pos hruns]
      exact ok_after h _ _
    · rw [step, if_neg hruns]
      exact h
  | webSocket id next =>
    by_cases hruns : w.Runs id .ws
    · rw [step, if_pos hruns]
      exact ok_after h _ _
    · rw [step, if_neg hruns]
      exact h

/-- A read keeps the table exactly when it leaves the loop tidily, or when the connection is not
    found there. -/
theorem backed_after_iff {w : ReadLoops} (hok : w.table.Ok) (h : w.table.registry.Backed)
    (id : ConnectionId) (read : List Bytes × LoopState) :
    (w.after id read).table.registry.Backed ↔
      ((∃ t ∈ w.table.live, t.1 = id ∧ w.table.transports (.ofConnection t.2) = some id) →
        read.2.Tidy) := by
  unfold after
  cases hread : read.2 with
  | reading buffer => exact iff_of_true h fun _ => trivial
  | ended how => exact ConnectionTable.backed_close_iff hok h id how

/-- A live connection has one number, so its protocol is that of its loop. -/
theorem found_iff {w : ReadLoops} (hok : w.table.Ok) {id : ConnectionId}
    {protocol : TransportProtocol} (hruns : w.Runs id protocol) :
    (∃ t ∈ w.table.live, t.1 = id ∧ w.table.transports (.ofConnection t.2) = some id) ↔
      w.Found id protocol := by
  obtain ⟨t', ht', hid', hprotocol⟩ := hruns
  constructor
  · rintro ⟨t, ht, hid, hentry⟩
    refine ⟨t', ht', hid', hprotocol, ?_⟩
    have hkey : TransportKey.ofConnection t.2 = .ofConnection t'.2 :=
      congrArg Prod.snd (hok.unique _ (List.mem_map_of_mem ht) _ (List.mem_map_of_mem ht')
        (hid.trans hid'.symm))
    rw [← hkey]
    exact hentry
  · exact fun ⟨t, ht, hid, _, hentry⟩ => ⟨t, ht, hid, hentry⟩

/-- **A step leaves no dead connection in the table** exactly when it is clean. -/
theorem onlyLive_step_iff {w : ReadLoops} (hok : w.table.Ok) (h : w.OnlyLive) (e : LoopEvent) :
    (w.step e).OnlyLive ↔ w.Clean e := by
  have hbacked := onlyLive_iff.mp h
  rw [onlyLive_iff]
  cases e with
  | opened c => exact iff_of_true (hbacked.insert _ _) trivial
  | tcp id read answered =>
    by_cases hruns : w.Runs id .tcp
    · rw [step, if_pos hruns, backed_after_iff hok hbacked, found_iff hok hruns, tidy_tcpRead_iff]
      exact Iff.rfl
    · rw [step, if_neg hruns]
      exact iff_of_true hbacked fun ⟨t, ht, hid, hprotocol, _⟩ =>
        absurd ⟨t, ht, hid, hprotocol⟩ hruns
  | webSocket id next =>
    by_cases hruns : w.Runs id .ws
    · rw [step, if_pos hruns, backed_after_iff hok hbacked, found_iff hok hruns,
        tidy_webSocketRead_iff]
      exact Iff.rfl
    · rw [step, if_neg hruns]
      exact iff_of_true hbacked fun ⟨t, ht, hid, hprotocol, _⟩ =>
        absurd ⟨t, ht, hid, hprotocol⟩ hruns

/-- **When the table has live connections only.** All along a run no connection whose loop has
    ended is left in the table, or selected, exactly when no connection that is found there meets
    a frame without a length or an error of its stream, is cut off inside a message, or cannot
    have a keep-alive answered. -/
theorem run_onlyLive_iff (es : List LoopEvent) :
    Always step OnlyLive {} es ↔ Meets step Clean {} es := by
  have hinv : ∀ (w : ReadLoops) e, w.table.Ok → (w.step e).table.Ok := fun _ e h => ok_step h e
  have hstart : OnlyLive {} := onlyLive_iff.mpr fun _ _ h => nomatch h
  exact always_iff_meets hinv (fun _ e hok h => onlyLive_step_iff hok h e)
    ConnectionTable.ok_start hstart es

/-- A header section without a `Content-Length`. -/
def withoutLength : Bytes := asBytes "OPTIONS sip:localhost SIP/2.0\r\n\r\n"

/-- A connection on which such a thing comes. -/
def withoutLengthRead : List LoopEvent :=
  [.opened (ConnectionTable.accepted 40000), .tcp 0 (.bytes withoutLength) fun _ => true]

/-- The connection on which it came stays in the table, and is selected for its address. -/
theorem not_run_onlyLive_withoutLength : ¬ Always step OnlyLive {} withoutLengthRead := by
  intro h
  have hend := h _ (List.prefix_refl _)
  have hselect : TransportLayer.selectTransport none SocketAddr.localhost .tcp
      { table := (exec step {} withoutLengthRead).table } = .transport 0 := by decide +kernel
  obtain ⟨c, hmem⟩ := hend.selected none SocketAddr.localhost .tcp 0 rfl hselect
  have hnone : (exec step {} withoutLengthRead).table.live = [] := by decide +kernel
  rw [hnone] at hmem
  exact absurd hmem List.not_mem_nil

end ReadLoops

end Rssip
