import Rssip.Lib.Observed
import Rssip.Parser.MessageRoundTrip
import Rssip.Transport.Framing
import Rssip.Transport.ReadLoops

namespace Rssip

open Lib

/-!
# What comes through a connection

The messages that come out of a TCP stream, when many connections are read at once.

* `streamMessages` — the messages of a stream;
* `steadySeen_decode` — keep-alives aside, the chunks of a stream do not matter;
* `ReadLoops.stream` — what a connection has read in a run;
* `ReadLoops.Follows` — the packets of a connection are the messages of what it has read.
-/

/-- The message in a frame. -/
def FramedMessage.message? : FramedMessage → Option Bytes
  | complete data => some data
  | keepaliveRequest | keepaliveResponse => none

/-- The messages of a stream, up to its first error. -/
def streamMessages (s : Bytes) : List Bytes := (drain decode s).1.filterMap FramedMessage.message?

/-! ### Keep-alives -/

/-- A keep-alive at the start of a stream is decoded before anything else. -/
theorem decode_keepaliveRequest (s : Bytes) :
    decode (keepaliveRequest ++ s) = .item .keepaliveRequest s := by
  unfold decode
  rw [if_pos (List.prefix_append _ _), List.drop_left]

/-- The answer to a keep-alive is decoded if it is not the first half of a keep-alive. -/
theorem decode_keepaliveResponse {s : Bytes} (h : ¬ keepaliveResponse <+: s) :
    decode (keepaliveResponse ++ s) = .item .keepaliveResponse s := by
  have hreq : ¬ keepaliveRequest <+: keepaliveResponse ++ s := by
    rw [show keepaliveRequest = keepaliveResponse ++ keepaliveResponse from rfl,
      List.prefix_append_right_inj]
    exact h
  unfold decode
  rw [if_neg hreq, if_pos (List.prefix_append _ _), List.drop_left]

/-- **A CRLF in front of a stream is not seen**, whichever keep-alive it is a part of. -/
theorem seen_keepaliveResponse (s : Bytes) :
    seen FramedMessage.message? (drain decode (keepaliveResponse ++ s)) =
      seen FramedMessage.message? (drain decode s) := by
  generalize hn : s.length = n
  induction n using Nat.strongRecOn generalizing s with
  | ind n ih =>
    by_cases hresp : keepaliveResponse <+: s
    · -- the two are one request, and the next CRLF is in front of what is behind
      obtain ⟨t, rfl⟩ := hresp
      have hreq : decode (keepaliveResponse ++ (keepaliveResponse ++ t)) =
          .item .keepaliveRequest t := decode_keepaliveRequest t
      have hlen : keepaliveResponse.length = 2 := rfl
      rw [List.length_append] at hn
      rw [drain_item decode_progress hreq, seen_cons, ih t.length (by omega) t rfl]
      rfl
    · rw [drain_item decode_progress (decode_keepaliveResponse hresp), seen_cons]
      rfl

/-- Two bytes tell whether there is a CRLF. -/
theorem keepaliveResponse_isPrefix {p q : Bytes} (h : keepaliveRequest <+: p ++ q)
    (hlen : 2 ≤ p.length) : keepaliveResponse <+: p :=
  List.prefix_of_prefix_length_le (List.IsPrefix.trans (by decide) h) (List.prefix_append p q) hlen

/-- **Keep-alives aside, more input changes nothing.** -/
theorem steadySeen_decode : SteadySeen FramedMessage.message? decode where
  progress := decode_progress
  item p q i rest h := by
    by_cases hreq : keepaliveRequest <+: p ++ q
    · rcases decode_item_cases h with ⟨hp, rfl, rfl⟩ | ⟨hp, rfl, rfl⟩ |
        ⟨hdrEnd, cLen, hresp, hwin, -⟩
      · obtain ⟨t, rfl⟩ := hp
        rw [List.append_assoc, drain_item decode_progress (decode_keepaliveRequest _), seen_cons,
          List.drop_left]
      · -- the second CRLF may have come with the rest of the input
        obtain ⟨t, rfl⟩ := hp
        rw [List.append_assoc, seen_keepaliveResponse, List.drop_left]
        rfl
      · -- a message has four bytes, the first two of which are no CRLF
        have hle := findWindow_le_length msgHeadersEnd_ne_nil hwin
        have hlen : msgHeadersEnd.length = 4 := rfl
        exact absurd (keepaliveResponse_isPrefix hreq (by omega)) hresp
    · rw [drain_item decode_progress ((decode_append hreq).1 i rest h), seen_cons]
  fail p q e h := by
    by_cases hreq : keepaliveRequest <+: p ++ q
    · exfalso
      have hresp : ¬ keepaliveResponse <+: p := by
        intro hp
        unfold decode at h
        rw [if_pos hp] at h
        split at h <;> cases h
      unfold decode at h
      rw [if_neg (not_keepaliveRequest hresp), if_neg hresp] at h
      cases hwin : findWindow msgHeadersEnd p with
      | none =>
        rw [hwin] at h
        cases h
      | some hdrEnd =>
        have hle := findWindow_le_length msgHeadersEnd_ne_nil hwin
        have hlen : msgHeadersEnd.length = 4 := rfl
        exact hresp (keepaliveResponse_isPrefix hreq (by omega))
    · exact (decode_append hreq).2 e h

/-! ### Packets -/

/-- What is passed on are messages, all of them if every keep-alive is answered. -/
theorem serve_fst (answered : Nat → Bool) (frames : List FramedMessage) :
    (serve answered frames).1 <+: frames.filterMap FramedMessage.message? ∧
      ((serve answered frames).2 = true →
        (serve answered frames).1 = frames.filterMap FramedMessage.message?) := by
  induction frames generalizing answered with
  | nil => exact ⟨List.prefix_rfl, fun _ => rfl⟩
  | cons frame frames ih =>
    cases frame with
    | complete data =>
      obtain ⟨hpre, heq⟩ := ih answered
      exact ⟨(List.prefix_cons_inj data).mpr hpre, fun h => congrArg (data :: ·) (heq h)⟩
    | keepaliveResponse => exact ih answered
    | keepaliveRequest =>
      rw [serve]
      split
      · exact ih fun n => answered (n + 1)
      · exact ⟨List.nil_prefix, fun h => by cases h⟩

/-- A chunk that comes to a loop: the messages of what was left and the chunk are passed on, up to
    a keep-alive that is not answered, and the loop goes on with what is left now. -/
theorem tcpRead_bytes (answered : Nat → Bool) (buffer chunk : Bytes) :
    (tcpRead answered buffer (.bytes chunk)).1 <+: streamMessages (buffer ++ chunk) ∧
      ∀ rest, (tcpRead answered buffer (.bytes chunk)).2 = .reading rest →
        (tcpRead answered buffer (.bytes chunk)).1 = streamMessages (buffer ++ chunk) ∧
          (drain decode (buffer ++ chunk)).2 = .more rest := by
  obtain ⟨hpre, heq⟩ := serve_fst answered (drain decode (buffer ++ chunk)).1
  refine ⟨hpre, fun rest hrest => ?_⟩
  simp only [tcpRead] at hrest
  split at hrest
  · next hserved =>
    refine ⟨heq hserved, ?_⟩
    split at hrest
    · next hmore =>
      rw [hmore]
      injection hrest with hrest
      rw [hrest]
    · cases hrest
  · cases hrest

/-- A loop that has decoded what there is ends without a message. -/
theorem tcpRead_end (answered : Nat → Bool) {buffer : Bytes}
    (hbuffer : drain decode buffer = ([], .more buffer)) {read : StreamRead}
    (hread : ∀ chunk, read ≠ .bytes chunk) :
    ∃ how, tcpRead answered buffer read = ([], .ended how) := by
  cases read with
  | bytes chunk => exact absurd rfl (hread chunk)
  | eof => simp [tcpRead, hbuffer, serve]
  | error => exact ⟨_, rfl⟩

namespace ReadLoops

/-- The packets that a connection has passed on. -/
def packets (id : ConnectionId) (w : ReadLoops) : List Bytes :=
  (w.received.filter fun r => r.1 = id).map Prod.snd

/-- What the loop of a connection takes from its stream with a step. -/
def reads (id : ConnectionId) (w : ReadLoops) : LoopEvent → Bytes
  | .tcp id' (.bytes chunk) _ => if id' = id ∧ w.Runs id .tcp then chunk else []
  | _ => []

/-- A step reads from a connection only if it is a chunk for it while its loop runs. -/
theorem reads_eq_nil {id : ConnectionId} {w : ReadLoops} {e : LoopEvent}
    (h : ∀ chunk answered, e = .tcp id (.bytes chunk) answered → ¬ w.Runs id .tcp) :
    w.reads id e = [] := by
  unfold reads
  split
  · refine if_neg ?_
    rintro ⟨rfl, hruns⟩
    exact h _ _ rfl hruns
  · rfl

/-- What the loop of a connection takes from its stream in a run. -/
def stream (id : ConnectionId) (w : ReadLoops) : List LoopEvent → Bytes
  | [] => []
  | e :: es => w.reads id e ++ stream id (w.step e) es

/-- The end of a loop removes its connection from the live ones. -/
theorem live_close (id : ConnectionId) (how : ReadEnd) (w : ConnectionTable) :
    (w.close id how).live = w.live.filter fun t => t.1 ≠ id := by
  rcases ConnectionTable.close_cases id how w with ⟨-, -, hlive, -⟩ | ⟨hnone, hsame⟩
  · exact hlive
  · rw [hsame, List.filter_eq_self.mpr]
    simpa using hnone

/-- The end of a loop does not change how many connections were opened. -/
theorem opened_close (id : ConnectionId) (how : ReadEnd) (w : ConnectionTable) :
    (w.close id how).opened = w.opened := by
  rcases ConnectionTable.close_cases id how w with ⟨-, -, -, hopened, -⟩ | ⟨-, hsame⟩
  · exact hopened
  · rw [hsame]

/-- What a loop has read opens no connection. -/
theorem opened_after (id : ConnectionId) (read : List Bytes × LoopState) (w : ReadLoops) :
    (w.after id read).table.opened = w.table.opened := by
  unfold after
  cases read.2 with
  | reading buffer => rfl
  | ended how => exact opened_close id how w.table

/-- The loops that run after a read ran before. -/
theorem live_after (id : ConnectionId) (read : List Bytes × LoopState) (w : ReadLoops) :
    ∀ t ∈ (w.after id read).table.live, t ∈ w.table.live ∧
      (t.1 = id → ∃ buffer, read.2 = .reading buffer) := by
  intro t ht
  unfold after at ht
  cases hread : read.2 with
  | reading buffer =>
    rw [hread] at ht
    exact ⟨ht, fun _ => ⟨buffer, rfl⟩⟩
  | ended how =>
    rw [hread] at ht
    have hmem : t ∈ w.table.live.filter fun t => t.1 ≠ id := live_close id how w.table ▸ ht
    obtain ⟨hold, hne⟩ := List.mem_filter.mp hmem
    exact ⟨hold, fun heq => absurd heq (of_decide_eq_true hne)⟩

/-- What a loop has read adds its packets to those of its connection. -/
theorem packets_after (id id' : ConnectionId) (read : List Bytes × LoopState) (w : ReadLoops) :
    (w.after id' read).packets id = w.packets id ++ if id' = id then read.1 else [] := by
  have hreceived :
      (w.after id' read).received = w.received ++ read.1.map fun data => (id', data) := by
    unfold after
    cases read.2 <;> rfl
  unfold packets
  rw [hreceived, List.filter_append, List.map_append]
  by_cases hid : id' = id <;> simp [hid, List.filter_map, Function.comp_def]

/-! ### A connection and its stream -/

/-- A connection that has read `s`.  Its packets are messages of `s` in their order; while its loop
    runs they are all of them, and what is left of `s` is in its buffer. -/
structure Follows (id : ConnectionId) (s : Bytes) (w : ReadLoops) : Prop where
  opened : id < w.table.opened
  protocol : ∀ t ∈ w.table.live, t.1 = id → t.2.protocol = .tcp
  packets : w.packets id <+: streamMessages s
  reading : w.Runs id .tcp →
    seen FramedMessage.message? (drain decode s) = (w.packets id, .more (w.buffers id))

variable {id : ConnectionId} {s : Bytes} {w : ReadLoops}

/-- What is in the buffer has been decoded. -/
theorem Follows.buffer (h : Follows id s w) (hruns : w.Runs id .tcp) :
    drain decode (w.buffers id) = ([], .more (w.buffers id)) := by
  have hending : (drain decode s).2 = .more (w.buffers id) :=
    congrArg Prod.snd (h.reading hruns)
  exact drain_rest decode_progress (Prod.ext rfl hending)

/-- The read of another connection. -/
theorem Follows.other (h : Follows id s w) {id' : ConnectionId} (hid : id' ≠ id)
    (read : List Bytes × LoopState) : Follows id s (w.after id' read) := by
  have hpackets : (w.after id' read).packets id = w.packets id := by
    rw [packets_after, if_neg hid, List.append_nil]
  have hbuffers : (w.after id' read).buffers id = w.buffers id := by
    unfold after
    cases read.2 with
    | reading buffer => exact Function.update_of_ne (Ne.symm hid) _ _
    | ended how => rfl
  refine ⟨?_, fun t ht => h.protocol t (live_after id' read w t ht).1, ?_, ?_⟩
  · rw [opened_after]
    exact h.opened
  · rw [hpackets]
    exact h.packets
  · rintro ⟨t, ht, hruns⟩
    rw [hpackets, hbuffers]
    exact h.reading ⟨t, (live_after id' read w t ht).1, hruns⟩

/-- A chunk is read, after all that was read before. -/
theorem Follows.bytes (h : Follows id s w) (hruns : w.Runs id .tcp) (chunk : Bytes)
    (answered : Nat → Bool) :
    Follows id (s ++ chunk) (w.after id (tcpRead answered (w.buffers id) (.bytes chunk))) := by
  obtain ⟨hpre, hreading⟩ := tcpRead_bytes answered (w.buffers id) chunk
  -- what was read before is decoded first
  have hseen : seen FramedMessage.message? (drain decode (s ++ chunk)) =
      behind (w.packets id)
        (seen FramedMessage.message? (drain decode (w.buffers id ++ chunk))) := by
    have hbefore := h.reading hruns
    rw [seen_drain_append steadySeen_decode]
    cases hd : drain decode s with
    | mk frames ending =>
      rw [hd, seen, Prod.mk.injEq] at hbefore
      obtain ⟨hpackets, hending⟩ := hbefore
      have hending : ending = .more (w.buffers id) := hending
      subst hending
      exact congrArg (behind · _) hpackets
  have hmessages : streamMessages (s ++ chunk) =
      w.packets id ++ streamMessages (w.buffers id ++ chunk) := congrArg Prod.fst hseen
  refine ⟨?_, fun t ht => h.protocol t (live_after id _ w t ht).1, ?_, ?_⟩
  · rw [opened_after]
    exact h.opened
  · rw [packets_after, if_pos rfl, hmessages]
    exact (List.prefix_append_right_inj _).mpr hpre
  · rintro ⟨t, ht, hid, -⟩
    obtain ⟨rest, hrest⟩ := (live_after id _ w t ht).2 hid
    obtain ⟨hall, hmore⟩ := hreading rest hrest
    have hbuffers : (w.after id (tcpRead answered (w.buffers id) (.bytes chunk))).buffers id =
        rest := by
      unfold after
      rw [hrest]
      exact Function.update_self _ _ _
    rw [hseen, packets_after, if_pos rfl, hbuffers, hall, behind, seen, hmore]
    rfl

/-- **A step of any connection** lets a connection follow its stream. -/
theorem Follows.step (h : Follows id s w) (e : LoopEvent) :
    Follows id (s ++ w.reads id e) (w.step e) := by
  cases e with
  | opened c =>
    have hne : w.table.opened ≠ id := Nat.ne_of_gt h.opened
    have hlive : ∀ t ∈ (w.step (.opened c)).table.live, t.1 = id → t ∈ w.table.live := by
      intro t ht hid
      rcases List.mem_cons.mp ht with rfl | hold
      · exact absurd hid hne
      · exact hold
    rw [reads_eq_nil (by simp), List.append_nil]
    refine ⟨Nat.lt_succ_of_lt h.opened, fun t ht hid => h.protocol t (hlive t ht hid) hid,
      h.packets, ?_⟩
    rintro ⟨t, ht, hid, hprotocol⟩
    rw [show (w.step (.opened c)).buffers id = w.buffers id from
      Function.update_of_ne (Ne.symm hne) _ _]
    exact h.reading ⟨t, hlive t ht hid, hid, hprotocol⟩
  | webSocket id' next =>
    rw [reads_eq_nil (by simp), List.append_nil, ReadLoops.step]
    split
    · next hruns =>
      refine h.other ?_ _
      rintro rfl
      obtain ⟨t, ht, hid, hprotocol⟩ := hruns
      exact absurd (hprotocol.symm.trans (h.protocol t ht hid)) (by decide)
    · exact h
  | tcp id' read answered =>
    rw [ReadLoops.step]
    split
    · next hruns =>
      by_cases hid : id' = id
      · subst hid
        by_cases hread : ∃ chunk, read = .bytes chunk
        · obtain ⟨chunk, rfl⟩ := hread
          rw [reads, if_pos ⟨rfl, hruns⟩]
          exact h.bytes hruns chunk answered
        · have hread : ∀ chunk, read ≠ .bytes chunk := fun chunk heq => hread ⟨chunk, heq⟩
          obtain ⟨how, hend⟩ := tcpRead_end answered (h.buffer hruns) hread
          have hreads : w.reads id' (.tcp id' read answered) = [] :=
            reads_eq_nil fun chunk _ heq => (hread chunk (by cases heq; rfl)).elim
          rw [hreads, List.append_nil, hend]
          refine ⟨?_, fun t ht => h.protocol t (live_after id' _ w t ht).1, ?_, ?_⟩
          · rw [opened_after]
            exact h.opened
          · rw [packets_after, if_pos rfl, List.append_nil]
            exact h.packets
          · rintro ⟨t, ht, hid, -⟩
            obtain ⟨buffer, hbuffer⟩ := (live_after id' _ w t ht).2 hid
            cases hbuffer
      · have hreads : w.reads id (.tcp id' read answered) = [] :=
          reads_eq_nil fun _ _ heq => (hid (by cases heq; rfl)).elim
        rw [hreads, List.append_nil]
        exact h.other hid _
    · next hruns =>
      have hreads : w.reads id (.tcp id' read answered) = [] :=
        reads_eq_nil fun _ _ heq => by
          cases heq
          exact hruns
      rw [hreads, List.append_nil]
      exact h

/-- **Along a run** a connection follows its stream. -/
theorem Follows.exec (h : Follows id s w) (es : List LoopEvent) :
    Follows id (s ++ w.stream id es) (Lib.exec ReadLoops.step w es) := by
  induction es generalizing s w with
  | nil =>
    rw [stream, List.append_nil]
    exact h
  | cons e es ih =>
    rw [stream, ← List.append_assoc]
    exact ih (h.step e)

/-- The numbers of the connections that have passed packets on. -/
structure Numbered (w : ReadLoops) : Prop where
  table : w.table.Ok
  received : ∀ r ∈ w.received, r.1 < w.table.opened

/-- A loop that runs passes packets on under the number of its connection. -/
theorem Numbered.after (h : w.Numbered) {id : ConnectionId} {protocol : TransportProtocol}
    (hruns : w.Runs id protocol) (read : List Bytes × LoopState) : (w.after id read).Numbered := by
  refine ⟨ok_after h.table id read, fun r hr => ?_⟩
  rw [opened_after]
  have hreceived : r ∈ w.received ++ read.1.map fun data => (id, data) := by
    unfold ReadLoops.after at hr
    cases hread : read.2 <;> rw [hread] at hr <;> exact hr
  rcases List.mem_append.mp hreceived with hold | hnew
  · exact h.received r hold
  · obtain ⟨data, -, rfl⟩ := List.mem_map.mp hnew
    obtain ⟨t, ht, rfl, -⟩ := hruns
    exact h.table.bound t ht

/-- The numbers of connections stay in order with every step. -/
theorem Numbered.step (h : w.Numbered) (e : LoopEvent) : (w.step e).Numbered := by
  cases e with
  | opened c =>
    exact ⟨ok_step h.table (.opened c), fun r hr => Nat.lt_succ_of_lt (h.received r hr)⟩
  | tcp id' read answered =>
    rw [ReadLoops.step]
    split
    · next hruns => exact h.after hruns _
    · exact h
  | webSocket id' next =>
    rw [ReadLoops.step]
    split
    · next hruns => exact h.after hruns _
    · exact h

/-- At the start nothing was passed on. -/
theorem numbered_start : ({} : ReadLoops).Numbered where
  table := ConnectionTable.ok_start
  received _ h := nomatch h

/-- The numbers are in order in every state of a run. -/
theorem numbered_exec {es : List LoopEvent} (hw : Lib.exec ReadLoops.step {} es = w) :
    w.Numbered := by
  have hstep : ∀ (w : ReadLoops) e, w.Numbered → (w.step e).Numbered := fun _ e h => h.step e
  rw [← hw]
  exact exec_invariant hstep numbered_start es

/-- A connection has read nothing when it is opened. -/
theorem follows_opened (h : w.Numbered) {c : Connection} (hc : c.protocol = .tcp) :
    Follows w.table.opened [] (w.step (.opened c)) := by
  have hpackets : (w.step (.opened c)).packets w.table.opened = [] := by
    have hnone : w.received.filter (fun r => r.1 = w.table.opened) = [] := by
      rw [List.filter_eq_nil_iff]
      intro r hr
      simpa using Nat.ne_of_lt (h.received r hr)
    exact congrArg (List.map Prod.snd) hnone
  refine ⟨Nat.lt_succ_self _, fun t ht hid => ?_, ?_, fun _ => ?_⟩
  · rcases List.mem_cons.mp ht with rfl | hold
    · exact hc
    · exact absurd hid (Nat.ne_of_lt (h.table.bound t hold))
  · rw [hpackets]
    exact List.nil_prefix
  · rw [hpackets, show (w.step (.opened c)).buffers w.table.opened = [] from
      Function.update_self _ _ _, drain_decode_nil]
    rfl

/-- **A TCP connection is read on its own.** In every run, whatever becomes of other connections and
    however its stream is cut into reads, the packets of a connection are the messages of what it
    has read, and while its loop runs they are all of them. -/
theorem run_follows (before after : List LoopEvent) {c : Connection} (hc : c.protocol = .tcp)
    (hw : Lib.exec ReadLoops.step {} before = w) :
    Follows w.table.opened ((w.step (.opened c)).stream w.table.opened after)
      (Lib.exec ReadLoops.step (w.step (.opened c)) after) :=
  (follows_opened (numbered_exec hw) hc).exec after

end ReadLoops

/-! ### What is written -/

/-- What one call of `send_msg` writes to a connection, which is locked until all of it is written:
    a message, or the answer to a keep-alive. -/
inductive Written where
  | message (m : SipMessage)
  | keepaliveResponse

namespace Written

/-- The bytes that are written. -/
def data : Written → Option Bytes
  | message m => encode m
  | keepaliveResponse => some Rssip.keepaliveResponse

/-- The message, if it is one that is written. -/
def message? : Written → Option SipMessage
  | message m => some m
  | keepaliveResponse => none

/-- A message that is read back as it is encoded, and whose lines are lines. -/
def Legible : Written → Prop
  | message m => m.RoundTrips ∧ CleanLine m.startLine ∧ CleanHeaders m ∧
    ∀ bs, encode m = some bs → bs.length < 2 ^ 64
  | keepaliveResponse => True

/-- What is written to a connection in a row. -/
def bytes (written : List Written) : Bytes := (written.filterMap data).flatten

/-- The messages that are written, with the length that encoding adds. -/
def messages (written : List Written) : List SipMessage :=
  (written.filterMap message?).map SipMessage.withContentLength

/-- **What is read from what was written**: the messages, in their order, and nothing else. -/
theorem seen_bytes {written : List Written} (h : ∀ x ∈ written, x.Legible) :
    (streamMessages (bytes written)).map SipParser.parse = (messages written).map .ok ∧
      (drain decode (bytes written)).2 = .more [] := by
  induction written with
  | nil => exact ⟨rfl, by decide⟩
  | cons x written ih =>
    obtain ⟨hx, htail⟩ := List.forall_mem_cons.mp h
    obtain ⟨hmessages, hending⟩ := ih htail
    cases x with
    | keepaliveResponse =>
      have hseen := seen_keepaliveResponse (bytes written)
      exact ⟨(congrArg (fun r => r.1.map SipParser.parse) hseen).trans hmessages,
        (congrArg Prod.snd hseen).trans hending⟩
    | message m =>
      obtain ⟨hround, hstart, hclean, hsize⟩ := hx
      obtain ⟨bs, hencode, hparse⟩ := Option.map_eq_some_iff.mp hround
      have hbytes : bytes (message m :: written) = bs ++ bytes written := by
        simp [bytes, data, hencode]
      have hdrain := drain_item decode_progress
        (decode_encode hencode hstart hclean (hsize bs hencode) (bytes written))
      rw [hbytes, streamMessages, hdrain]
      refine ⟨?_, hending⟩
      have hcons : (SipParser.parse bs) :: (streamMessages (bytes written)).map SipParser.parse =
          (messages (message m :: written)).map .ok := by
        rw [hparse, hmessages]
        rfl
      exact hcons

end Written

/-! ### Delivery -/

namespace ReadLoops

variable {id : ConnectionId} {s : Bytes} {w : ReadLoops}

/-- A read of the connection brings a chunk, and the keep-alives in it are answered. -/
def Healthy (id : ConnectionId) : LoopEvent → Prop
  | .tcp id' read answered => id' = id → (∃ chunk, read = .bytes chunk) ∧ ∀ n, answered n = true
  | _ => True

/-- A loop goes on if its read does. -/
theorem mem_live_after {t : ConnectionId × Connection} (ht : t ∈ w.table.live) {id' : ConnectionId}
    {read : List Bytes × LoopState} (hread : t.1 = id' → ∃ buffer, read.2 = .reading buffer) :
    t ∈ (w.after id' read).table.live := by
  unfold after
  cases hstate : read.2 with
  | reading buffer => exact ht
  | ended how =>
    have hne : t.1 ≠ id' := by
      intro hid
      obtain ⟨buffer, hbuffer⟩ := hread hid
      rw [hstate] at hbuffer
      cases hbuffer
    show t ∈ (w.table.close id' how).live
    rw [live_close]
    exact List.mem_filter.mpr ⟨ht, decide_eq_true hne⟩

/-- The loop of a connection goes on if its stream can be decoded. -/
theorem Follows.runs_step (h : Follows id s w) (hruns : w.Runs id .tcp) {e : LoopEvent}
    (he : Healthy id e) {rest : Bytes}
    (hmore : (drain decode (s ++ w.reads id e)).2 = .more rest) : (w.step e).Runs id .tcp := by
  obtain ⟨t, ht, hid, hprotocol⟩ := hruns
  cases e with
  | opened c => exact ⟨t, List.mem_cons_of_mem _ ht, hid, hprotocol⟩
  | webSocket id' next =>
    rw [ReadLoops.step]
    split
    · next hws =>
      refine ⟨t, mem_live_after ht ?_, hid, hprotocol⟩
      intro hsame
      obtain ⟨t', ht', hid', hws⟩ := hws
      have htcp := h.protocol t' ht' (hid'.trans (hsame.symm.trans hid))
      exact absurd (hws.symm.trans htcp) (by decide)
    · exact ⟨t, ht, hid, hprotocol⟩
  | tcp id' read answered =>
    rw [ReadLoops.step]
    split
    · next hruns =>
      refine ⟨t, mem_live_after ht ?_, hid, hprotocol⟩
      intro hsame
      have hsame : id' = id := hsame.symm.trans hid
      subst hsame
      obtain ⟨⟨chunk, rfl⟩, hanswered⟩ := he rfl
      rw [reads, if_pos ⟨rfl, hruns⟩] at hmore
      -- the chunk is decoded as the end of the whole stream is
      have hending : (drain decode (w.buffers id' ++ chunk)).2 = .more rest := by
        have hseen := congrArg Prod.snd (seen_drain_append steadySeen_decode s chunk)
        have hbefore : (drain decode s).2 = .more (w.buffers id') :=
          congrArg Prod.snd (h.reading hruns)
        rw [show drain decode s = ((drain decode s).1, .more (w.buffers id')) from
          Prod.ext rfl hbefore] at hseen
        exact hseen.symm.trans hmore
      have hserved : (serve answered (drain decode (w.buffers id' ++ chunk)).1).2 = true :=
        (serve_snd_iff _ _).mpr fun k _ => hanswered k
      refine ⟨rest, ?_⟩
      simp [tcpRead, hserved, hending]
    · exact ⟨t, ht, hid, hprotocol⟩

/-- While reads bring chunks and keep-alives are answered, the loop goes on, if no error is in what
    comes. -/
theorem Follows.runs_exec (h : Follows id s w) (hruns : w.Runs id .tcp) {es : List LoopEvent}
    (hes : ∀ e ∈ es, Healthy id e) {more rest : Bytes}
    (hmore : (drain decode (s ++ w.stream id es ++ more)).2 = .more rest) :
    (Lib.exec ReadLoops.step w es).Runs id .tcp := by
  induction es generalizing s w with
  | nil => exact hruns
  | cons e es ih =>
    obtain ⟨he, htail⟩ := List.forall_mem_cons.mp hes
    rw [stream, ← List.append_assoc] at hmore
    obtain ⟨rest', hrest'⟩ : ∃ rest', (drain decode (s ++ w.reads id e)).2 = .more rest' := by
      rw [List.append_assoc] at hmore
      exact exists_more steadySeen_decode hmore
    exact ih (h.step e) (h.runs_step hruns he hrest') htail hmore

/-- **A TCP connection delivers what is written to it.** While messages and answers to keep-alives
    are written at one end, the other end gets those messages in their order, each of them once and
    as it was written, and no others, whatever the reads are and whatever other connections do; and
    all of them once everything has come, if no read fails and no keep-alive stays unanswered. -/
theorem run_delivers (before after : List LoopEvent) {c : Connection} (hc : c.protocol = .tcp)
    (hw : Lib.exec ReadLoops.step {} before = w) {written : List Written}
    (hwritten : ∀ x ∈ written, x.Legible)
    (hread : (w.step (.opened c)).stream w.table.opened after <+: Written.bytes written) :
    ((Lib.exec ReadLoops.step (w.step (.opened c)) after).packets w.table.opened).map
        SipParser.parse <+: (Written.messages written).map .ok ∧
      ((∀ e ∈ after, Healthy w.table.opened e) →
        (w.step (.opened c)).stream w.table.opened after = Written.bytes written →
        ((Lib.exec ReadLoops.step (w.step (.opened c)) after).packets w.table.opened).map
          SipParser.parse = (Written.messages written).map .ok) := by
  obtain ⟨hmessages, hending⟩ := Written.seen_bytes hwritten
  have hopened := follows_opened (numbered_exec hw) hc
  have hfollows := hopened.exec after
  obtain ⟨more, hmore⟩ := hread
  constructor
  · rw [← hmessages, ← hmore]
    refine List.IsPrefix.map _ (hfollows.packets.trans ?_)
    exact seen_prefix steadySeen_decode _ _
  · intro hhealthy hall
    have hruns := hopened.runs_exec ⟨_, List.mem_cons_self, rfl, hc⟩ hhealthy
      (hmore.symm ▸ hending)
    have hpackets := congrArg Prod.fst (hfollows.reading hruns)
    rw [← hmessages, ← hall]
    exact congrArg (List.map SipParser.parse) hpackets.symm

/-- Two responses, and two answers to keep-alives between them. -/
def twoResponses : List Written :=
  [.message (okResponse "OK"), .keepaliveResponse, .keepaliveResponse, .message (okResponse "OK")]

/-- A first connection ends while the second is read, which is cut inside a line end. -/
def cutReads : List LoopEvent :=
  [.tcp 1 (.bytes (asBytes "SIP/2.0 200 OK\r\nContent-Length: 0\r\n\r\n\r")) fun _ => true,
    .tcp 0 .eof fun _ => true,
    .tcp 1 (.bytes (asBytes "\n\r\nSIP/2.0 200 OK\r\nContent-Length: 0\r\n\r\n")) fun _ => true]

/-- Two connections to one listener. -/
def twoOpened : List LoopEvent :=
  [.opened (ConnectionTable.accepted 1), .opened (ConnectionTable.accepted 2)]

/-- The reads of the example take in what was written. -/
theorem stream_cutReads :
    (Lib.exec ReadLoops.step {} twoOpened).stream 1 cutReads = Written.bytes twoResponses := by
  decide +kernel

/-- The example: a stream that is cut inside a line end. -/
theorem run_follows_cut :
    Follows 1 (Written.bytes twoResponses)
      (Lib.exec ReadLoops.step (Lib.exec ReadLoops.step {} twoOpened) cutReads) := by
  rw [← stream_cutReads]
  exact run_follows [.opened (ConnectionTable.accepted 1)] cutReads
    (show (ConnectionTable.accepted 2).protocol = .tcp from rfl) rfl

/-- The two responses of the example are read back. -/
theorem legible_twoResponses : ∀ x ∈ twoResponses, x.Legible := by
  have hencode : encode (okResponse "OK") =
      some (asBytes "SIP/2.0 200 OK\r\nContent-Length: 0\r\n\r\n") := by decide
  have hok : (Written.message (okResponse "OK")).Legible := by
    refine ⟨by decide +kernel, cleanLine_of_all (by decide) (by decide),
      fun _ h => absurd h List.not_mem_nil, fun bs hbs => ?_⟩
    rw [hencode] at hbs
    rw [← Option.some.inj hbs]
    decide
  have hcrlf : Written.keepaliveResponse.Legible := trivial
  exact List.forall_mem_cons.mpr ⟨hok, List.forall_mem_cons.mpr ⟨hcrlf,
    List.forall_mem_cons.mpr ⟨hcrlf, List.forall_mem_singleton.mpr hok⟩⟩⟩

/-- Both responses come, the keep-alives do not matter. -/
theorem run_delivers_cut :
    ((Lib.exec ReadLoops.step (Lib.exec ReadLoops.step {} twoOpened) cutReads).packets 1).map
      SipParser.parse = (Written.messages twoResponses).map .ok := by
  have hread : (Lib.exec ReadLoops.step {} twoOpened).stream 1 cutReads <+:
      Written.bytes twoResponses := stream_cutReads ▸ List.prefix_rfl
  have hdelivers := run_delivers [.opened (ConnectionTable.accepted 1)] cutReads
    (show (ConnectionTable.accepted 2).protocol = .tcp from rfl) rfl legible_twoResponses hread
  have hhealthy : ∀ e ∈ cutReads, Healthy 1 e := by simp [cutReads, Healthy]
  exact hdelivers.2 hhealthy stream_cutReads

end ReadLoops

end Rssip
