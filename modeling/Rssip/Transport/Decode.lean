import Rssip.Lib.Incremental
import Rssip.Transport.Outgoing

namespace Rssip

open Lib

/-!
# The stream decoder

`StreamingDecoder::decode` cuts the byte stream of a connection into keep-alives and
messages: a message ends where its `Content-Length` says.

* `decode` — one call of the decoder;
* `decode_append` — more input does not change an answer, unless it completes a
  double-CRLF keep-alive whose first half was already taken for a single one;
* `run_decode_eq_iff` — the streams on which the chunks do not matter.
-/

/-! ### The decoder -/

/-- Two line ends, which ask whether the connection is alive. -/
def keepaliveRequest : Bytes := [13, 10, 13, 10]

/-- One line end, which answers that the connection is alive. -/
def keepaliveResponse : Bytes := [13, 10]

/-- The end of the headers of a message. -/
def msgHeadersEnd : Bytes := [13, 10, 13, 10]

/-- What the decoder finds at the start of a buffer. -/
inductive FramedMessage where
  | complete (bytes : Bytes)
  | keepaliveRequest
  | keepaliveResponse
deriving DecidableEq

/-- The kinds of I/O errors that the decoder makes. -/
inductive IoErrorKind where
  | invalidData
  | notFound
deriving DecidableEq

/-- An I/O error with its text. -/
structure IoError where
  kind : IoErrorKind
  message : String
deriving DecidableEq

/-- A call of the decoder that gives no answer: an error, or a panic for an addition that
    overflows. -/
inductive DecodeFailure where
  | io (e : IoError)
  | overflow
deriving DecidableEq

/-- The largest length, on a machine with words of 64 bits. -/
def usizeMax : Nat := 2 ^ 64 - 1

/-- The position of the first window equal to `pat`. -/
def findWindow (pat : Bytes) : Bytes → Option Nat
  | [] => none
  | b :: bs => if pat <+: b :: bs then some 0 else (findWindow pat bs).map (· + 1)

/-- A character with the Unicode property `White_Space`. -/
def isWhitespace (c : Char) : Bool :=
  let n := c.toNat
  (9 ≤ n && n ≤ 13) || n == 32 || n == 0x85 || n == 0xa0 || n == 0x1680 ||
    (0x2000 ≤ n && n ≤ 0x200a) || n == 0x2028 || n == 0x2029 || n == 0x202f ||
    n == 0x205f || n == 0x3000

/-- The text without white space at either end. -/
def trim (s : String) : String :=
  String.ofList
    ((s.toList.dropWhile isWhitespace).reverse.dropWhile isWhitespace).reverse

/-- The length a line announces: `none` if it is not a `Content-Length` line, or not one with
    a number. -/
def lineLength (line : Bytes) : Except IoError (Option Nat) :=
  let name := line.takeWhile (· != 58)
  if eqIgnoreAsciiCase name (asBytes ContentLength.name) ||
      eqIgnoreAsciiCase name (asBytes ContentLength.shortName) then
    match line.dropWhile (· != 58) with
    | [] => .ok none
    | _ :: value =>
      -- a value that is no text fails, one that is no number is passed over
      match fromUtf8 value with
      | none => .error ⟨.invalidData, "Invalid UTF-8 in Content-Length header"⟩
      | some valueStr => .ok (parseUnsigned (2 ^ 64) (asBytes (trim valueStr)))
  else .ok none

/-- The length the lines announce, the last one counting, on top of one found before. -/
def contentLength : Option Nat → List Bytes → Except IoError (Option Nat)
  | found, [] => .ok found
  | found, line :: lines => do
    match ← lineLength line with
    | some n => contentLength (some n) lines
    | none => contentLength found lines

/-- The length announced in the headers, which end at `hdrEnd`. -/
def announcedLength (src : Bytes) (hdrEnd : Nat) : Except IoError (Option Nat) :=
  contentLength none ((src.take hdrEnd).splitOn 10)

/-- One call of the decoder: a message that is complete, a keep-alive, nothing yet, or an error. -/
def decode (src : Bytes) : Step UInt8 FramedMessage DecodeFailure :=
  if keepaliveRequest <+: src then
    .item .keepaliveRequest (src.drop keepaliveRequest.length)
  else if keepaliveResponse <+: src then
    .item .keepaliveResponse (src.drop keepaliveResponse.length)
  else
    match findWindow msgHeadersEnd src with
    -- nothing is reserved before the length is known
    | none => .pending 0
    | some hdrEnd =>
      let bodyStart := hdrEnd + msgHeadersEnd.length
      match announcedLength src hdrEnd with
      | .error e => .fail (.io e)
      | .ok none => .fail (.io ⟨.notFound, "Content-Length not found"⟩)
      | .ok (some cLen) =>
        -- the addition is not checked in the source
        if usizeMax < bodyStart + cLen then .fail .overflow
        else
          let expected := bodyStart + cLen
          if src.length < expected then .pending (expected - src.length)
          else .item (.complete (src.take expected)) (src.drop expected)

/-! ### Windows -/

theorem findWindow_eq_some_iff {pat : Bytes} (hpat : pat ≠ []) {s : Bytes} {h : Nat} :
    findWindow pat s = some h ↔ pat <+: s.drop h ∧ ∀ k < h, ¬ pat <+: s.drop k := by
  -- the first place is here, or one further on in the tail
  induction s generalizing h with
  | nil => simp [findWindow, hpat]
  | cons b bs ih =>
    unfold findWindow
    by_cases hpre : pat <+: b :: bs
    · rw [if_pos hpre, Option.some.injEq]
      constructor
      · rintro rfl
        exact ⟨hpre, by simp⟩
      · rintro ⟨-, hlt⟩
        by_contra hne
        exact hlt 0 (by omega) hpre
    · rw [if_neg hpre, Option.map_eq_some_iff]
      constructor
      · rintro ⟨k, hk, rfl⟩
        obtain ⟨hat, hlt⟩ := ih.mp hk
        refine ⟨hat, fun j hj => ?_⟩
        cases j with
        | zero => exact hpre
        | succ j => exact hlt j (by omega)
      · rintro ⟨hat, hlt⟩
        cases h with
        | zero => exact absurd hat hpre
        | succ h => exact ⟨h, ih.mpr ⟨hat, fun k hk => hlt (k + 1) (by omega)⟩, rfl⟩

theorem findWindow_le_length {pat : Bytes} (hpat : pat ≠ []) {s : Bytes} {h : Nat}
    (hs : findWindow pat s = some h) : h + pat.length ≤ s.length := by
  have hle := ((findWindow_eq_some_iff hpat).mp hs).1.length_le
  have hpos := List.length_pos_iff.mpr hpat
  rw [List.length_drop] at hle
  omega

/-- A prefix is found in the part that holds it. -/
private theorem prefix_drop_append {pat p q : Bytes} {k : Nat} (hk : k + pat.length ≤ p.length) :
    pat <+: (p ++ q).drop k ↔ pat <+: p.drop k := by
  rw [List.drop_append_of_le_length (by omega)]
  constructor
  · intro h
    exact List.prefix_of_prefix_length_le h (List.prefix_append _ _)
      (by rw [List.length_drop]; omega)
  · exact fun h => h.trans (List.prefix_append _ _)

/-- A window inside `p` is the first one of `p` when it is the first one of `p ++ q`. -/
theorem findWindow_append_iff {pat : Bytes} (hpat : pat ≠ []) {p q : Bytes} {h : Nat}
    (hle : h + pat.length ≤ p.length) :
    findWindow pat (p ++ q) = some h ↔ findWindow pat p = some h := by
  rw [findWindow_eq_some_iff hpat, findWindow_eq_some_iff hpat, prefix_drop_append hle]
  refine and_congr_right fun _ => forall_congr' fun k => ?_
  by_cases hk : k < h
  · simp only [hk, forall_const, prefix_drop_append (p := p) (q := q)
      (show k + pat.length ≤ p.length by omega)]
  · simp [hk]

/-! ### Colons -/

/-- A name in front of the first colon of a line. -/
theorem takeWhile_colon {name : Bytes} (h : 58 ∉ name) (value : Bytes) :
    (name ++ 58 :: value).takeWhile (· != 58) = name ∧
      (name ++ 58 :: value).dropWhile (· != 58) = 58 :: value := by
  induction name with
  | nil => exact ⟨rfl, rfl⟩
  | cons b name ih =>
    rw [List.mem_cons, not_or] at h
    obtain ⟨htake, hdrop⟩ := ih h.2
    have hb : (b != 58) = true := by simpa using Ne.symm h.1
    rw [List.cons_append, List.takeWhile_cons, List.dropWhile_cons, if_pos hb, if_pos hb, htake]
    exact ⟨rfl, hdrop⟩

/-- The parts of a line with a colon. -/
theorem eq_takeWhile_colon {line value : Bytes} {b : UInt8}
    (h : line.dropWhile (· != 58) = b :: value) :
    line = line.takeWhile (· != 58) ++ 58 :: value ∧ 58 ∉ line.takeWhile (· != 58) := by
  have hb : b = 58 := by
    have hhead := List.head_dropWhile_not (p := (· != (58 : UInt8))) (l := line) (by simp [h])
    simpa [h] using hhead
  refine ⟨?_, fun hmem => ?_⟩
  · rw [hb] at h
    rw [← h, List.takeWhile_append_dropWhile]
  · have hne := List.mem_takeWhile_imp hmem
    exact absurd rfl (bne_iff_ne.mp hne)

/-! ### More input -/

theorem msgHeadersEnd_ne_nil : msgHeadersEnd ≠ [] := by decide

theorem announcedLength_append {p q : Bytes} {h : Nat} (hle : h ≤ p.length) :
    announcedLength (p ++ q) h = announcedLength p h := by
  rw [announcedLength, announcedLength, List.take_append_of_le_length hle]

/-- Whether `s` starts with a CRLF is decided by any two bytes of it. -/
private theorem keepaliveResponse_append {p q : Bytes} (hp : 2 ≤ p.length) :
    keepaliveResponse <+: p ++ q ↔ keepaliveResponse <+: p :=
  prefix_drop_append (show 0 + keepaliveResponse.length ≤ p.length by
    simpa [keepaliveResponse] using hp)

/-- **More input does not change an answer**, when it does not make the buffer start with a
    double CRLF. -/
theorem decode_append {p q : Bytes} (hping : ¬ keepaliveRequest <+: p ++ q) :
    (∀ i rest, decode p = .item i rest → decode (p ++ q) = .item i (rest ++ q)) ∧
      (∀ e, decode p = .fail e → decode (p ++ q) = .fail e) := by
  have hp : ¬ keepaliveRequest <+: p := fun h => hping (h.trans (List.prefix_append _ _))
  unfold decode
  rw [if_neg hping, if_neg hp]
  by_cases hresp : keepaliveResponse <+: p
  · rw [if_pos hresp, if_pos (hresp.trans (List.prefix_append _ _))]
    have hlen : keepaliveResponse.length ≤ p.length := hresp.length_le
    rw [List.drop_append_of_le_length hlen]
    constructor
    · intro i rest h
      simp only [Step.item.injEq] at h
      rw [← h.1, ← h.2]
    · intro e h
      simp at h
  · rw [if_neg hresp]
    cases hwin : findWindow msgHeadersEnd p with
    | none => simp
    | some hdrEnd =>
      -- the headers are complete in `p`, so they are the same in `p ++ q`
      have hle := findWindow_le_length msgHeadersEnd_ne_nil hwin
      have hlen : msgHeadersEnd.length = 4 := rfl
      rw [if_neg (by rw [keepaliveResponse_append (by omega)]; exact hresp),
        (findWindow_append_iff msgHeadersEnd_ne_nil hle).mpr hwin]
      dsimp only
      rw [announcedLength_append (by omega)]
      cases hann : announcedLength p hdrEnd with
      | error e => simp
      | ok found =>
        cases found with
        | none => simp
        | some cLen =>
          dsimp only
          by_cases hover : usizeMax < hdrEnd + msgHeadersEnd.length + cLen
          · simp [hover]
          · rw [if_neg hover, if_neg hover]
            by_cases hshort : p.length < hdrEnd + msgHeadersEnd.length + cLen
            · simp [hshort]
            · have hfits : hdrEnd + msgHeadersEnd.length + cLen ≤ p.length := by omega
              rw [if_neg hshort, if_neg (by rw [List.length_append]; omega),
                List.take_append_of_le_length hfits, List.drop_append_of_le_length hfits]
              constructor
              · intro i rest h
                simp only [Step.item.injEq] at h
                rw [← h.1, ← h.2]
              · intro e h
                simp at h

/-- The headers of a buffer are those of a beginning of it that holds them. -/
theorem headers_take {s : Bytes} {hdrEnd n : Nat} (hwin : findWindow msgHeadersEnd s = some hdrEnd)
    (hn : hdrEnd + msgHeadersEnd.length ≤ n) (hle : n ≤ s.length) :
    findWindow msgHeadersEnd (s.take n) = some hdrEnd ∧
      announcedLength (s.take n) hdrEnd = announcedLength s hdrEnd := by
  have hlen : (s.take n).length = n := by rw [List.length_take]; omega
  have hsplit : s.take n ++ s.drop n = s := List.take_append_drop n s
  constructor
  · rw [← findWindow_append_iff msgHeadersEnd_ne_nil (q := s.drop n) (by omega), hsplit]
    exact hwin
  · rw [← announcedLength_append (q := s.drop n) (by omega), hsplit]

/-! ### What a call does -/

theorem not_keepaliveRequest {s : Bytes} (hresp : ¬ keepaliveResponse <+: s) :
    ¬ keepaliveRequest <+: s := fun h => hresp (List.IsPrefix.trans (by decide) h)

/-- **A message with a length** at the front of the buffer. -/
theorem decode_message {s : Bytes} {hdrEnd cLen : Nat} (hresp : ¬ keepaliveResponse <+: s)
    (hwin : findWindow msgHeadersEnd s = some hdrEnd)
    (hann : announcedLength s hdrEnd = .ok (some cLen)) :
    decode s =
      if usizeMax < hdrEnd + msgHeadersEnd.length + cLen then .fail .overflow
      else if s.length < hdrEnd + msgHeadersEnd.length + cLen then
        .pending (hdrEnd + msgHeadersEnd.length + cLen - s.length)
      else .item (.complete (s.take (hdrEnd + msgHeadersEnd.length + cLen)))
        (s.drop (hdrEnd + msgHeadersEnd.length + cLen)) := by
  unfold decode
  rw [if_neg (not_keepaliveRequest hresp), if_neg hresp, hwin]
  dsimp only
  rw [hann]

/-- **What a call takes off**: a keep-alive, or a message with as many bytes behind its headers
    as they announce. -/
theorem decode_item_cases {s rest : Bytes} {i : FramedMessage} (h : decode s = .item i rest) :
    (keepaliveRequest <+: s ∧ i = .keepaliveRequest ∧ rest = s.drop keepaliveRequest.length) ∨
      (keepaliveResponse <+: s ∧ i = .keepaliveResponse ∧
        rest = s.drop keepaliveResponse.length) ∨
      ∃ hdrEnd cLen, ¬ keepaliveResponse <+: s ∧ findWindow msgHeadersEnd s = some hdrEnd ∧
        announcedLength s hdrEnd = .ok (some cLen) ∧
        hdrEnd + msgHeadersEnd.length + cLen ≤ usizeMax ∧
        hdrEnd + msgHeadersEnd.length + cLen ≤ s.length ∧
        i = .complete (s.take (hdrEnd + msgHeadersEnd.length + cLen)) ∧
        rest = s.drop (hdrEnd + msgHeadersEnd.length + cLen) := by
  by_cases hresp : keepaliveResponse <+: s
  · unfold decode at h
    by_cases hreq : keepaliveRequest <+: s
    · rw [if_pos hreq, Step.item.injEq] at h
      exact .inl ⟨hreq, h.1.symm, h.2.symm⟩
    · rw [if_neg hreq, if_pos hresp, Step.item.injEq] at h
      exact .inr (.inl ⟨hresp, h.1.symm, h.2.symm⟩)
  · have hreq := not_keepaliveRequest hresp
    cases hwin : findWindow msgHeadersEnd s with
    | none => simp [decode, hreq, hresp, hwin] at h
    | some hdrEnd =>
      -- an item needs a length
      cases hann : announcedLength s hdrEnd with
      | error e => simp [decode, hreq, hresp, hwin, hann] at h
      | ok found =>
        cases found with
        | none => simp [decode, hreq, hresp, hwin, hann] at h
        | some cLen =>
          rw [decode_message hresp hwin hann] at h
          split_ifs at h with hover hshort
          rw [Step.item.injEq] at h
          exact .inr (.inr ⟨hdrEnd, cLen, hresp, rfl, hann, by omega, by omega, h.1.symm,
            h.2.symm⟩)

theorem decode_progress : Progress decode := by
  intro bs i rest h
  have hdrop : ∀ n, 0 < n → n ≤ bs.length → (bs.drop n).length < bs.length := by
    intro n hpos hle
    rw [List.length_drop]
    omega
  rcases decode_item_cases h with ⟨hreq, -, rfl⟩ | ⟨hresp, -, rfl⟩ |
    ⟨hdrEnd, cLen, -, -, -, -, hle, -, rfl⟩
  · exact hdrop _ (by decide) hreq.length_le
  · exact hdrop _ (by decide) hresp.length_le
  · have h4 : msgHeadersEnd.length = 4 := rfl
    exact hdrop _ (by omega) hle

/-! ### Streams without a ping at a boundary -/

/-- The length of the frame at the front of `s`, if all of it is there: a CRLF, or a header
    section with the body it announces. -/
def frameLen (s : Bytes) : Option Nat :=
  if keepaliveResponse <+: s then some keepaliveResponse.length
  else
    match findWindow msgHeadersEnd s with
    | none => none
    | some hdrEnd =>
      match announcedLength s hdrEnd with
      | .ok (some cLen) =>
        let expected := hdrEnd + msgHeadersEnd.length + cLen
        if expected ≤ usizeMax ∧ expected ≤ s.length then some expected else none
      | _ => none

/-- At the front of `s`, or after some of its frames, there is a double CRLF. -/
inductive HasPing : Bytes → Prop where
  | here {s : Bytes} (h : keepaliveRequest <+: s) : HasPing s
  | later {s : Bytes} {n : Nat} (h : frameLen s = some n) (hrest : HasPing (s.drop n)) :
      HasPing s

/-- **The frame at the front**, as one of the two kinds. -/
theorem frameLen_eq_some_iff {s : Bytes} {n : Nat} :
    frameLen s = some n ↔ (keepaliveResponse <+: s ∧ n = keepaliveResponse.length) ∨
      ∃ hdrEnd cLen, ¬ keepaliveResponse <+: s ∧ findWindow msgHeadersEnd s = some hdrEnd ∧
        announcedLength s hdrEnd = .ok (some cLen) ∧
        n = hdrEnd + msgHeadersEnd.length + cLen ∧ n ≤ usizeMax ∧ n ≤ s.length := by
  by_cases hresp : keepaliveResponse <+: s
  · rw [frameLen, if_pos hresp, Option.some.injEq]
    simp [hresp, eq_comm]
  · rw [frameLen, if_neg hresp]
    -- a frame needs the end of the headers, and the length that they announce
    cases hwin : findWindow msgHeadersEnd s with
    | none => simp [hresp]
    | some hdrEnd =>
      cases hann : announcedLength s hdrEnd with
      | error e => simp [hresp, hann]
      | ok found =>
        cases found with
        | none => simp [hresp, hann]
        | some cLen =>
          simp only [hann, Option.ite_none_right_eq_some, Option.some.injEq, hresp, false_and,
            false_or, not_false_eq_true, true_and]
          constructor
          · rintro ⟨⟨hmax, hle⟩, rfl⟩
            exact ⟨hdrEnd, cLen, rfl, hann, rfl, hmax, hle⟩
          · rintro ⟨hdrEnd', cLen', rfl, hann', rfl, hmax, hle⟩
            cases hann.symm.trans hann'
            exact ⟨⟨hmax, hle⟩, rfl⟩

/-- What the decoder takes off is the frame at the front. -/
theorem decode_item_frameLen {s rest : Bytes} {i : FramedMessage}
    (hping : ¬ keepaliveRequest <+: s) (h : decode s = .item i rest) :
    ∃ n, frameLen s = some n ∧ rest = s.drop n := by
  rcases decode_item_cases h with ⟨hreq, -⟩ | ⟨hresp, -, rfl⟩ |
    ⟨hdrEnd, cLen, hresp, hwin, hann, hmax, hle, -, rfl⟩
  · exact absurd hreq hping
  · exact ⟨_, frameLen_eq_some_iff.mpr (.inl ⟨hresp, rfl⟩), rfl⟩
  · exact ⟨_, frameLen_eq_some_iff.mpr (.inr ⟨hdrEnd, cLen, hresp, hwin, hann, rfl, hmax, hle⟩),
      rfl⟩

/-- The decoder takes a frame off that is alone in the buffer. -/
theorem decode_take_frameLen {s : Bytes} {n : Nat} (h : frameLen s = some n) :
    ∃ i, decode (s.take n) = .item i [] := by
  rcases frameLen_eq_some_iff.mp h with ⟨⟨t, rfl⟩, rfl⟩ |
    ⟨hdrEnd, cLen, hresp, hwin, hann, hn, hmax, hle⟩
  · rw [List.take_left]
    exact ⟨.keepaliveResponse, by decide⟩
  · -- the headers are all in the frame, and so is the body
    have hresp' : ¬ keepaliveResponse <+: s.take n := fun hp =>
      hresp (hp.trans (List.take_prefix n s))
    obtain ⟨hwin', hann'⟩ := headers_take hwin (by omega) hle
    have hlen : (s.take n).length = n := by rw [List.length_take]; omega
    rw [decode_message hresp' hwin' (hann'.trans hann), ← hn, if_neg (by omega),
      if_neg (by omega), List.drop_of_length_le (by omega)]
    exact ⟨_, rfl⟩

/-- A stream without a ping at a boundary is steady. -/
theorem steady_of_not_hasPing {s : Bytes} (h : ¬ HasPing s) : Steady decode s := by
  generalize hn : s.length = n
  induction n using Nat.strongRecOn generalizing s with
  | ind n ih =>
    have hfront : ¬ keepaliveRequest <+: s := fun hp => h (.here hp)
    refine .intro ?_ ?_
    · rintro p q rfl
      exact decode_append hfront
    · intro i rest hdec
      obtain ⟨k, hk, rfl⟩ := decode_item_frameLen hfront hdec
      have hlt := decode_progress s i _ hdec
      exact ih _ (by omega) (fun hrest => h (.later hk hrest)) rfl

/-! ### Chunks -/

/-- The frames that come out of a stream cut into chunks. -/
def framed (chunks : List Bytes) : List FramedMessage := (run decode [] chunks).1

/-- The error that ends the decoding of a stream cut into chunks, if there is one. -/
def decodeError (chunks : List Bytes) : Option DecodeFailure := (run decode [] chunks).2.failure

theorem drain_decode_nil : drain decode [] = ([], .more []) := by decide

theorem run_decode_eq_drain {chunks : List Bytes} (h : ¬ HasPing chunks.flatten) :
    run decode [] chunks = drain decode chunks.flatten := by
  have hsteady : Steady decode ([] ++ chunks.flatten) := steady_of_not_hasPing h
  exact run_eq_drain decode_progress drain_decode_nil hsteady

/-- A first chunk that is one frame gives that frame. -/
private theorem framed_cons {s : Bytes} {i : FramedMessage} (h : decode s = .item i [])
    (chunks : List Bytes) : framed (s :: chunks) = i :: framed chunks := by
  have hdrain : drain decode s = ([i], .more []) := by
    rw [drain_item decode_progress h, drain_decode_nil]
  simp [framed, run, hdrain]

/-- A ping at a boundary can be cut in two. -/
private theorem framed_ne_of_hasPing {s : Bytes} (h : HasPing s) :
    ∃ c₁ c₂ : List Bytes, c₁.flatten = s ∧ c₂.flatten = s ∧ framed c₁ ≠ framed c₂ := by
  induction h with
  | @here s h =>
    obtain ⟨t, rfl⟩ := h
    refine ⟨[keepaliveRequest ++ t], [keepaliveResponse, keepaliveResponse ++ t],
      by simp, by simp [keepaliveRequest, keepaliveResponse], ?_⟩
    have hwhole : decode (keepaliveRequest ++ t) = .item .keepaliveRequest t := by
      unfold decode
      rw [if_pos (List.prefix_append _ _), List.drop_left]
    have hfirst : (framed [keepaliveRequest ++ t]).head? = some .keepaliveRequest := by
      simp only [framed, run, List.nil_append, drain_item decode_progress hwhole]
      cases (drain decode t).2 <;> rfl
    rw [framed_cons (show decode keepaliveResponse = .item .keepaliveResponse [] by decide)]
    intro heq
    rw [heq] at hfirst
    exact absurd hfirst (by simp)
  | @later s n hlen hrest ih =>
    obtain ⟨c₁, c₂, h₁, h₂, hne⟩ := ih
    obtain ⟨i, hi⟩ := decode_take_frameLen hlen
    refine ⟨s.take n :: c₁, s.take n :: c₂, ?_, ?_, ?_⟩
    · rw [List.flatten_cons, h₁, List.take_append_drop]
    · rw [List.flatten_cons, h₂, List.take_append_drop]
    · rw [framed_cons hi, framed_cons hi]
      exact fun heq => hne (List.cons.inj heq).2

/-- **The chunks in which a stream arrives matter exactly when a double CRLF stands at a frame
    boundary**: it is one keep-alive when it arrives at once and two when it does not. -/
theorem run_decode_eq_iff (s : Bytes) :
    (∀ c₁ c₂ : List Bytes, c₁.flatten = s → c₂.flatten = s →
      framed c₁ = framed c₂ ∧ decodeError c₁ = decodeError c₂) ↔ ¬ HasPing s := by
  constructor
  · intro hall hping
    obtain ⟨c₁, c₂, h₁, h₂, hne⟩ := framed_ne_of_hasPing hping
    exact hne (hall c₁ c₂ h₁ h₂).1
  · rintro hping c₁ c₂ rfl h₂
    have hrun₁ := run_decode_eq_drain hping
    have hrun₂ := run_decode_eq_drain (h₂ ▸ hping)
    rw [framed, framed, decodeError, decodeError, hrun₁, hrun₂, h₂]
    exact ⟨rfl, rfl⟩

/-- A double CRLF at once is a keep-alive request, its halves are two responses. -/
theorem framed_split_ping :
    ¬ ∀ (s : Bytes) (c₁ c₂ : List Bytes), c₁.flatten = s → c₂.flatten = s →
      framed c₁ = framed c₂ ∧ decodeError c₁ = decodeError c₂ := by
  intro hall
  have h := (hall [13, 10, 13, 10] [[13, 10, 13, 10]] [[13, 10], [13, 10]] rfl rfl).1
  exact absurd h (by decide)

end Rssip
