import Rssip.Transport.Decode

namespace Rssip

open Lib

/-!
# One call of the stream decoder

What a call of `StreamingDecoder::decode` does to the buffer, whatever is in it.

* `decodeCall` — the result and the buffer after the call, with the growth of the buffer as a
  parameter;
* `IsMessageFrame` — what a complete message is, without reference to the decoder;
* `decodeCall_exact_iff` — when a call takes off exactly one frame or leaves the buffer alone.
-/

/-! ### A call -/

/-- What comes of a call: its result and the buffer after it, an addition that overflows, or a
    panic in `reserve`. -/
inductive DecodeOutcome where
  | returned (res : Except IoError (Option FramedMessage)) (src : Bytes)
  | overflowed
  | reservePanicked
deriving DecidableEq

/-- A call of the decoder.  `reserve len additional` tells whether a buffer of `len` bytes can
    be made larger by `additional`; it is asked only where a message is not complete. -/
def decodeCall (reserve : Nat → Nat → Bool) (src : Bytes) : DecodeOutcome :=
  match decode src with
  | .item frame rest => .returned (.ok (some frame)) rest
  | .pending 0 => .returned (.ok none) src
  | .pending (n + 1) =>
    if reserve src.length (n + 1) then .returned (.ok none) src else .reservePanicked
  | .fail (.io e) => .returned (.error e) src
  | .fail .overflow => .overflowed

/-! ### Frames -/

/-- A header line that announces a length: the name of `Content-Length` in any case, or its
    short form, a colon, and a number with blanks around it. -/
def Announces (line : Bytes) (n : Nat) : Prop :=
  ∃ name value text, line = name ++ 58 :: value ∧ 58 ∉ name ∧
    (eqIgnoreAsciiCase name (asBytes ContentLength.name) = true ∨
      eqIgnoreAsciiCase name (asBytes ContentLength.shortName) = true) ∧
    fromUtf8 value = some text ∧ parseUnsigned (2 ^ 64) (asBytes (trim text)) = some n

/-- The last line that announces a length announces `n`. -/
def AnnouncesLast (lines : List Bytes) (n : Nat) : Prop :=
  ∃ before line after, lines = before ++ line :: after ∧ Announces line n ∧
    ∀ l ∈ after, ∀ m, ¬ Announces l m

/-- A message with its headers and body: the headers end with the first double CRLF, and the
    body is as long as they say. -/
def IsMessageFrame (f : Bytes) : Prop :=
  ∃ front body n, f = front ++ msgHeadersEnd ++ body ∧
    (∀ k < front.length, ¬ msgHeadersEnd <+: (front ++ msgHeadersEnd).drop k) ∧
    AnnouncesLast (front.splitOn 10) n ∧ body.length = n

/-- **The lines that announce a length** are those the decoder takes one from. -/
theorem lineLength_eq_ok_some_iff {line : Bytes} {n : Nat} :
    lineLength line = .ok (some n) ↔ Announces line n := by
  constructor
  · intro h
    unfold lineLength at h
    dsimp only at h
    -- a line of another name announces nothing
    split at h
    · next hname =>
      cases hdrop : line.dropWhile (· != 58) with
      | nil =>
        rw [hdrop] at h
        cases h
      | cons b value =>
        obtain ⟨hline, hcolon⟩ := eq_takeWhile_colon hdrop
        rw [hdrop] at h
        dsimp only at h
        cases htext : fromUtf8 value with
        | none =>
          rw [htext] at h
          cases h
        | some text =>
          rw [htext] at h
          exact ⟨_, value, text, hline, hcolon, by simpa using hname, htext, Except.ok.inj h⟩
    · cases h
  · rintro ⟨name, value, text, rfl, hcolon, hname, htext, hnumber⟩
    obtain ⟨htake, hdrop⟩ := takeWhile_colon hcolon value
    unfold lineLength
    dsimp only
    rw [htake, hdrop, if_pos (by simpa using hname)]
    dsimp only
    rw [htext]
    exact congrArg _ hnumber

/-- The last of the lengths that the lines announce counts, on top of one found before. -/
theorem contentLength_eq_ok_some {found : Option Nat} {lines : List Bytes} {n : Nat}
    (h : contentLength found lines = .ok (some n)) :
    AnnouncesLast lines n ∨ (found = some n ∧ ∀ l ∈ lines, ∀ m, ¬ Announces l m) := by
  induction lines generalizing found with
  | nil => exact .inr ⟨Except.ok.inj h, by simp⟩
  | cons line lines ih =>
    rw [contentLength] at h
    cases hline : lineLength line with
    | error e =>
      rw [hline] at h
      cases h
    | ok this =>
      rw [hline] at h
      cases this with
      | some k =>
        rcases ih h with ⟨before, last, after, rfl, hlast, hafter⟩ | ⟨hk, hnone⟩
        · exact .inl ⟨line :: before, last, after, rfl, hlast, hafter⟩
        · -- this line is the last one
          rw [Option.some.inj hk] at hline
          exact .inl ⟨[], line, lines, rfl, lineLength_eq_ok_some_iff.mp hline, hnone⟩
      | none =>
        rcases ih h with ⟨before, last, after, rfl, hlast, hafter⟩ | ⟨hfound, hnone⟩
        · exact .inl ⟨line :: before, last, after, rfl, hlast, hafter⟩
        · refine .inr ⟨hfound, List.forall_mem_cons.mpr ⟨fun m hm => ?_, hnone⟩⟩
          rw [lineLength_eq_ok_some_iff.mpr hm] at hline
          cases hline

/-! ### What a call does -/

/-- The parts of a buffer whose headers are complete. -/
theorem eq_append_of_findWindow {src : Bytes} {hdrEnd : Nat}
    (h : findWindow msgHeadersEnd src = some hdrEnd) :
    ∃ rest, src = src.take hdrEnd ++ msgHeadersEnd ++ rest ∧ (src.take hdrEnd).length = hdrEnd ∧
      ∀ k < hdrEnd, ¬ msgHeadersEnd <+: (src.take hdrEnd ++ msgHeadersEnd).drop k := by
  have hle := findWindow_le_length msgHeadersEnd_ne_nil h
  obtain ⟨⟨rest, hrest⟩, hfirst⟩ := (findWindow_eq_some_iff msgHeadersEnd_ne_nil).mp h
  have hsplit : src = src.take hdrEnd ++ msgHeadersEnd ++ rest := by
    rw [List.append_assoc, hrest, List.take_append_drop]
  refine ⟨rest, hsplit, by rw [List.length_take]; omega, fun k hk hpre => hfirst k hk ?_⟩
  refine hpre.trans ?_
  -- the part up to the headers' end is the beginning of the buffer
  have hlen : k ≤ (src.take hdrEnd ++ msgHeadersEnd).length := by
    rw [List.length_append, List.length_take]
    omega
  have hdrop : src.drop k = (src.take hdrEnd ++ msgHeadersEnd).drop k ++ rest := by
    conv_lhs => rw [hsplit]
    exact List.drop_append_of_le_length hlen
  rw [hdrop]
  exact List.prefix_append _ _

/-- **A message that is taken off** is a frame. -/
theorem isMessageFrame_take {src : Bytes} {hdrEnd cLen : Nat}
    (hwin : findWindow msgHeadersEnd src = some hdrEnd)
    (hlen : announcedLength src hdrEnd = .ok (some cLen))
    (hfits : hdrEnd + msgHeadersEnd.length + cLen ≤ src.length) :
    IsMessageFrame (src.take (hdrEnd + msgHeadersEnd.length + cLen)) := by
  obtain ⟨rest, hsplit, hfront, hfirst⟩ := eq_append_of_findWindow hwin
  have hrest : src.length = hdrEnd + msgHeadersEnd.length + rest.length := by
    conv_lhs => rw [hsplit]
    rw [List.length_append, List.length_append, hfront]
  refine ⟨src.take hdrEnd, rest.take cLen, cLen, ?_, ?_, ?_, ?_⟩
  · conv_lhs => rw [hsplit]
    rw [List.take_append, List.length_append, hfront, Nat.add_sub_cancel_left,
      List.take_of_length_le (by rw [List.length_append, hfront]; omega)]
  · rw [hfront]
    exact hfirst
  · rcases contentLength_eq_ok_some hlen with hlast | ⟨hnone, -⟩
    · exact hlast
    · cases hnone
  · rw [List.length_take]
    omega

/-- What a call is to do: it returns; without an answer it leaves the buffer alone; and what it
    takes off is not empty, and exactly a message if it says so. -/
def CallIsExact (reserve : Nat → Nat → Bool) (src : Bytes) : Prop :=
  ∃ res src', decodeCall reserve src = .returned res src' ∧ (res = .ok none → src' = src) ∧
    ∀ frame, res = .ok (some frame) → ∃ taken, taken ≠ [] ∧ src = taken ++ src' ∧
      ∀ f, frame = .complete f → f = taken ∧ IsMessageFrame f

/-- A message at the front of the buffer is not too long: its headers and the length they
    announce are a `usize`, and the buffer can be made as large. -/
def FitsBuffer (reserve : Nat → Nat → Bool) (src : Bytes) : Prop :=
  ∀ hdrEnd cLen, ¬ keepaliveResponse <+: src → findWindow msgHeadersEnd src = some hdrEnd →
    announcedLength src hdrEnd = .ok (some cLen) →
      let expected := hdrEnd + msgHeadersEnd.length + cLen
      expected ≤ usizeMax ∧
        (src.length < expected → reserve src.length (expected - src.length) = true)

/-- **What a call does**, by what is at the front of the buffer: a CRLF, no message with a
    length, or a message and the length it announces. -/
theorem decode_cases (src : Bytes) :
    (keepaliveResponse <+: src ∧ ∃ frame n, 0 < n ∧ n ≤ src.length ∧
        (∀ f, frame ≠ .complete f) ∧ decode src = .item frame (src.drop n)) ∨
      ((∀ hdrEnd cLen, findWindow msgHeadersEnd src = some hdrEnd →
          announcedLength src hdrEnd ≠ .ok (some cLen)) ∧
        (decode src = .pending 0 ∨ ∃ e, decode src = .fail (.io e))) ∨
      ∃ hdrEnd cLen, ¬ keepaliveResponse <+: src ∧ findWindow msgHeadersEnd src = some hdrEnd ∧
        announcedLength src hdrEnd = .ok (some cLen) ∧
        decode src =
          if usizeMax < hdrEnd + msgHeadersEnd.length + cLen then .fail .overflow
          else if src.length < hdrEnd + msgHeadersEnd.length + cLen then
            .pending (hdrEnd + msgHeadersEnd.length + cLen - src.length)
          else .item (.complete (src.take (hdrEnd + msgHeadersEnd.length + cLen)))
            (src.drop (hdrEnd + msgHeadersEnd.length + cLen)) := by
  -- the branches of `decode`, in its order
  by_cases hrequest : keepaliveRequest <+: src
  · refine .inl ⟨List.IsPrefix.trans (by decide) hrequest, .keepaliveRequest, 4, by omega,
      hrequest.length_le, by simp, if_pos hrequest⟩
  by_cases hcrlf : keepaliveResponse <+: src
  · exact .inl ⟨hcrlf, .keepaliveResponse, 2, by omega, hcrlf.length_le, by simp,
      (if_neg hrequest).trans (if_pos hcrlf)⟩
  cases hwin : findWindow msgHeadersEnd src with
  | none => exact .inr (.inl ⟨by simp, .inl (by simp [decode, hrequest, hcrlf, hwin])⟩)
  | some hdrEnd =>
    cases hlen : announcedLength src hdrEnd with
    | error e =>
      refine .inr (.inl ⟨fun hdrEnd' cLen hsome => ?_,
        .inr ⟨e, by simp [decode, hrequest, hcrlf, hwin, hlen]⟩⟩)
      cases hsome
      rw [hlen]
      simp
    | ok found =>
      cases found with
      | none =>
        refine .inr (.inl ⟨fun hdrEnd' cLen hsome => ?_,
          .inr ⟨_, by simp only [decode, hrequest, hcrlf, hwin, hlen]; rfl⟩⟩)
        cases hsome
        rw [hlen]
        simp
      | some cLen => exact .inr (.inr ⟨hdrEnd, cLen, hcrlf, rfl, hlen, decode_message hcrlf hwin hlen⟩)

section Exact

variable {reserve : Nat → Nat → Bool} {src : Bytes}

/-- A call that gives no frame and leaves the buffer alone. -/
theorem callIsExact_of_unchanged {res : Except IoError (Option FramedMessage)}
    (hcall : decodeCall reserve src = .returned res src) (hres : ∀ frame, res ≠ .ok (some frame)) :
    CallIsExact reserve src :=
  ⟨res, src, hcall, fun _ => rfl, fun frame hframe => absurd hframe (hres frame)⟩

/-- A call that takes the first `n` bytes off. -/
theorem callIsExact_of_take {frame : FramedMessage} {n : Nat} (hpos : 0 < n) (hn : n ≤ src.length)
    (hdecode : decode src = .item frame (src.drop n))
    (hframe : ∀ f, frame = .complete f → f = src.take n ∧ IsMessageFrame f) :
    CallIsExact reserve src := by
  refine ⟨.ok (some frame), src.drop n, by rw [decodeCall, hdecode], by simp, ?_⟩
  rintro frame' hframe'
  cases hframe'
  refine ⟨src.take n, fun hnil => ?_, (List.take_append_drop n src).symm, hframe⟩
  have hlength := congrArg List.length hnil
  rw [List.length_take, List.length_nil] at hlength
  omega

/-- A call that does not return. -/
theorem not_callIsExact_of_eq {out : DecodeOutcome} (hcall : decodeCall reserve src = out)
    (hout : ∀ res src', out ≠ .returned res src') : ¬ CallIsExact reserve src := by
  rintro ⟨res, src', hreturned, -⟩
  exact hout res src' (hcall.symm.trans hreturned)

theorem decodeCall_of_pending {n : Nat} (hpos : 0 < n) (hdecode : decode src = .pending n) :
    decodeCall reserve src =
      if reserve src.length n then .returned (.ok none) src else .reservePanicked := by
  obtain ⟨n, rfl⟩ : ∃ m, n = m + 1 := ⟨n - 1, by omega⟩
  rw [decodeCall, hdecode]

/-- Where a length is announced, it is the one that has to fit. -/
theorem fitsBuffer_iff {hdrEnd cLen : Nat} (hcrlf : ¬ keepaliveResponse <+: src)
    (hwin : findWindow msgHeadersEnd src = some hdrEnd)
    (hlen : announcedLength src hdrEnd = .ok (some cLen)) :
    FitsBuffer reserve src ↔
      hdrEnd + msgHeadersEnd.length + cLen ≤ usizeMax ∧
        (src.length < hdrEnd + msgHeadersEnd.length + cLen →
          reserve src.length (hdrEnd + msgHeadersEnd.length + cLen - src.length) = true) := by
  constructor
  · intro h
    exact h hdrEnd cLen hcrlf hwin hlen
  · intro h hdrEnd' cLen' _ hwin' hlen'
    cases hwin.symm.trans hwin'
    cases hlen.symm.trans hlen'
    exact h

end Exact

/-- **When a call is exact.** It takes exactly one frame off the buffer, or leaves the buffer
    alone, exactly when the message at the front is not too long. -/
theorem decodeCall_exact_iff (reserve : Nat → Nat → Bool) (src : Bytes) :
    CallIsExact reserve src ↔ FitsBuffer reserve src := by
  rcases decode_cases src with ⟨hcrlf, frame, n, hpos, hn, hframe, hdecode⟩ |
    ⟨hnone, hdecode⟩ | ⟨hdrEnd, cLen, hcrlf, hwin, hlen, hdecode⟩
  · -- a keep-alive is taken off
    refine iff_of_true ?_ fun _ _ hnot => absurd hcrlf hnot
    exact callIsExact_of_take hpos hn hdecode fun f hf => absurd hf (hframe f)
  · -- no message is announced, and the buffer is left alone
    have hfits : FitsBuffer reserve src := fun hdrEnd cLen _ hwin hlen =>
      absurd hlen (hnone hdrEnd cLen hwin)
    refine iff_of_true ?_ hfits
    rcases hdecode with hdecode | ⟨e, hdecode⟩
    · exact callIsExact_of_unchanged (by rw [decodeCall, hdecode]) (by simp)
    · exact callIsExact_of_unchanged (by rw [decodeCall, hdecode]) (by simp)
  · -- a message is announced
    have htake := isMessageFrame_take hwin hlen
    have hpos : 0 < msgHeadersEnd.length := by decide
    rw [fitsBuffer_iff hcrlf hwin hlen]
    generalize hexpected : hdrEnd + msgHeadersEnd.length + cLen = expected at *
    by_cases hover : usizeMax < expected
    · -- the sum overflows
      rw [if_pos hover] at hdecode
      have hcall : decodeCall reserve src = .overflowed := by rw [decodeCall, hdecode]
      exact iff_of_false (not_callIsExact_of_eq hcall (by simp)) fun h => absurd h.1 (by omega)
    rw [if_neg hover] at hdecode
    by_cases hshort : src.length < expected
    · -- the buffer is asked to grow
      rw [if_pos hshort] at hdecode
      have hcall : decodeCall reserve src = _ := decodeCall_of_pending (by omega) hdecode
      by_cases hreserve : reserve src.length (expected - src.length) = true
      · rw [if_pos hreserve] at hcall
        exact iff_of_true (callIsExact_of_unchanged hcall (by simp))
          ⟨by omega, fun _ => hreserve⟩
      · rw [if_neg hreserve] at hcall
        exact iff_of_false (not_callIsExact_of_eq hcall (by simp)) fun h => hreserve (h.2 hshort)
    · -- the whole message is there
      rw [if_neg hshort] at hdecode
      refine iff_of_true ?_ ⟨by omega, fun h => absurd h hshort⟩
      refine callIsExact_of_take (by omega) (by omega) hdecode fun f hf => ?_
      cases hf
      exact ⟨rfl, htake (by omega)⟩

/-- The headers of a message that announces the largest `usize`. -/
def largestLength : Bytes := asBytes "l:18446744073709551615\r\n\r\n"

/-- However far the buffer can grow, the sum overflows for the headers above. -/
theorem not_decodeCall_exact :
    ¬ ∃ reserve : Nat → Nat → Bool, ∀ src, CallIsExact reserve src := by
  rintro ⟨reserve, hall⟩
  obtain ⟨res, src', hcall, -⟩ := hall largestLength
  have hdecode : decode largestLength = .fail .overflow := by decide +kernel
  rw [decodeCall, hdecode] at hcall
  cases hcall

end Rssip
