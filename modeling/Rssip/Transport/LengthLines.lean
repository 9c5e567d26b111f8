import Rssip.Parser.Message
import Rssip.Transport.Frames
import Rssip.Transport.Framing

namespace Rssip

open Lib

/-!
# One `Content-Length`

The encoder writes a `Content-Length` of its own behind the headers of a message, whatever these
headers are.  The parser keeps a `Content-Length` it reads like any other header.

* `OneLength` — the header section has one `Content-Length`, with the length of the body;
* `SipMessage.LeavesLength` — what is printed in front of the line of the encoder does not
  announce a length;
* `encodesOneLength_iff` — when a message is encoded with one `Content-Length`.
-/

/-! ### Lines with a length -/

/-- The name of `Content-Length`, or its short form, in any case. -/
def isLengthName (name : Bytes) : Bool :=
  eqIgnoreAsciiCase name (asBytes ContentLength.name) ||
    eqIgnoreAsciiCase name (asBytes ContentLength.shortName)

/-- A line with that name in front of its first colon. -/
def isLengthLine (line : Bytes) : Bool :=
  isLengthName (line.takeWhile (· != 58)) && line.contains 58

/-- A line with that name and the number `n`, however large. -/
def SaysLength (line : Bytes) (n : Nat) : Prop :=
  ∃ name value text bound, line = name ++ 58 :: value ∧ 58 ∉ name ∧ isLengthName name ∧
    fromUtf8 value = some text ∧ parseUnsigned bound (asBytes (trim text)) = some n

/-- One of the lines is a `Content-Length`, and it says `n`. -/
def LengthOnce (lines : List Bytes) (n : Nat) : Prop :=
  ∃ before line after, lines = before ++ line :: after ∧ SaysLength line n ∧
    ∀ l ∈ before ++ after, isLengthLine l = false

/-- One of the lines in front of the first empty one is a `Content-Length`, and it says how many
    bytes there are behind. -/
def OneLength (bs : Bytes) : Prop :=
  ∃ front body, bs = front ++ (msgHeadersEnd ++ body) ∧
    findWindow msgHeadersEnd bs = some front.length ∧
      LengthOnce (front.splitOn 10) body.length

/-- A message is encoded with one `Content-Length`. -/
def EncodesOneLength (m : SipMessage) : Prop := ∃ bs, encode m = some bs ∧ OneLength bs

/-- The number and the name of a line agree. -/
theorem isLengthLine_of_saysLength {line : Bytes} {n : Nat} (h : SaysLength line n) :
    isLengthLine line = true := by
  obtain ⟨name, value, text, bound, rfl, hcolon, hname, -⟩ := h
  have htake := (takeWhile_colon hcolon value).1
  rw [isLengthLine, htake, hname]
  simp

/-- The line of the encoder says the length of the body. -/
theorem saysLength_lengthLine (body : Option Bytes) :
    SaysLength (asBytes (lengthLine body)) (body.getD []).length := by
  refine ⟨asBytes ContentLength.name, asBytes (" " ++ decimal (body.getD []).length), _,
    (body.getD []).length + 1, ?_, by decide, by decide, fromUtf8_asBytes _, ?_⟩
  · rw [lengthLine, asBytes_append, asBytes_append, asBytes_append,
      show asBytes ": " = 58 :: asBytes " " by decide]
    simp
  · rw [trim_space_decimal, parseUnsigned_decimal (by omega)]

/-- Behind other lines, a `Content-Length` is the only one if none of the others is one. -/
theorem lengthOnce_append_iff {lines : List Bytes} {last : Bytes} {n : Nat}
    (hlast : SaysLength last n) :
    LengthOnce (lines ++ [last]) n ↔ ∀ line ∈ lines, isLengthLine line = false := by
  constructor
  · rintro ⟨before, line, after, hlines, -, hothers⟩
    rcases List.eq_nil_or_concat after with rfl | ⟨after, other, rfl⟩
    · -- the line found is the last one
      obtain ⟨rfl, -⟩ := List.append_inj' hlines rfl
      simpa using hothers
    · -- the last line would be one of the others
      have hsplit : lines ++ [last] = (before ++ line :: after) ++ [other] := by
        rw [hlines, List.concat_eq_append, List.append_assoc, List.cons_append]
      obtain ⟨-, hother⟩ := List.append_inj' hsplit rfl
      have hfalse := hothers other (by simp)
      rw [← List.singleton_inj.mp hother, isLengthLine_of_saysLength hlast] at hfalse
      cases hfalse
  · intro h
    exact ⟨lines, last, [], rfl, hlast, by simpa using h⟩

/-- Where the headers end is one place only. -/
theorem oneLength_iff {bs : Bytes} {hdrEnd : Nat}
    (hwin : findWindow msgHeadersEnd bs = some hdrEnd) :
    OneLength bs ↔ LengthOnce ((bs.take hdrEnd).splitOn 10)
      (bs.length - (hdrEnd + msgHeadersEnd.length)) := by
  constructor
  · rintro ⟨front, body, hbs, hfront, honce⟩
    have hend := Option.some.inj (hwin.symm.trans hfront)
    rw [hend, hbs, List.take_left]
    simpa [← Nat.sub_sub] using honce
  · intro h
    obtain ⟨rest, hbs, hlen, -⟩ := eq_append_of_findWindow hwin
    rw [List.append_assoc] at hbs
    refine ⟨bs.take hdrEnd, rest, hbs, by rw [hlen]; exact hwin, ?_⟩
    have hrest : bs.length - (hdrEnd + msgHeadersEnd.length) = rest.length := by
      conv_lhs => rw [hbs]
      rw [List.length_append, List.length_append, hlen]
      omega
    rwa [hrest] at h

/-! ### In front of the line of the encoder -/

/-- What is printed of a message in front of that line: the start line and the headers. -/
def SipMessage.printed (m : SipMessage) : Option Bytes := do
  let headers ← Headers.toText m.headers
  return asBytes (m.startLine ++ "\r\n") ++ asBytes headers

/-- The line of the encoder is the only `Content-Length`: no line in front of it is one.  If an
    empty line is printed in front of it, which takes a text over several lines, then it is not
    in the header section; then one of the lines in front of the empty one says the length of all
    that comes behind. -/
def SipMessage.LeavesLength (m : SipMessage) : Prop :=
  ∃ printed, m.printed = some printed ∧
    match findWindow msgHeadersEnd printed with
    | none => ∀ line ∈ printed.splitOn 10, isLengthLine line = false
    | some hdrEnd => LengthOnce ((printed.take hdrEnd).splitOn 10)
        (printed.length + (writeBody m.body).length - (hdrEnd + msgHeadersEnd.length))

theorem encode_eq_some_iff_printed {m : SipMessage} {bs : Bytes} :
    encode m = some bs ↔ ∃ printed, m.printed = some printed ∧
      bs = printed ++ writeBody m.body := by
  simp only [encode_eq_some_iff, SipMessage.printed, Option.bind_eq_bind, Option.bind_eq_some_iff,
    Option.pure_def, Option.some.injEq]
  constructor
  · rintro ⟨headers, hheaders, rfl⟩
    exact ⟨_, ⟨headers, hheaders, rfl⟩, rfl⟩
  · rintro ⟨_, ⟨headers, hheaders, rfl⟩, rfl⟩
    exact ⟨headers, hheaders, rfl⟩

/-- A text printed in front of the length ends with its line. -/
theorem SipMessage.printed_eq_append {m : SipMessage} {printed : Bytes}
    (h : m.printed = some printed) : ∃ front, printed = front ++ [10] := by
  have hjoin : ∀ (line : String) (lines : List String),
      ∃ front, joinLines (line :: lines) = front ++ [10] := by
    intro line lines
    rcases List.eq_nil_or_concat (line :: lines) with hnil | ⟨others, last, hlast⟩
    · cases hnil
    · rw [hlast, List.concat_eq_append, joinLines_append]
      exact ⟨joinLines others ++ (asBytes last ++ [13]), by simp⟩
  obtain ⟨text, htext, hprinted⟩ := Option.bind_eq_some_iff.mp h
  obtain ⟨lines, hbytes, -⟩ := asBytes_headersToText htext
  obtain ⟨front, hfront⟩ := hjoin m.startLine lines
  refine ⟨front, ?_⟩
  rw [← Option.some.inj hprinted, hbytes, asBytes_append, ← hfront, joinLines]
  rfl

/-- A window that is not in the first part, and cannot begin there, is in the second. -/
theorem findWindow_append_of_none {pat xs ys : Bytes} {y : UInt8}
    (hxs : findWindow pat xs = none) (hy : y ∉ pat) :
    findWindow pat (xs ++ y :: ys) = (findWindow pat (y :: ys)).map (· + xs.length) := by
  induction xs with
  | nil => simp
  | cons x xs ih =>
    rw [findWindow] at hxs
    by_cases hpre : pat <+: x :: xs
    · rw [if_pos hpre] at hxs
      cases hxs
    rw [if_neg hpre, Option.map_eq_none_iff] at hxs
    have hnot : ¬ pat <+: x :: (xs ++ y :: ys) := by
      intro hfound
      rcases Nat.lt_or_ge (x :: xs).length pat.length with hlong | hshort
      · -- the window would reach beyond the first part
        have hpart : (x :: xs) ++ [y] <+: pat := by
          have hlen : ((x :: xs) ++ [y]).length ≤ pat.length := by
            rw [List.length_append, List.length_singleton]
            omega
          exact List.prefix_of_prefix_length_le ⟨ys, by simp⟩ hfound hlen
        exact hy (hpart.subset (by simp))
      · exact hpre (List.prefix_of_prefix_length_le hfound (List.prefix_append (x :: xs) _) hshort)
    rw [List.cons_append, findWindow, if_neg hnot, ih hxs, Option.map_map, List.length_cons]
    rfl

/-- The line of the encoder, an empty one, and the body. -/
theorem writeBody_eq_lengthLine (body : Option Bytes) :
    writeBody body = asBytes (lengthLine body) ++ (msgHeadersEnd ++ body.getD []) := by
  rw [writeBody_eq, lengthLine, asBytes_append _ "\r\n",
    show asBytes "\r\n" = [13, 10] by decide, msgHeadersEnd]
  simp

/-- The line of the encoder starts with a byte that is in no line end. -/
theorem asBytes_lengthLine (body : Option Bytes) :
    ∃ tail, asBytes (lengthLine body) = 67 :: tail := by
  refine ⟨asBytes "ontent-Length" ++ asBytes (": " ++ decimal (body.getD []).length), ?_⟩
  rw [lengthLine, String.append_assoc, asBytes_append,
    show asBytes ContentLength.name = 67 :: asBytes "ontent-Length" by decide, List.cons_append]

/-- The end of the headers is behind the line of the encoder, if it is not in front of it. -/
theorem findWindow_writeBody {printed : Bytes} (hnone : findWindow msgHeadersEnd printed = none)
    (body : Option Bytes) :
    findWindow msgHeadersEnd (printed ++ writeBody body) =
      some (printed ++ asBytes (lengthLine body)).length := by
  obtain ⟨tail, htail⟩ := asBytes_lengthLine body
  have hline : findWindow msgHeadersEnd (writeBody body) =
      some (asBytes (lengthLine body)).length := by
    have hlast : findWindow msgHeadersEnd (msgHeadersEnd ++ body.getD []) = some 0 :=
      (findWindow_eq_some_iff msgHeadersEnd_ne_nil).mpr ⟨List.prefix_append _ _, by simp⟩
    rw [writeBody_eq_lengthLine,
      findWindow_line fun b hb => ((cleanLine_lengthLine body).2 b hb).1, hlast]
    simp
  have hcons : writeBody body = 67 :: (tail ++ (msgHeadersEnd ++ body.getD [])) := by
    rw [writeBody_eq_lengthLine, htail, List.cons_append]
  rw [hcons] at hline ⊢
  rw [findWindow_append_of_none hnone (by decide), hline, Option.map_some, List.length_append,
    Nat.add_comm]

/-- **When a message is encoded with one `Content-Length`.** -/
theorem encodesOneLength_iff_leavesLength (m : SipMessage) :
    EncodesOneLength m ↔ m.LeavesLength := by
  have hencode : EncodesOneLength m ↔
      ∃ printed, m.printed = some printed ∧ OneLength (printed ++ writeBody m.body) := by
    constructor
    · rintro ⟨bs, hbs, hone⟩
      obtain ⟨printed, hprinted, rfl⟩ := encode_eq_some_iff_printed.mp hbs
      exact ⟨printed, hprinted, hone⟩
    · rintro ⟨printed, hprinted, hone⟩
      exact ⟨_, encode_eq_some_iff_printed.mpr ⟨printed, hprinted, rfl⟩, hone⟩
  rw [hencode, SipMessage.LeavesLength]
  refine exists_congr fun printed => and_congr_right fun hprinted => ?_
  cases hwin : findWindow msgHeadersEnd printed with
  | some hdrEnd =>
    -- the headers end in front of the line of the encoder
    have hle := findWindow_le_length msgHeadersEnd_ne_nil hwin
    have hwhole := (findWindow_append_iff (q := writeBody m.body) msgHeadersEnd_ne_nil hle).mpr hwin
    rw [oneLength_iff hwhole, List.take_append_of_le_length (by omega), List.length_append]
  | none =>
    obtain ⟨front, rfl⟩ := SipMessage.printed_eq_append hprinted
    have hwhole := findWindow_writeBody hwin m.body
    have hlines : ((front ++ [10]) ++ asBytes (lengthLine m.body)).splitOn 10 =
        front.splitOn 10 ++ [asBytes (lengthLine m.body)] := by
      have hclean : (10 : UInt8) ∉ asBytes (lengthLine m.body) := fun h =>
        ((cleanLine_lengthLine m.body).2 10 h).2 rfl
      rw [List.append_assoc, List.singleton_append, List.splitOn_append_cons_self,
        List.splitOn_eq_singleton hclean]
    have hempty : (front ++ [10]).splitOn 10 = front.splitOn 10 ++ [[]] := by
      rw [List.splitOn_append_cons_self, List.splitOn_nil]
    rw [oneLength_iff hwhole, writeBody_eq_lengthLine, ← List.append_assoc, List.take_left, hlines]
    have hbody : (((front ++ [10]) ++ asBytes (lengthLine m.body)) ++
        (msgHeadersEnd ++ m.body.getD [])).length -
          (((front ++ [10]) ++ asBytes (lengthLine m.body)).length + msgHeadersEnd.length) =
        (m.body.getD []).length := by
      simp only [List.length_append]
      omega
    rw [hbody, lengthOnce_append_iff (saysLength_lengthLine m.body), hempty,
      List.forall_mem_append]
    exact (and_iff_left (by decide)).symm

/-! ### Headers that print a length -/

/-- The headers whose line is a `Content-Length`: the header itself, one without a type of its
    own under that name, and an `Error-Info`, whose name is left out, by what it begins with. -/
def Header.printsLength : Header → Bool
  | contentLength _ => true
  | rawHeader h => isLengthName ((asBytes h.name).takeWhile (· != 58))
  | errorInfo h => isLengthLine (asBytes h.toText)
  | _ => false

/-- What is in front of the first colon does not depend on what is behind one. -/
theorem takeWhile_append_colon (name rest : Bytes) :
    (name ++ 58 :: rest).takeWhile (· != 58) = name.takeWhile (· != 58) := by
  induction name with
  | nil => rfl
  | cons b name ih => rw [List.cons_append, List.takeWhile_cons, List.takeWhile_cons, ih]

/-- The name in front of a value. -/
theorem isLengthLine_headerLine (name value : String) :
    isLengthLine (asBytes (headerLine name value)) =
      isLengthName ((asBytes name).takeWhile (· != 58)) := by
  have hbytes : asBytes (headerLine name value) = asBytes name ++ 58 :: asBytes (" " ++ value) := by
    rw [headerLine, asBytes_append, asBytes_append, asBytes_append,
      show asBytes ": " = 58 :: asBytes " " by decide]
    simp
  rw [isLengthLine, hbytes, takeWhile_append_colon]
  simp

/-- **The headers that print a length**, by their lines. -/
theorem Header.isLengthLine_toText {h : Header} {line : String} (hline : h.toText = some line) :
    isLengthLine (asBytes line) = h.printsLength := by
  cases h with
  | errorInfo h =>
    cases hline
    rfl
  | rawHeader h =>
    cases hline
    exact isLengthLine_headerLine _ _
  | authorization h | proxyAuthorization h | proxyAuthenticate h | wwwAuthenticate h =>
    obtain ⟨value, -, rfl⟩ := Option.map_eq_some_iff.mp hline
    exact (isLengthLine_headerLine _ _).trans (show isLengthName _ = false by decide)
  | contentLength h =>
    cases hline
    exact (isLengthLine_headerLine _ _).trans (show isLengthName _ = true by decide)
  | _ h =>
    -- the other names are fixed, and none of them is that of a length
    cases hline
    exact (isLengthLine_headerLine _ _).trans (show isLengthName _ = false by decide)

/-- A word and a blank in front of the colon are no name of a length. -/
theorem isLengthLine_blank {word rest : Bytes} (hword : 58 ∉ word) :
    isLengthLine (word ++ 32 :: rest) = false := by
  have hne : ∀ b ∈ word, (b != 58) = true := by
    intro b hb
    rw [bne_iff_ne]
    rintro rfl
    exact hword hb
  have htake : (word ++ 32 :: rest).takeWhile (· != 58) =
      word ++ 32 :: rest.takeWhile (· != 58) := by
    rw [List.takeWhile_append_of_pos hne, List.takeWhile_cons_of_pos (by decide)]
  have hblank : ∀ {name : Bytes}, 32 ∉ name.map toAsciiLower →
      eqIgnoreAsciiCase (word ++ 32 :: rest.takeWhile (· != 58)) name = false := by
    intro name hname
    by_contra h
    rw [Bool.not_eq_false, eqIgnoreAsciiCase, beq_iff_eq] at h
    refine hname ?_
    rw [← h]
    exact List.mem_map.mpr ⟨32, by simp, by decide⟩
  rw [isLengthLine, htake, isLengthName, hblank (by decide), hblank (by decide)]
  rfl

/-- A start line is no `Content-Length`. -/
theorem SipMessage.isLengthLine_startLine (m : SipMessage) :
    isLengthLine (asBytes m.startLine) = false := by
  cases m with
  | request r =>
    have hline : asBytes r.reqLine.line = asBytes r.reqLine.method.asStr ++
        32 :: asBytes (r.reqLine.uri.toText ++ " SIP/2.0") := by
      simp only [RequestLine.line, asBytes_append, List.append_assoc,
        show asBytes " " = [32] by decide, List.cons_append, List.nil_append]
    rw [SipMessage.startLine, hline]
    exact isLengthLine_blank (by cases r.reqLine.method <;> decide)
  | response r =>
    have hline : asBytes r.statusLine.line = asBytes sipV2 ++
        32 :: asBytes (decimal r.statusLine.code.asU16 ++ " " ++ r.statusLine.reason) := by
      simp only [StatusLine.line, asBytes_append, List.append_assoc,
        show asBytes "SIP/2.0 " = asBytes sipV2 ++ [32] by decide, List.cons_append,
        List.nil_append]
    rw [SipMessage.startLine, hline]
    exact isLengthLine_blank (by decide)

/-! ### Clean lines -/

/-- The line end behind a line is no part of its name. -/
theorem isLengthLine_append_cr (line : Bytes) : isLengthLine (line ++ [13]) = isLengthLine line := by
  rw [isLengthLine, isLengthLine]
  by_cases hcolon : 58 ∈ line
  · obtain ⟨name, value, rfl⟩ := List.append_of_mem hcolon
    rw [List.append_assoc, List.cons_append, takeWhile_append_colon, takeWhile_append_colon]
    simp
  · simp [hcolon]

/-- A clean line in front of others prints a length, or one of the others does. -/
theorem forall_splitOn_line {line : String} (hline : CleanLine line) (rest : Bytes) :
    (∀ l ∈ (asBytes (line ++ "\r\n") ++ rest).splitOn 10, isLengthLine l = false) ↔
      isLengthLine (asBytes line) = false ∧ ∀ l ∈ rest.splitOn 10, isLengthLine l = false := by
  have hlf : 10 ∉ asBytes line := fun h => (hline.2 10 h).2 rfl
  rw [asBytes_append, show asBytes "\r\n" = [13, 10] by decide, List.append_assoc,
    List.cons_append, List.singleton_append, splitOn_line hlf, List.forall_mem_cons,
    isLengthLine_append_cr]

/-- The lines of clean headers. -/
theorem forall_splitOn_headersToText {hs : Headers} {text : String}
    (hclean : ∀ h ∈ hs, ∀ line, h.toText = some line → CleanLine line)
    (htext : Headers.toText hs = some text) :
    (∀ l ∈ (asBytes text).splitOn 10, isLengthLine l = false) ↔
      ∀ h ∈ hs, h.printsLength = false := by
  induction hs generalizing text with
  | nil =>
    rw [← Option.some.inj htext]
    exact iff_of_true (by decide) (by simp)
  | cons h hs ih =>
    obtain ⟨line, hline, htext⟩ := Option.bind_eq_some_iff.mp htext
    obtain ⟨rest, hrest, htext⟩ := Option.bind_eq_some_iff.mp htext
    have hfirst := hclean h List.mem_cons_self line hline
    have hothers := ih (fun h' hh' => hclean h' (List.mem_cons_of_mem _ hh')) hrest
    rw [← Option.some.inj htext, asBytes_append, forall_splitOn_line hfirst, hothers,
      Header.isLengthLine_toText hline, List.forall_mem_cons]

/-- All headers are printed if each of them is. -/
theorem Headers.toText_isSome (hs : Headers) :
    hs.toText.isSome = true ↔ ∀ h ∈ hs, h.toText.isSome = true := by
  induction hs with
  | nil => simp [Headers.toText]
  | cons h hs ih =>
    rw [List.forall_mem_cons, ← ih, Headers.toText]
    cases h.toText with
    | none => simp
    | some line => cases Headers.toText hs <;> simp

/-- Clean lines print no empty one. -/
theorem findWindow_printed {m : SipMessage} {printed : Bytes} (hprinted : m.printed = some printed)
    (hstart : CleanLine m.startLine) (hclean : CleanHeaders m) :
    findWindow msgHeadersEnd printed = none := by
  obtain ⟨text, htext, hbytes⟩ := Option.bind_eq_some_iff.mp hprinted
  obtain ⟨lines, hlines, hmem⟩ := asBytes_headersToText htext
  have hjoin : printed = joinLines (m.startLine :: lines) := by
    rw [← Option.some.inj hbytes, hlines, asBytes_append, joinLines]
    rfl
  have hall : ∀ line ∈ m.startLine :: lines, CleanLine line := by
    refine List.forall_mem_cons.mpr ⟨hstart, fun line hline => ?_⟩
    obtain ⟨h, hh, htext⟩ := hmem line hline
    exact hclean h hh line htext
  have hend := findWindow_joinLines hall []
  rw [← hjoin] at hend
  cases hwin : findWindow msgHeadersEnd printed with
  | none => rfl
  | some hdrEnd =>
    -- it would be in front of the one that the next line end makes
    have hle := findWindow_le_length msgHeadersEnd_ne_nil hwin
    rw [(findWindow_append_iff msgHeadersEnd_ne_nil hle).mpr hwin] at hend
    have h4 : msgHeadersEnd.length = 4 := rfl
    have heq := Option.some.inj hend
    omega

/-- A message with clean lines leaves the length to the encoder if its headers do. -/
theorem leavesLength_iff {m : SipMessage} (hstart : CleanLine m.startLine)
    (hclean : CleanHeaders m) :
    m.LeavesLength ↔ ∀ h ∈ m.headers, h.toText.isSome ∧ h.printsLength = false := by
  rw [SipMessage.LeavesLength]
  constructor
  · rintro ⟨printed, hprinted, hlines⟩
    rw [findWindow_printed hprinted hstart hclean] at hlines
    obtain ⟨text, htext, hbytes⟩ := Option.bind_eq_some_iff.mp hprinted
    rw [← Option.some.inj hbytes] at hlines
    have hheaders := (forall_splitOn_headersToText hclean htext).mp
      ((forall_splitOn_line hstart _).mp hlines).2
    have hsome := (Headers.toText_isSome m.headers).mp (by rw [htext]; rfl)
    exact fun h hh => ⟨hsome h hh, hheaders h hh⟩
  · intro h
    obtain ⟨text, htext⟩ := Option.isSome_iff_exists.mp
      ((Headers.toText_isSome m.headers).mpr fun hdr hhdr => (h hdr hhdr).1)
    have hprinted : m.printed = some (asBytes (m.startLine ++ "\r\n") ++ asBytes text) :=
      Option.bind_eq_some_iff.mpr ⟨text, htext, rfl⟩
    refine ⟨_, hprinted, ?_⟩
    rw [findWindow_printed hprinted hstart hclean]
    exact (forall_splitOn_line hstart _).mpr ⟨m.isLengthLine_startLine,
      (forall_splitOn_headersToText hclean htext).mpr fun hdr hhdr => (h hdr hhdr).2⟩

/-- **When a message is encoded with one `Content-Length`**: what is printed in front of the line
    of the encoder leaves the length to it.  For clean lines these are the messages whose headers
    can be printed and are no `Content-Length`. -/
theorem encodesOneLength_iff (m : SipMessage) :
    (EncodesOneLength m ↔ m.LeavesLength) ∧
      (CleanLine m.startLine → CleanHeaders m →
        (EncodesOneLength m ↔ ∀ h ∈ m.headers, h.toText.isSome ∧ h.printsLength = false)) :=
  ⟨encodesOneLength_iff_leavesLength m, fun hstart hclean =>
    (encodesOneLength_iff_leavesLength m).trans (leavesLength_iff hstart hclean)⟩

/-- A response with one header. -/
def okWith (h : Header) : SipMessage :=
  .response { statusLine := ⟨.ok, "OK"⟩, headers := [h] }

theorem cleanLine_okWith (h : Header) : CleanLine (okWith h).startLine := by
  have hstart : CleanLine (StatusLine.line ⟨.ok, "OK"⟩) := cleanLine_of_all (by decide) (by decide)
  exact hstart

theorem cleanHeaders_okWith {h : Header} {line : String} (hline : h.toText = some line)
    (hclean : CleanLine line) : CleanHeaders (okWith h) := by
  intro h' hh' line' hline'
  rw [List.mem_singleton.mp hh', hline] at hline'
  rwa [← Option.some.inj hline']

/-- A response without a `Content-Length`. -/
theorem encodesOneLength_options : EncodesOneLength (okWith (.cSeq ⟨7, .options⟩)) := by
  have hcseq : CleanLine "CSeq: 7 OPTIONS" := cleanLine_of_all (by decide) (by decide)
  exact ((encodesOneLength_iff _).2 (cleanLine_okWith _) (cleanHeaders_okWith rfl hcseq)).mpr
    (by decide)

/-- A response with a `Content-Length`, as it is received. -/
def withLength : Bytes := asBytes "SIP/2.0 200 OK\r\nContent-Length: 0\r\n\r\n"

/-- What is received with a `Content-Length` is encoded with two. -/
theorem not_encodesOneLength : ¬ ∀ buf m, SipParser.parse buf = .ok m → EncodesOneLength m := by
  intro hall
  have hparse : SipParser.parse withLength = .ok (okWith (.contentLength ⟨0⟩)) := by
    decide +kernel
  have hlength : CleanLine "Content-Length: 0" := cleanLine_of_all (by decide) (by decide)
  have hone := (encodesOneLength_iff_leavesLength _).mp (hall _ _ hparse)
  rw [leavesLength_iff (cleanLine_okWith _) (cleanHeaders_okWith rfl hlength)] at hone
  exact absurd hone (by decide)

end Rssip
