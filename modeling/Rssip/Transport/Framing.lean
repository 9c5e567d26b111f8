import Rssip.Transport.Decode

namespace Rssip

open Lib

/-!
# Framing what was encoded

The encoder writes lines, an empty line and a body of the announced length; the decoder finds
the same boundaries again.

* `encode_lines` — an encoded message, line by line;
* `decode_encode` — the decoder takes an encoded message off the front of any stream;
* `run_decode_encode` — and a whole stream of them, in whatever chunks it arrives.
-/

/-! ### Encoded messages -/

/-- A line that is not empty and holds no line end. -/
def CleanLine (line : String) : Prop := line ≠ "" ∧ ∀ b ∈ asBytes line, b ≠ 13 ∧ b ≠ 10

/-- A line without a carriage return and a line feed is clean if it is not empty. -/
theorem cleanLine_of_all {line : String} (hne : line ≠ "")
    (hall : (asBytes line).all (fun b => b != 13 && b != 10)) : CleanLine line := by
  refine ⟨hne, fun b hb => ?_⟩
  have h := List.all_eq_true.mp hall b hb
  simpa using h

/-- The printed header lines of a message are clean. -/
def CleanHeaders (m : SipMessage) : Prop :=
  ∀ h ∈ m.headers, ∀ line, h.toText = some line → CleanLine line

/-- Lines, each with its end. -/
def joinLines : List String → Bytes
  | [] => []
  | line :: lines => asBytes line ++ [13, 10] ++ joinLines lines

/-- The end of a line, as bytes. -/
private theorem asBytes_crlf : asBytes "\r\n" = [13, 10] := by decide

/-- Printed headers are lines, each of them that of a header. -/
theorem asBytes_headersToText {hs : Headers} {text : String}
    (h : Headers.toText hs = some text) :
    ∃ lines : List String, asBytes text = joinLines lines ∧
      ∀ line ∈ lines, ∃ hdr ∈ hs, Header.toText hdr = some line := by
  induction hs generalizing text with
  | nil =>
    simp only [Headers.toText, Option.some.injEq] at h
    exact ⟨[], by simp [← h, joinLines], by simp⟩
  | cons hdr hs ih =>
    simp only [Headers.toText, Option.bind_eq_bind, Option.bind_eq_some_iff, Option.pure_def,
      Option.some.injEq] at h
    obtain ⟨line, hline, rest, hrest, rfl⟩ := h
    obtain ⟨lines, hbytes, hmem⟩ := ih hrest
    refine ⟨line :: lines, ?_, ?_⟩
    · rw [asBytes_append, asBytes_append, asBytes_crlf, hbytes, joinLines]
    · intro l hl
      rcases List.mem_cons.mp hl with rfl | hl
      · exact ⟨hdr, List.mem_cons_self, hline⟩
      · obtain ⟨hdr', hmem', htext⟩ := hmem l hl
        exact ⟨hdr', List.mem_cons_of_mem _ hmem', htext⟩

/-- A line more has its end behind it. -/
theorem joinLines_append (lines : List String) (last : String) :
    joinLines (lines ++ [last]) = joinLines lines ++ (asBytes last ++ [13, 10]) := by
  induction lines with
  | nil => simp [joinLines]
  | cons line lines ih => simp [joinLines, ih]

/-- The `Content-Length` line of a body. -/
def lengthLine (body : Option Bytes) : String :=
  ContentLength.name ++ ": " ++ decimal (body.getD []).length

/-- **An encoded message is clean lines, the last one with the length of the body, an empty
    line and the body.** -/
theorem encode_lines {m : SipMessage} {bs : Bytes} (h : encode m = some bs)
    (hstart : CleanLine m.startLine) (hclean : CleanHeaders m) :
    ∃ lines : List String, (∀ line ∈ m.startLine :: lines, CleanLine line) ∧
      bs = joinLines (m.startLine :: lines ++ [lengthLine m.body]) ++ [13, 10] ++
        m.body.getD [] := by
  obtain ⟨text, htext, rfl⟩ := encode_eq_some_iff.mp h
  obtain ⟨lines, hbytes, hmem⟩ := asBytes_headersToText htext
  refine ⟨lines, ?_, ?_⟩
  · intro line hline
    rcases List.mem_cons.mp hline with rfl | hline
    · exact hstart
    · obtain ⟨hdr, hhdr, hl⟩ := hmem line hline
      exact hclean hdr hhdr line hl
  · rw [writeBody_eq, hbytes, List.cons_append, joinLines, joinLines_append, asBytes_append, asBytes_crlf,
      asBytes_append, asBytes_crlf, lengthLine]
    simp only [List.append_assoc]

/-! ### Finding the end of the headers -/

/-- A byte that does not start the end of the headers is passed over. -/
private theorem findWindow_skip {b : UInt8} {bs : Bytes} (h : ¬ msgHeadersEnd <+: b :: bs) :
    findWindow msgHeadersEnd (b :: bs) = (findWindow msgHeadersEnd bs).map (· + 1) := by
  rw [findWindow, if_neg h]

/-- The bytes of a line are skipped. -/
theorem findWindow_line {xs rest : Bytes} (hxs : ∀ b ∈ xs, b ≠ 13) :
    findWindow msgHeadersEnd (xs ++ rest) =
      (findWindow msgHeadersEnd rest).map (· + xs.length) := by
  induction xs with
  | nil => simp
  | cons x xs ih =>
    have hx : ¬ msgHeadersEnd <+: x :: (xs ++ rest) := by
      rw [msgHeadersEnd, List.cons_prefix_cons]
      exact fun h => hxs x List.mem_cons_self h.1.symm
    rw [List.cons_append, findWindow_skip hx, ih (fun b hb => hxs b (List.mem_cons_of_mem _ hb)),
      Option.map_map]
    congr 1

/-- A clean line starts with a byte that is no line end. -/
private theorem cleanLine_bytes {line : String} (h : CleanLine line) :
    ∃ b bs, asBytes line = b :: bs ∧ b ≠ 13 ∧ b ≠ 10 := by
  cases hb : asBytes line with
  | nil =>
    rw [← asBytes_empty] at hb
    exact absurd (asBytes_injective hb) h.1
  | cons b bs => exact ⟨b, bs, rfl, h.2 b (by simp [hb])⟩

/-- The end of the headers is found after the last line. -/
theorem findWindow_joinLines {line : String} {lines : List String}
    (hclean : ∀ l ∈ line :: lines, CleanLine l) (body : Bytes) :
    findWindow msgHeadersEnd (joinLines (line :: lines) ++ 13 :: 10 :: body) =
      some ((joinLines (line :: lines)).length - 2) := by
  induction lines generalizing line with
  | nil =>
    have hline := hclean line List.mem_cons_self
    have hlast : findWindow msgHeadersEnd (13 :: 10 :: 13 :: 10 :: body) = some 0 := by
      rw [findWindow]
      exact if_pos (List.prefix_append msgHeadersEnd body)
    simp only [joinLines, List.append_nil, List.append_assoc, List.cons_append, List.nil_append]
    rw [findWindow_line (fun b hb => (hline.2 b hb).1), hlast, Option.map_some]
    simp
  | cons next lines ih =>
    have hline := hclean line List.mem_cons_self
    have hrest : ∀ l ∈ next :: lines, CleanLine l := fun l hl =>
      hclean l (List.mem_cons_of_mem _ hl)
    obtain ⟨b, bs, hb, hb13, hb10⟩ := cleanLine_bytes (hrest next List.mem_cons_self)
    have htail := ih hrest
    -- the line end between two lines is not the end of the headers
    have hsep : findWindow msgHeadersEnd
        (13 :: 10 :: (joinLines (next :: lines) ++ 13 :: 10 :: body)) =
        some ((joinLines (next :: lines)).length - 2 + 2) := by
      rw [findWindow_skip, findWindow_skip, htail]
      · rfl
      · simp [msgHeadersEnd]
      · simp only [joinLines, hb, msgHeadersEnd, List.cons_append, List.cons_prefix_cons]
        rintro ⟨-, -, h, -⟩
        exact hb13 h.symm
    have hlen : 2 ≤ (joinLines (next :: lines)).length := by
      simp only [joinLines, List.length_append, List.length_cons, List.length_nil]
      omega
    rw [joinLines, List.append_assoc, List.append_assoc,
      findWindow_line (fun b hb => (hline.2 b hb).1)]
    simp only [List.cons_append, List.nil_append]
    rw [hsep, Option.map_some, Option.some.injEq]
    simp only [List.length_append, List.length_cons, List.length_nil]
    omega

/-! ### Finding the length -/

/-- A line of text announces a length or nothing, it is no error. -/
theorem lineLength_asBytes (line : String) : ∃ found, lineLength (asBytes line) = .ok found := by
  unfold lineLength
  dsimp only
  split
  · cases hdrop : (asBytes line).dropWhile (· != 58) with
    | nil => exact ⟨none, rfl⟩
    | cons b value =>
      -- the colon is one byte, so what follows it is text
      obtain ⟨hsplit, -⟩ := eq_takeWhile_colon hdrop
      obtain ⟨-, t, -, ht⟩ := fromUtf8_split (by decide) hsplit
      refine ⟨parseUnsigned (2 ^ 64) (asBytes (trim t)), ?_⟩
      dsimp only
      rw [← ht, fromUtf8_asBytes]
  · exact ⟨none, rfl⟩

/-- The length in the last line counts. -/
theorem contentLength_append {lines : List Bytes} {last : Bytes} {n : Nat}
    (hlines : ∀ line ∈ lines, ∃ found, lineLength line = .ok found)
    (hlast : lineLength last = .ok (some n)) (found : Option Nat) :
    contentLength found (lines ++ [last]) = .ok (some n) := by
  induction lines generalizing found with
  | nil =>
    rw [List.nil_append, contentLength, hlast]
    rfl
  | cons line lines ih =>
    obtain ⟨this, hthis⟩ := hlines line List.mem_cons_self
    have hrest := fun l hl => hlines l (List.mem_cons_of_mem _ hl)
    rw [List.cons_append, contentLength, hthis]
    cases this with
    | none => exact ih hrest found
    | some k => exact ih hrest (some k)

/-- A digit is no white space. -/
private theorem isWhitespace_of_isDigit {c : Char} (h : c.isDigit) : isWhitespace c = false := by
  have hc : 48 ≤ c.toNat ∧ c.toNat ≤ 57 := by
    simpa [Char.isDigit, UInt32.le_iff_toNat_le] using h
  simp only [isWhitespace]
  simp
  omega

/-- A length is a number again without the blank in front of it. -/
theorem trim_space_decimal (n : Nat) : trim (" " ++ decimal n) = decimal n := by
  have hlist : (" " ++ decimal n).toList = ' ' :: Nat.toDigits 10 n := by
    rw [String.toList_append, decimal, Nat.toString_eq_ofList_toDigits]
    simp
  have hdigit : ∀ c ∈ Nat.toDigits 10 n, isWhitespace c = false := fun c hc =>
    isWhitespace_of_isDigit (Nat.isDigit_of_mem_toDigits (by decide) (by decide) hc)
  have hdrop : ∀ cs : List Char, (∀ c ∈ cs, isWhitespace c = false) →
      cs.dropWhile isWhitespace = cs := by
    intro cs hcs
    cases cs with
    | nil => rfl
    | cons c cs => rw [List.dropWhile_cons_of_neg (by simp [hcs c List.mem_cons_self])]
  rw [trim, hlist, List.dropWhile_cons_of_pos (by decide), hdrop _ hdigit,
    hdrop _ (fun c hc => hdigit c (List.mem_reverse.mp hc)), List.reverse_reverse, decimal,
    Nat.toString_eq_ofList_toDigits]

/-- The printed length line is a clean line. -/
theorem cleanLine_lengthLine (body : Option Bytes) : CleanLine (lengthLine body) := by
  have hname : CleanLine (ContentLength.name ++ ": ") := cleanLine_of_all (by decide) (by decide)
  refine ⟨fun h => ?_, fun b hb => ?_⟩
  · have hlen := congrArg String.length h
    simp [lengthLine, ContentLength.name, String.length_append] at hlen
  · rw [lengthLine, asBytes_append, List.mem_append] at hb
    rcases hb with hb | hb
    · exact hname.2 b hb
    · have hdigit := isAsciiDigit_of_mem_decimal hb
      constructor <;>
      · rintro rfl
        exact absurd hdigit (by decide)

/-- The printed length line announces the length. -/
theorem lineLength_lengthLine {body : Option Bytes} (h : (body.getD []).length < 2 ^ 64) :
    lineLength (asBytes (lengthLine body)) = .ok (some (body.getD []).length) := by
  have hbytes : asBytes (lengthLine body) =
      asBytes ContentLength.name ++ 58 :: asBytes (" " ++ decimal (body.getD []).length) := by
    rw [lengthLine, asBytes_append, asBytes_append, asBytes_append,
      show asBytes ": " = 58 :: asBytes " " by decide]
    simp
  have hname : ∀ b ∈ asBytes ContentLength.name, (b != 58) = true :=
    List.all_eq_true.mp (by decide)
  unfold lineLength
  dsimp only
  rw [hbytes, List.takeWhile_append_of_pos hname, List.dropWhile_append_of_pos hname,
    List.takeWhile_cons_of_neg (by decide), List.dropWhile_cons_of_neg (by decide),
    List.append_nil, if_pos (by decide)]
  dsimp only
  rw [fromUtf8_asBytes]
  dsimp only
  rw [trim_space_decimal, parseUnsigned_decimal h]

/-- A line is cut off at its end. -/
theorem splitOn_line {line : Bytes} (hline : 10 ∉ line) (rest : Bytes) :
    (line ++ 13 :: 10 :: rest).splitOn 10 = (line ++ [13]) :: rest.splitOn 10 := by
  have hcr : (10 : UInt8) ∉ line ++ [13] := by
    rw [List.mem_append, not_or]
    exact ⟨hline, by decide⟩
  rw [show line ++ 13 :: 10 :: rest = (line ++ [13]) ++ 10 :: rest by simp,
    List.splitOn_append_cons_self_of_not_mem hcr]

/-- Clean lines are cut off one by one. -/
theorem splitOn_joinLines_append {lines : List String} (hclean : ∀ l ∈ lines, CleanLine l)
    (rest : Bytes) :
    (joinLines lines ++ rest).splitOn 10 =
      lines.map (fun l => asBytes l ++ [13]) ++ rest.splitOn 10 := by
  induction lines with
  | nil => rfl
  | cons line lines ih =>
    obtain ⟨hline, hlines⟩ := List.forall_mem_cons.mp hclean
    have hlf : 10 ∉ asBytes line := fun h => (hline.2 10 h).2 rfl
    rw [joinLines, List.append_assoc, List.append_assoc, List.cons_append, List.singleton_append,
      splitOn_line hlf, ih hlines, List.map_cons, List.cons_append]

/-- The lines of the header section of an encoded message. -/
theorem splitOn_joinLines {line : String} {lines : List String}
    (hclean : ∀ l ∈ line :: lines, CleanLine l) (last : String) (hlast : 10 ∉ asBytes last)
    (rest : Bytes) :
    (((joinLines (line :: lines ++ [last])) ++ rest).take
        ((joinLines (line :: lines ++ [last])).length - 2)).splitOn 10 =
      (line :: lines).map (fun l => asBytes l ++ [13]) ++ [asBytes last] := by
  have hlen : (joinLines (line :: lines ++ [last])).length - 2 =
      (joinLines (line :: lines) ++ asBytes last).length := by
    rw [joinLines_append]
    simp only [List.length_append, List.length_cons, List.length_nil]
    omega
  rw [hlen, joinLines_append, ← List.append_assoc, List.append_assoc, List.take_left,
    splitOn_joinLines_append hclean, List.splitOn_eq_singleton hlast]

/-! ### The boundaries -/

/-- The encoding of a message does not start with a line end, which would be a keep-alive. -/
private theorem encode_head {m : SipMessage} {bs : Bytes} (h : encode m = some bs)
    (hstart : CleanLine m.startLine) (hclean : CleanHeaders m) :
    ∃ b tail, bs = b :: tail ∧ b ≠ 13 := by
  obtain ⟨lines, -, rfl⟩ := encode_lines h hstart hclean
  obtain ⟨b, tail, hb, hb13, -⟩ := cleanLine_bytes hstart
  refine ⟨b, tail ++ ([13, 10] ++ joinLines (lines ++ [lengthLine m.body]) ++ [13, 10] ++
    m.body.getD []), ?_, hb13⟩
  rw [List.cons_append, joinLines, hb]
  simp

/-- An encoded message does not look like a keep-alive. -/
private theorem not_keepalive_encode {m : SipMessage} {bs : Bytes} (h : encode m = some bs)
    (hstart : CleanLine m.startLine) (hclean : CleanHeaders m) (more pat : Bytes)
    (hpat : pat.head? = some 13) : ¬ pat <+: bs ++ more := by
  obtain ⟨b, tail, rfl, hb⟩ := encode_head h hstart hclean
  cases pat with
  | nil => simp at hpat
  | cons p pat =>
    rw [List.cons_append, List.cons_prefix_cons]
    rintro ⟨rfl, -⟩
    exact hb (Option.some.inj hpat)

/-- **The decoder takes an encoded message off the front of a stream.** -/
theorem decode_encode {m : SipMessage} {bs : Bytes} (h : encode m = some bs)
    (hstart : CleanLine m.startLine) (hclean : CleanHeaders m) (hsize : bs.length < 2 ^ 64)
    (more : Bytes) : decode (bs ++ more) = .item (.complete bs) more := by
  have hresp := not_keepalive_encode h hstart hclean more keepaliveResponse (by decide)
  obtain ⟨lines, hlines, hbs⟩ := encode_lines h hstart hclean
  have hlast := cleanLine_lengthLine m.body
  have hall : ∀ l ∈ m.startLine :: (lines ++ [lengthLine m.body]), CleanLine l := by
    intro l hl
    rw [← List.cons_append, List.mem_append, List.mem_singleton] at hl
    rcases hl with hl | rfl
    · exact hlines l hl
    · exact hlast
  have hwhole : bs ++ more = joinLines (m.startLine :: (lines ++ [lengthLine m.body])) ++
      13 :: 10 :: (m.body.getD [] ++ more) := by
    rw [hbs]
    simp
  have hlen : bs.length = (joinLines (m.startLine :: (lines ++ [lengthLine m.body]))).length + 2 +
      (m.body.getD []).length := by
    rw [hbs]
    simp only [List.length_append, List.length_cons, List.length_nil, List.cons_append]
  have htwo : 2 ≤ (joinLines (m.startLine :: (lines ++ [lengthLine m.body]))).length := by
    simp only [joinLines, List.length_append, List.length_cons, List.length_nil]
    omega
  -- the headers end behind the last line, and that line announces the body
  have hwin := findWindow_joinLines hall (m.body.getD [] ++ more)
  rw [← hwhole] at hwin
  have hann : announcedLength (bs ++ more)
      ((joinLines (m.startLine :: (lines ++ [lengthLine m.body]))).length - 2) =
      .ok (some (m.body.getD []).length) := by
    rw [announcedLength, hwhole, ← List.cons_append, splitOn_joinLines hlines _
      (fun h10 => (hlast.2 10 h10).2 rfl)]
    -- whatever the other lines say, the last one counts
    refine contentLength_append ?_ (lineLength_lengthLine (by omega)) none
    intro line hline
    obtain ⟨l, -, rfl⟩ := List.mem_map.mp hline
    have hcr := lineLength_asBytes (l ++ "\r")
    rwa [asBytes_append, show asBytes "\r" = [13] by decide] at hcr
  have h4 : msgHeadersEnd.length = 4 := rfl
  rw [decode_message hresp hwin hann]
  have hexpected : (joinLines (m.startLine :: (lines ++ [lengthLine m.body]))).length - 2 +
      msgHeadersEnd.length + (m.body.getD []).length = bs.length := by omega
  rw [hexpected, if_neg (by unfold usizeMax; omega),
    if_neg (by rw [List.length_append]; omega), List.take_left, List.drop_left]

/-! ### Whole streams -/

/-- The messages and their encodings, one for one. -/
abbrev Encodes (ms : List SipMessage) (encoded : List Bytes) : Prop :=
  List.Forall₂ (fun m bs => encode m = some bs) ms encoded

section Streams

variable {ms : List SipMessage} {encoded : List Bytes} (h : Encodes ms encoded)
  (hstart : ∀ m ∈ ms, CleanLine m.startLine) (hclean : ∀ m ∈ ms, CleanHeaders m)
  (hsize : encoded.flatten.length < 2 ^ 64)
include h hstart hclean hsize

/-- The example: encoded messages in a row are decoded one by one. -/
theorem drain_decode_encode :
    drain decode encoded.flatten = (encoded.map .complete, .more []) ∧
      ¬ HasPing encoded.flatten := by
  induction h with
  | nil =>
    refine ⟨drain_decode_nil, ?_⟩
    rintro (hp | ⟨hlen, -⟩)
    · simp [keepaliveRequest] at hp
    · simp [frameLen, keepaliveResponse, findWindow] at hlen
  | @cons m bs ms encoded hm htl ih =>
    have hm₁ := hstart m List.mem_cons_self
    have hm₂ := hclean m List.mem_cons_self
    rw [List.flatten_cons, List.length_append] at hsize
    obtain ⟨hdrain, hping⟩ := ih (fun x hx => hstart x (List.mem_cons_of_mem _ hx))
      (fun x hx => hclean x (List.mem_cons_of_mem _ hx)) (by omega)
    have hdec := decode_encode hm hm₁ hm₂ (by omega) encoded.flatten
    have hreq := not_keepalive_encode hm hm₁ hm₂ encoded.flatten keepaliveRequest (by decide)
    rw [List.flatten_cons, drain_item decode_progress hdec, hdrain]
    refine ⟨rfl, ?_⟩
    rintro (hp | ⟨hlen, hrest⟩)
    · exact hreq hp
    · -- the frame is the message, so the ping would be in the rest
      obtain ⟨n, hn, hdrop⟩ := decode_item_frameLen hreq hdec
      rw [hn, Option.some.injEq] at hlen
      rw [← hlen, ← hdrop] at hrest
      exact hping hrest

/-- **Framing inverts encoding**: however a stream of encoded messages is cut into chunks, the
    decoder gives the messages back one by one and leaves nothing. -/
theorem run_decode_encode {chunks : List Bytes} (hchunks : chunks.flatten = encoded.flatten) :
    run decode [] chunks = (encoded.map .complete, .more []) := by
  obtain ⟨hdrain, hping⟩ := drain_decode_encode h hstart hclean hsize
  rw [run_decode_eq_drain (hchunks ▸ hping), hchunks, hdrain]

end Streams

/-- A `200` response without headers. -/
def okResponse (reason : String) : SipMessage :=
  .response { statusLine := ⟨.ok, reason⟩ }

/-- A response with a double CRLF for a body, and one without a body. -/
theorem twoEncodes : Encodes
    [.response { statusLine := ⟨.ok, "OK"⟩, body := some [13, 10, 13, 10] }, okResponse "OK"]
    [asBytes "SIP/2.0 200 OK\r\nContent-Length: 4\r\n\r\n\r\n\r\n",
      asBytes "SIP/2.0 200 OK\r\nContent-Length: 0\r\n\r\n"] :=
  .cons (by decide) (.cons (by decide) .nil)

/-- The two messages, cut inside an end of headers. -/
theorem run_decode_encode_two :
    run decode [] [asBytes "SIP/2.0 200 OK\r\nContent-Length: 4\r\n\r",
      asBytes "\n\r\n\r\nSIP/2.0 200 OK\r\nContent-Length: 0\r\n\r\n"] =
      ([.complete (asBytes "SIP/2.0 200 OK\r\nContent-Length: 4\r\n\r\n\r\n\r\n"),
        .complete (asBytes "SIP/2.0 200 OK\r\nContent-Length: 0\r\n\r\n")], .more []) :=
  run_decode_encode twoEncodes
    (by
      have h : CleanLine "SIP/2.0 200 OK" := cleanLine_of_all (by decide) (by decide)
      intro m hm
      simp only [List.mem_cons, List.not_mem_nil, or_false] at hm
      rcases hm with rfl | rfl <;> exact h)
    (by
      intro m hm
      simp only [List.mem_cons, List.not_mem_nil, or_false] at hm
      rcases hm with rfl | rfl <;> simp [CleanHeaders, SipMessage.headers, okResponse])
    (by decide) (by decide)

/-- The start line has to be a line as well: a line end in the reason phrase ends the
    headers early. -/
theorem run_decode_encode_reason :
    ¬ ∀ (ms : List SipMessage) (encoded chunks : List Bytes), Encodes ms encoded →
      (∀ m ∈ ms, CleanHeaders m) → encoded.flatten.length < 2 ^ 64 →
      chunks.flatten = encoded.flatten →
      run decode [] chunks = (encoded.map .complete, .more []) := by
  intro hall
  have h := hall [okResponse "\r\n\r\n"]
    [asBytes "SIP/2.0 200 \r\n\r\n\r\nContent-Length: 0\r\n\r\n"]
    [asBytes "SIP/2.0 200 \r\n\r\n\r\nContent-Length: 0\r\n\r\n"]
    (.cons (by decide) .nil)
    (by
      intro m hm
      rw [List.mem_singleton] at hm
      subst hm
      simp [CleanHeaders, SipMessage.headers, okResponse])
    (by decide) rfl
  exact absurd h (by decide)

end Rssip
