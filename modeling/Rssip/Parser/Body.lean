import Rssip.Parser.MessageRoundTrip

namespace Rssip

open Lib SipParser

/-!
# The body of a message

What the parser takes for the body: everything behind the line ends that follow the headers.

* `SipMessage.BodyFidelity` — the body of a message comes back as it was encoded;
* `SipMessage.bodyFidelity_iff` — when that is so.
-/

variable {rest text : Bytes}

/-! ### Bodies do not start with a line end -/

namespace SipParser

/-- The skipping of line ends takes all that come and never fails. -/
theorem skipNewline_eq (c : Scanner) :
    skipNewline c = .ok () (Lib.advance c (c.remaining.takeWhile isNewline)) := by
  have hscan := Scanner.scanWhile_eq isNewline c
  show EStateM.Result.ok () (c.scanWhile isNewline).2 = _
  rw [hscan]

/-- The line ends in front of a body are all skipped. -/
theorem parseBody_eq (c : Scanner) :
    parseBody c = .ok (c.remaining.dropWhile isNewline)
      (Lib.advance c (c.remaining.takeWhile isNewline)) := by
  have hrem : (Lib.advance c (c.remaining.takeWhile isNewline)).remaining =
      c.remaining.dropWhile isNewline :=
    remaining_advance (σ := Scanner) List.takeWhile_append_dropWhile.symm
  refine bind_eq_ok_iff.mpr ⟨(), _, skipNewline_eq c, ?_⟩
  rw [← hrem]
  rfl

/-- What a message is parsed into: a start line, headers, and a body if a `Content-Type` is one
    of them. -/
theorem parseSipMsg_eq_ok {c c' : Scanner} {m : SipMessage} (h : parseSipMsg c = .ok m c') :
    ∃ bare c₁ headers found c₂, parseStartLine c = .ok bare c₁ ∧
      parseHeaders c₁ = .ok (headers, found) c₂ ∧
      m = readMessage bare headers found c₂.remaining := by
  obtain ⟨bare, c₁, hstart, h⟩ := bind_eq_ok_iff.mp h
  obtain ⟨⟨headers, found⟩, c₂, hheaders, h⟩ := bind_eq_ok_iff.mp h
  refine ⟨bare, c₁, headers, found, c₂, hstart, hheaders, ?_⟩
  cases found with
  | false =>
    injection h with hm
    exact hm.symm
  | true =>
    obtain ⟨body, c₃, hbody, h⟩ := bind_eq_ok_iff.mp h
    rw [parseBody_eq] at hbody
    injection hbody with hbody
    injection h with hm
    rw [← hm, ← hbody]
    rfl

/-- A start line gives a message without a body. -/
theorem parseStartLine_body {c c' : Scanner} {m : SipMessage} (h : parseStartLine c = .ok m c') :
    m.body = none := by
  obtain ⟨c₀, c₁, -, h⟩ := bind_eq_ok_iff.mp h
  split at h
  · obtain ⟨l, c₂, -, h⟩ := bind_eq_ok_iff.mp h
    injection h with hm
    rw [← hm]
    rfl
  · obtain ⟨l, c₂, -, h⟩ := bind_eq_ok_iff.mp h
    injection h with hm
    rw [← hm]
    rfl

/-- A body is what was left behind a `Content-Type`, without the line ends in front of it. -/
theorem readMessage_body {m : SipMessage} {headers : Headers} {found : Bool} (hm : m.body = none)
    {body b : Bytes} (h : (readMessage m headers found body).body = some b) :
    found ∧ b = body.dropWhile isNewline := by
  cases found with
  | false =>
    have hnone : (readMessage m headers false body).body = m.body := by cases m <;> rfl
    rw [hnone, hm] at h
    exact absurd h (by simp)
  | true =>
    have hsome : (readMessage m headers true body).body = some (body.dropWhile isNewline) := by
      cases m <;> rfl
    rw [hsome] at h
    exact ⟨rfl, (Option.some.inj h).symm⟩

/-- **No parsed body starts with a line end**, whatever the input. -/
theorem parse_body_stops {buf body : Bytes} {m : SipMessage} (h : parse buf = .ok m)
    (hbody : m.body = some body) : Stops isNewline body := by
  obtain ⟨c, hrun⟩ := parse_eq_ok_iff.mp h
  obtain ⟨bare, c₁, headers, found, c₂, hstart, -, hread⟩ := parseSipMsg_eq_ok hrun
  rw [hread] at hbody
  rw [(readMessage_body (parseStartLine_body hstart) hbody).2]
  exact stops_dropWhile _ _

/-! ### Lengths out of range -/

/-- A scan that fails does so on every text. -/
theorem fails_scanError {α : Type} (kind : ScannerErrorKind) (text : Bytes) :
    Fails (Scan.scanError kind : Scan α) text := fun _ _ => ⟨_, _, rfl⟩

/-- Where the scanner fails, the parser fails. -/
theorem fails_ofScan {α : Type} {scan : Scan α} (h : Fails scan text) :
    Fails (ofScan scan) text := by
  intro c hc
  obtain ⟨e, c', he⟩ := h c hc
  exact ⟨_, c', by rw [ofScan, he]⟩

/-- A number of more than 32 bits is not read. -/
theorem fails_parseU32 {n : Nat} (hn : 2 ^ 32 ≤ n) (hrest : Stops isAsciiDigit rest) :
    Fails parseU32 (asBytes (decimal n) ++ rest) := by
  apply fails_ofScan
  have hscan : Reads (modifyGet (Scanner.scanNumberStr false) : Scan String) (asBytes (decimal n))
      rest (decimal n) :=
    reads_scanWhileAsStrUnchecked (fun b hb => by simp [isAsciiDigit_of_mem_decimal hb])
      (by simpa using hrest)
  have hnone : parseUnsigned (2 ^ 32) (asBytes (decimal n)) = none := by
    rw [parseUnsigned_decimal_eq, if_neg (by omega)]
  have hunsigned : Fails (Scan.scanUnsigned (2 ^ 32)) (asBytes (decimal n) ++ rest) := by
    apply Fails.reads_bind hscan
    rw [hnone]
    exact fails_scanError _ _
  intro c hc
  obtain ⟨e, c', he⟩ := hunsigned c hc
  refine ⟨e, c', ?_⟩
  show EStateM.map UInt32.ofNat _ c = _
  rw [EStateM.map, he]

/-- The line of a length that is no `u32`. -/
theorem fails_contentLengthLine {n : Nat} (hn : 2 ^ 32 ≤ n) (rest : Bytes) :
    Fails parseHeaderLine (asBytes (contentLengthText n ++ "\r\n") ++ rest) := by
  rw [contentLengthText, asBytes_headerLine, List.append_assoc]
  have hname : Reads headerName (asBytes ContentLength.name ++ ([58] ++ [32]))
      ((asBytes (decimal n) ++ [13, 10]) ++ rest) ContentLength.name := by
    apply reads_headerName (by decide) (by decide)
    rw [List.append_assoc]
    exact stops_isSpace_decimal _ _
  apply Fails.reads_bind hname
  have hvalue : Fails (parseHeaderValue ContentLength.name)
      ((asBytes (decimal n) ++ [13, 10]) ++ rest) := by
    rw [List.append_assoc]
    exact Fails.bind (Fails.bind (fails_parseU32 hn (stops_cons.mpr (by decide))))
  exact Fails.bind hvalue

/-- A length of more than 32 bits, behind whatever headers, is not read. -/
theorem fails_parseHeaders {n : Nat} (hn : 2 ^ 32 ≤ n) (ls : List Line)
    (hread : ∀ l ∈ ls, l.Reads) (rest : Bytes) (headers : Headers) (found : Bool) (fuel : Nat) :
    Fails (loopN .stuck headersBody fuel (headers, found))
      (linesBytes (ls ++ [contentLengthLine n]) ++ rest) := by
  have hlast : ∀ headers found, Fails (headersBody (headers, found))
      (asBytes (contentLengthText n ++ "\r\n") ++ rest) :=
    fun _ _ => Fails.bind (fails_contentLengthLine hn rest)
  have hbytes : linesBytes [contentLengthLine n] = asBytes (contentLengthText n ++ "\r\n") := by
    simp [linesBytes, contentLengthLine]
  -- the lines in front of the last one are read, then the loop fails in it
  induction ls generalizing headers found fuel with
  | nil =>
    rw [List.nil_append, hbytes]
    exact Fails.loopN (hlast _ _) fuel
  | cons l ls ih =>
    have hnext : ∃ b bs, linesBytes (ls ++ [contentLengthLine n]) ++ rest = b :: bs ∧
        isNewline b = false := by
      cases ls with
      | nil =>
        rw [List.nil_append, hbytes, contentLengthText, asBytes_headerLine]
        exact ⟨67, _, rfl, by decide⟩
      | cons k ls => exact linesBytes_start (hread k (by simp)) _ rest
    have hline := reads_headersBody (hread l (by simp)) headers found hnext
    have htl := fun fuel => ih (fun k hk => hread k (List.mem_cons_of_mem _ hk))
      (headers ++ l.headers) (found || l.isContentType) fuel
    have hcons : linesBytes (l :: ls ++ [contentLengthLine n]) ++ rest =
        asBytes (l.text ++ "\r\n") ++ (linesBytes (ls ++ [contentLengthLine n]) ++ rest) := by
      rw [List.cons_append, linesBytes, List.flatMap_cons, List.append_assoc]
      rfl
    rw [hcons]
    exact Fails.loopN_step hline htl fuel

end SipParser

/-! ### The bodies that come back -/

/-- A message with a start line and headers that are read line by line. -/
structure SipMessage.Readable (m : SipMessage) : Prop where
  startLine : ∃ bare, ∀ rest, Stops isNewline rest →
    Reads parseStartLine (asBytes (m.startLine ++ "\r\n")) rest bare
  headers : ∀ h ∈ m.headers, ∃ l, h.ReadFrom l

/-- A well-formed message is read line by line. -/
theorem SipMessage.WellFormed.readable {m : SipMessage} (hwf : m.WellFormed) : m.Readable where
  startLine := ⟨_, fun _ => reads_parseStartLine hwf.startLine⟩
  headers := fun h hh => by
    obtain ⟨line, hline⟩ := (hwf.headers h hh).readBack.readFrom
    exact ⟨_, hline⟩

/-- The body of the message that is parsed from the encoding of `m`. -/
def SipMessage.parsedBody (m : SipMessage) : Option Bytes := do
  let bytes ← encode m
  match SipParser.parse bytes with
  | .ok m => m.body
  | .error _ => none

/-- The body comes back as it was. -/
def SipMessage.BodyFidelity (m : SipMessage) : Prop := m.parsedBody = some m.bodyBytes

instance : DecidablePred SipMessage.BodyFidelity := fun m =>
  inferInstanceAs (Decidable (m.parsedBody = some m.bodyBytes))

/-- If the body comes back, the encoding is parsed to a message with it. -/
theorem SipMessage.BodyFidelity.parse_eq {m : SipMessage} (h : m.BodyFidelity) :
    ∃ bytes m', encode m = some bytes ∧ SipParser.parse bytes = .ok m' ∧
      m'.body = some m.bodyBytes := by
  obtain ⟨bytes, hbytes, h⟩ := Option.bind_eq_some_iff.mp h
  refine ⟨bytes, ?_⟩
  cases hparse : SipParser.parse bytes with
  | error e => simp [hparse] at h
  | ok m' => exact ⟨m', hbytes, rfl, by simpa [hparse] using h⟩

/-- A body that comes back does not start with a line end. -/
theorem SipMessage.BodyFidelity.stops {m : SipMessage} (h : m.BodyFidelity) :
    Stops isNewline m.bodyBytes := by
  obtain ⟨bytes, m', -, hparse, hbody⟩ := h.parse_eq
  exact parse_body_stops hparse hbody

/-- A body whose length is no `u32` is encoded into a message that is not parsed. -/
theorem SipMessage.Readable.length_lt {m : SipMessage} (hread : m.Readable)
    (h : m.BodyFidelity) : m.bodyBytes.length < 2 ^ 32 := by
  by_contra hlen
  obtain ⟨bare, hstart⟩ := hread.startLine
  obtain ⟨ls, hls⟩ := exists_lines hread.headers
  obtain ⟨bytes, m', hbytes, hparse, -⟩ := h.parse_eq
  rw [encode_eq hls, Option.some.injEq] at hbytes
  have hfirst : ∃ b bs, linesBytes (ls ++ [contentLengthLine m.bodyBytes.length]) ++
      ([13, 10] ++ m.bodyBytes) = b :: bs ∧ isNewline b = false := by
    cases ls with
    | nil =>
      rw [List.nil_append, linesBytes, List.flatMap_singleton, contentLengthLine,
        contentLengthText, asBytes_headerLine]
      exact ⟨67, _, rfl, by decide⟩
    | cons l ls => exact linesBytes_start (reads_of_forall₂ hls l (by simp)) _ _
  -- the length that is announced does not fit the type it is read with
  have hfails : Fails parseSipMsg bytes := by
    rw [← hbytes]
    apply Fails.reads_bind (hstart _ ?_)
    · apply Fails.bind
      apply Fails.loop
      exact fails_parseHeaders (by omega) ls (reads_of_forall₂ hls) _ [] false
    · obtain ⟨b, bs, htext, hb⟩ := hfirst
      rw [htext]
      exact stops_cons.mpr hb
  obtain ⟨c', hrun⟩ := parse_eq_ok_iff.mp hparse
  obtain ⟨e, c, he⟩ := hfails (Scanner.new bytes) rfl
  cases he.symm.trans hrun

/-- A body of at most 32 bits of length comes back behind a `Content-Type`, if it does not start
    with a line end. -/
theorem SipMessage.Readable.bodyFidelity {m : SipMessage} (hread : m.Readable)
    (htype : m.hasContentType) (hlen : m.bodyBytes.length < 2 ^ 32)
    (hbody : Stops isNewline m.bodyBytes) : m.BodyFidelity := by
  obtain ⟨bare, hstart⟩ := hread.startLine
  obtain ⟨ls, hls⟩ := exists_lines hread.headers
  have hparse := parse_encode hstart hls hlen
  obtain ⟨bytes, hbytes, hparse⟩ := Option.map_eq_some_iff.mp hparse
  refine Option.bind_eq_some_iff.mpr ⟨bytes, hbytes, ?_⟩
  rw [hparse, isContentType_of_forall₂ hls htype]
  show (readMessage bare _ true m.bodyBytes).body = _
  rw [readMessage, if_pos rfl, hbody.dropWhile_eq]
  cases bare <;> rfl

/-- **When bodies come back.** A body that starts with a line end never does.  For a message with
    a `Content-Type` whose header section is read line by line, the other bodies all do as long
    as their length is a `u32`. -/
theorem SipMessage.bodyFidelity_iff (m : SipMessage) :
    (m.BodyFidelity → Stops isNewline m.bodyBytes) ∧
    (m.Readable → m.hasContentType → (m.BodyFidelity ↔
      m.bodyBytes.length < 2 ^ 32 ∧ Stops isNewline m.bodyBytes)) := by
  refine ⟨BodyFidelity.stops, fun hread htype => ⟨fun h => ?_, fun ⟨hlen, hbody⟩ => ?_⟩⟩
  · exact ⟨hread.length_lt h, h.stops⟩
  · exact hread.bodyFidelity htype hlen hbody

/-- The body of the request with a text comes back. -/
theorem SipMessage.bodyFidelity_textToLocalhost : SipMessage.textToLocalhost.BodyFidelity := by
  have hread : SipMessage.textToLocalhost.Readable :=
    SipMessage.wellFormed_textToLocalhost.readable
  have hbody : Stops isNewline SipMessage.textToLocalhost.bodyBytes :=
    stops_cons.mpr (show isNewline 97 = false by decide)
  exact ((SipMessage.bodyFidelity_iff _).2 hread (by decide)).mpr ⟨by decide, hbody⟩

/-- A body that is a line end is lost, since the parser skips all line ends in front of the body. -/
theorem SipMessage.not_bodyFidelity_newline :
    ¬ (SipMessage.toLocalhost Uri.localhost [.contentType ⟨⟨⟨"text", "plain"⟩, {}⟩⟩]
      (some (asBytes "\r\n"))).BodyFidelity := by
  decide +kernel

end Rssip
