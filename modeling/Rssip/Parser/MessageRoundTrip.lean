import Rssip.Parser.HeaderRoundTrip
import Rssip.Transport.Outgoing

namespace Rssip

open Lib SipParser

/-!
# Messages are read back as they are encoded

Encoding a message and parsing it again gives its start line, its headers followed by the
`Content-Length` of the body, and the body if one of the headers is a `Content-Type`.

* `SipMessage.WellFormed` — the messages for which this holds;
* `SipMessage.RoundTrips` — what holds of them;
* `parse_of_lines` — a start line, header lines and a body are parsed one after the other;
* `SipMessage.WellFormed.roundTrips` — the round trip.
-/

/-! ### Well-formed messages -/

/-- The start line of a message: a URI whose generic parameters all have a name or a value, or
    a reason phrase that is the whole end of its line. -/
def SipMessage.StartLine : SipMessage → Prop
  | .request r => r.reqLine.uri.WellFormed ∧ ∀ p ∈ r.reqLine.uri.params.inner, p.refText ≠ ""
  | .response r => LineText r.statusLine.reason

/-- The bytes of the body. -/
def SipMessage.bodyBytes (m : SipMessage) : Bytes := m.body.getD []

/-- Whether a body is looked for behind the headers. -/
def SipMessage.hasContentType (m : SipMessage) : Bool := m.headers.any Header.isContentType

/-- A message that is read back as it is encoded. -/
structure SipMessage.WellFormed (m : SipMessage) : Prop where
  startLine : m.StartLine
  headers : ∀ h ∈ m.headers, h.WellFormed
  length : m.bodyBytes.length < 2 ^ 32
  body : m.hasContentType → ∀ b ∈ m.bodyBytes.head?, isNewline b = false

/-- The message with the `Content-Length` that encoding adds, and its body behind a
    `Content-Type` only. -/
def SipMessage.withContentLength (m : SipMessage) : SipMessage :=
  (m.setHeaders (m.headers ++ [.contentLength ⟨UInt32.ofNat m.bodyBytes.length⟩])).setBody
    (if m.hasContentType then some m.bodyBytes else none)

/-- Parsing the encoded message gives it back. -/
def SipMessage.RoundTrips (m : SipMessage) : Prop :=
  (encode m).map SipParser.parse = some (.ok m.withContentLength)

instance : DecidablePred SipMessage.RoundTrips := fun m =>
  inferInstanceAs (Decidable ((encode m).map SipParser.parse = some (.ok m.withContentLength)))

namespace SipParser

variable {rest : Bytes}

/-! ### Header lines -/

/-- A header line and what it is read as. -/
structure Line where
  text : String
  headers : Headers
  isContentType : Bool

/-- The line is read back as its headers, wherever it stands. -/
def Line.Reads (l : Line) : Prop := LineReads l.text l.headers l.isContentType

/-- The bytes of header lines. -/
def linesBytes (ls : List Line) : Bytes := ls.flatMap fun l => asBytes (l.text ++ "\r\n")

/-- Header lines start with neither byte of a line end. -/
theorem linesBytes_start {l : Line} (hread : l.Reads) (ls : List Line) (rest : Bytes) :
    ∃ b bs, linesBytes (l :: ls) ++ rest = b :: bs ∧ isNewline b = false := by
  obtain ⟨b, bs, htext, hb⟩ := hread.start
  refine ⟨b, bs ++ (asBytes "\r\n" ++ (linesBytes ls ++ rest)), ?_, hb⟩
  simp [linesBytes, asBytes_append, htext]

/-- The body of the loop over the header lines. -/
def headersBody : Headers × Bool → Parse ((Headers × Bool) ⊕ (Headers × Bool)) :=
  fun (headers, foundContentTypeHdr) => do
    let (line, isContentType) ← parseHeaderLine
    let result := (headers ++ line, foundContentTypeHdr || isContentType)
    let next ← peek
    if next = some 13 ∨ next = some 10 ∨ next = none then return .inr result
    return .inl result

/-- A line in front of another one. -/
theorem reads_headersBody {l : Line} (hread : l.Reads) (headers : Headers) (found : Bool)
    (hrest : ∃ b bs, rest = b :: bs ∧ isNewline b = false) :
    Reads (headersBody (headers, found)) (asBytes (l.text ++ "\r\n")) rest
      (.inl (headers ++ l.headers, found || l.isContentType)) := by
  obtain ⟨b, bs, rfl, hb⟩ := hrest
  have hnext : ¬ ((b :: bs).head? = some 13 ∨ (b :: bs).head? = some 10 ∨
      (b :: bs).head? = none) := by
    rintro (h13 | h10 | hnone)
    · rw [Option.some.inj h13] at hb
      exact absurd hb (by decide)
    · rw [Option.some.inj h10] at hb
      exact absurd hb (by decide)
    · exact absurd hnone (by simp)
  apply Reads.bind_nil (hread.reads _)
  apply Reads.bind_nil reads_peek
  rw [if_neg hnext]
  exact Reads.pure _ _

/-- The last line, in front of the empty one. -/
theorem reads_headersBody_last {l : Line} (hread : l.Reads) (headers : Headers) (found : Bool) :
    Reads (headersBody (headers, found)) (asBytes (l.text ++ "\r\n")) (13 :: rest)
      (.inr (headers ++ l.headers, found || l.isContentType)) := by
  apply Reads.bind_nil (hread.reads _)
  apply Reads.bind_nil reads_peek
  rw [if_pos (Or.inl (show (13 :: rest).head? = some 13 from rfl))]
  exact Reads.pure _ _

/-- A header line is not empty, since it has its end. -/
theorem lineBytes_ne_nil (l : Line) : asBytes (l.text ++ "\r\n") ≠ [] := by
  rw [asBytes_append, show asBytes "\r\n" = [13, 10] by decide]
  simp

/-- The loop over the lines, one after the other up to the empty line. -/
theorem iterates_parseHeaders (l : Line) (ls : List Line) (hread : ∀ k ∈ l :: ls, k.Reads)
    (headers : Headers) (found : Bool) :
    Iterates headersBody (13 :: rest) (headers, found) (linesBytes (l :: ls))
      (headers ++ (l :: ls).flatMap Line.headers, found || (l :: ls).any Line.isContentType) := by
  induction ls generalizing l headers found with
  | nil =>
    have hbytes : linesBytes [l] = asBytes (l.text ++ "\r\n") := by simp [linesBytes]
    rw [hbytes]
    simp only [List.flatMap_cons, List.flatMap_nil, List.append_nil, List.any_cons, List.any_nil,
      Bool.or_false]
    exact Iterates.done (reads_headersBody_last (hread l (by simp)) headers found)
  | cons k ls ih =>
    have hline := reads_headersBody (hread l (by simp)) headers found
      (linesBytes_start (hread k (by simp)) ls (13 :: rest))
    have htl := ih k (fun j hj => hread j (List.mem_cons_of_mem _ hj)) (headers ++ l.headers)
      (found || l.isContentType)
    rw [List.append_assoc, Bool.or_assoc] at htl
    exact Iterates.step hline (lineBytes_ne_nil l) htl

/-- **Header lines are read back**, up to the empty line. -/
theorem reads_parseHeaders {l : Line} {ls : List Line} (hread : ∀ k ∈ l :: ls, k.Reads) :
    Reads parseHeaders (linesBytes (l :: ls)) (13 :: rest)
      ((l :: ls).flatMap Line.headers, (l :: ls).any Line.isContentType) :=
  Reads.loop (iterates_parseHeaders l ls hread [] false)

/-! ### Start lines -/

/-- The end of a line is read in front of the next one. -/
theorem reads_lineEnd (hrest : Stops isNewline rest) : Reads skipNewline [13, 10] rest () :=
  reads_skipNewline (by decide) hrest

/-- How a status line is spelled: version, code and reason. -/
theorem asBytes_statusLine (l : StatusLine) :
    asBytes (l.line ++ "\r\n") = asBytes sipV2 ++ ([32] ++ (asBytes (decimal l.code.asU16) ++
      ([32] ++ (asBytes l.reason ++ [13, 10])))) := by
  simp only [StatusLine.line, asBytes_append, List.append_assoc,
    show asBytes "SIP/2.0 " = asBytes sipV2 ++ [32] by decide,
    show asBytes " " = [32] by decide, show asBytes "\r\n" = [13, 10] by decide]

/-- A status code is read back between its two blanks. -/
theorem reads_parseStatusCode {code : StatusCode} (hrest : Stops isSpace rest) :
    Reads parseStatusCode ([32] ++ (asBytes (decimal code.asU16) ++ [32])) rest code := by
  apply Reads.bind
  · apply reads_skipWs (by decide)
    rw [List.append_assoc]
    exact stops_isSpace_decimal _ _
  · apply Reads.bind (reads_consumeWhile (fun b hb => isAsciiDigit_of_mem_decimal hb)
      (stops_cons.mpr (by decide)))
    apply Reads.bind_nil (reads_skipWs (by decide) hrest)
    rw [StatusCode.tryFrom_asU16]
    exact Reads.pure _ _

/-- **A status line is read back.** -/
theorem reads_parseStatusLine {l : StatusLine} (hreason : LineText l.reason)
    (hrest : Stops isNewline rest) :
    Reads parseStatusLine (asBytes (l.line ++ "\r\n")) rest l := by
  have hcode : Reads parseStatusCode ([32] ++ (asBytes (decimal l.code.asU16) ++ [32]))
      ((asBytes l.reason ++ [13, 10]) ++ rest) l.code := by
    apply reads_parseStatusCode
    rw [List.append_assoc]
    exact stops_isSpace_lineText hreason _
  have htext : asBytes (l.line ++ "\r\n") = asBytes sipV2 ++
      (([32] ++ (asBytes (decimal l.code.asU16) ++ [32])) ++ (asBytes l.reason ++ [13, 10])) := by
    rw [asBytes_statusLine]
    simp only [List.append_assoc]
  rw [htext]
  apply Reads.bind reads_parseSipVersion
  apply Reads.bind hcode
  apply Reads.bind (reads_readLine hreason.1)
  apply Reads.bind_nil (reads_lineEnd hrest)
  exact Reads.pure _ _

/-- The name of a method is a token. -/
theorem over_asStr_token (m : SipMethod) : Over isToken m.asStr := by cases m <;> decide

/-- How a request line is spelled: method, URI and version. -/
theorem asBytes_requestLine (l : RequestLine) :
    asBytes (l.line ++ "\r\n") = asBytes l.method.asStr ++ ([32] ++ (asBytes l.uri.toText ++
      ([32] ++ (asBytes sipV2 ++ [13, 10])))) := by
  simp only [RequestLine.line, asBytes_append, List.append_assoc,
    show asBytes " SIP/2.0" = [32] ++ asBytes sipV2 by decide,
    show asBytes " " = [32] by decide, show asBytes "\r\n" = [13, 10] by decide]

/-- The URI of a request and the blank after it, which the one or the other reader takes. -/
theorem reads_requestUri {α : Type} {k : Uri → Parse α} {u : Uri} {text : Bytes} {v : α}
    (huri : u.WellFormed) (hparams : ∀ p ∈ u.params.inner, p.refText ≠ "")
    (hk : Reads (k u) (asBytes sipV2 ++ text) rest v) :
    Reads (do
      let uri ← parseUri true
      skipWs
      k uri) (asBytes u.toText ++ ([32] ++ (asBytes sipV2 ++ text))) rest v := by
  have huser : NoUserPart ([32] ++ (asBytes sipV2 ++ text ++ rest)) :=
    noUserPart_of_stop (by decide) _
  -- without headers the parser of the URI takes the blank behind it too
  cases h : u.headers with
  | none =>
    have hend : UriEnd u [32] (asBytes sipV2 ++ text ++ rest) :=
      { blank := by decide
        space := stops_cons.mpr (by decide)
        semi := stops_cons.mpr (by decide)
        question := stops_cons.mpr (by decide)
        param := by
          rintro (hnil | ⟨p, hp, hnil⟩)
          · exact absurd hnil (by decide)
          · exact absurd (asBytes_injective (hnil.trans asBytes_empty.symm)) (hparams p hp) }
    rw [← List.append_assoc]
    apply Reads.bind (reads_parseUri_params huri h hend fun _ => huser)
    apply Reads.nil_bind (reads_skipWs_nil (stops_cons.mpr (by decide)))
    exact hk
  | some hs =>
    have hread : Reads (parseUri true) (asBytes u.toText)
        ([32] ++ (asBytes sipV2 ++ text) ++ rest) u :=
      reads_parseUri_headers huri h (stops_cons.mpr (by decide)) (stops_cons.mpr (by decide))
        fun _ => huser
    apply Reads.bind hread
    apply Reads.bind (reads_skipWs (by decide) (stops_cons.mpr (by decide)))
    exact hk

/-- A request line is read with any token as its method. -/
theorem reads_parseRequestLine_of {name : String} {u : Uri} (hname : Over isToken name)
    (huri : u.WellFormed) (hparams : ∀ p ∈ u.params.inner, p.refText ≠ "")
    (hrest : Stops isNewline rest) :
    Reads parseRequestLine (asBytes name ++ ([32] ++ (asBytes u.toText ++
      ([32] ++ (asBytes sipV2 ++ [13, 10]))))) rest ⟨.fromBytes (asBytes name), u⟩ := by
  apply Reads.bind (reads_consumeWhile hname (stops_cons.mpr (by decide)))
  apply Reads.bind
  · apply reads_skipWs (by decide)
    rw [List.append_assoc]
    exact stops_isSpace_sipUri (.uri u) _
  · apply reads_requestUri huri hparams
    apply Reads.bind reads_parseSipVersion
    apply Reads.bind_nil (reads_lineEnd hrest)
    exact Reads.pure _ _

/-- **A request line is read back.** -/
theorem reads_parseRequestLine {l : RequestLine} (huri : l.uri.WellFormed)
    (hparams : ∀ p ∈ l.uri.params.inner, p.refText ≠ "") (hrest : Stops isNewline rest) :
    Reads parseRequestLine (asBytes (l.line ++ "\r\n")) rest l := by
  have hread := reads_parseRequestLine_of (over_asStr_token l.method) huri hparams hrest
  rw [SipMethod.fromBytes_asStr] at hread
  rwa [asBytes_requestLine]

/-! ### Messages -/

/-- A message without headers and body. -/
def bareMessage : SipMessage → SipMessage
  | .request r => .request { reqLine := r.reqLine }
  | .response r => .response { statusLine := r.statusLine }

/-- No method name starts as the version does. -/
theorem peekN_asStr {c : Scanner} {m : SipMethod} {next : Bytes}
    (h : c.remaining = asBytes m.asStr ++ next) :
    c.peekN (asBytes sipV2).length ≠ some (asBytes sipV2) := by
  intro hpeek
  have htake : c.remaining.take 7 = asBytes sipV2 := by
    rw [Scanner.peekN, show (asBytes sipV2).length = 7 by decide] at hpeek
    split at hpeek
    · exact Option.some.inj hpeek
    · exact absurd hpeek (by simp)
  have htwo : (asBytes m.asStr).take 2 = (asBytes sipV2).take 2 := by
    have hlen : 2 ≤ (asBytes m.asStr).length := by cases m <;> decide
    rw [← htake, List.take_take, h, Nat.min_eq_left (by decide), List.take_append_of_le_length hlen]
  revert htwo
  cases m <;> decide

/-- **The start line of a well-formed message is read back.** -/
theorem reads_parseStartLine {m : SipMessage} (hwf : m.StartLine) (hrest : Stops isNewline rest) :
    Reads parseStartLine (asBytes (m.startLine ++ "\r\n")) rest (bareMessage m) := by
  apply Reads.get_bind
  intro c hc
  cases m with
  | request r =>
    have hpeek : c.peekN (asBytes sipV2).length ≠ some (asBytes sipV2) := by
      have hrem : c.remaining = asBytes (r.reqLine.line ++ "\r\n") ++ rest := hc
      rw [asBytes_requestLine, List.append_assoc] at hrem
      exact peekN_asStr hrem
    dsimp only
    rw [if_neg (by simpa using hpeek)]
    apply Reads.bind_nil (reads_parseRequestLine hwf.1 hwf.2 hrest)
    exact Reads.pure _ _
  | response r =>
    have hpeek : c.peekN (asBytes sipV2).length = some (asBytes sipV2) := by
      have hrem : c.remaining = asBytes (r.statusLine.line ++ "\r\n") ++ rest := hc
      rw [asBytes_statusLine, List.append_assoc] at hrem
      rw [Scanner.peekN, hrem, if_pos (by simp), List.take_left]
    dsimp only
    rw [if_pos (by simpa using hpeek)]
    apply Reads.bind_nil (reads_parseStatusLine hwf hrest)
    exact Reads.pure _ _

/-- The body is what comes after the line ends behind the headers. -/
theorem reads_parseBody (body : Bytes) :
    Reads parseBody ([13, 10] ++ body.takeWhile isNewline) (body.dropWhile isNewline)
      (body.dropWhile isNewline) := by
  have hall : ∀ b ∈ [13, 10] ++ body.takeWhile isNewline, isNewline b := by
    intro b hb
    rcases List.mem_append.mp hb with hb | hb
    · exact (by decide : ∀ b ∈ ([13, 10] : Bytes), isNewline b) b hb
    · exact of_mem_takeWhile hb
  apply Reads.bind_nil (reads_skipNewline hall (stops_dropWhile _ _))
  intro c hc
  show EStateM.Result.ok c.remaining c = _
  rw [show c.remaining = body.dropWhile isNewline from hc]
  rfl

/-- A message with the given headers, and with what is left of `body` behind a
    `Content-Type`. -/
def readMessage (m : SipMessage) (headers : Headers) (found : Bool) (body : Bytes) : SipMessage :=
  if found then (m.setHeaders headers).setBody (some (body.dropWhile isNewline))
  else m.setHeaders headers

/-- A message that is read in front of some bytes is parsed from both. -/
theorem parse_of_reads {m : SipMessage} {text : Bytes} (h : Reads parseSipMsg text rest m) :
    parse (text ++ rest) = .ok m := by
  have hrem : Cursor.remaining (Scanner.new (text ++ rest)) = text ++ rest := rfl
  exact parse_eq_ok_iff.mpr ⟨_, h _ hrem⟩

/-- **A start line, header lines and a body are parsed one after the other.** -/
theorem parse_of_lines {start body : Bytes} {m : SipMessage} {ls : List Line} (hne : ls ≠ [])
    (hstart : ∀ rest, Stops isNewline rest → Reads parseStartLine start rest m)
    (hread : ∀ l ∈ ls, l.Reads) :
    parse (start ++ (linesBytes ls ++ ([13, 10] ++ body))) =
      .ok (readMessage m (ls.flatMap Line.headers) (ls.any Line.isContentType) body) := by
  obtain ⟨l, ls, rfl⟩ := List.exists_cons_of_ne_nil hne
  have hfirst : ∀ rest, Stops isNewline (linesBytes (l :: ls) ++ rest) := by
    intro rest
    obtain ⟨b, bs, htext, hb⟩ := linesBytes_start (hread l (by simp)) ls rest
    rw [htext]
    exact stops_cons.mpr hb
  -- only behind a `Content-Type` is a body read
  cases hfound : (l :: ls).any Line.isContentType with
  | false =>
    have hmsg : Reads parseSipMsg (start ++ linesBytes (l :: ls)) ([13, 10] ++ body)
        (readMessage m ((l :: ls).flatMap Line.headers) false body) := by
      apply Reads.bind (hstart _ (hfirst _))
      apply Reads.bind_nil (reads_parseHeaders hread)
      rw [hfound]
      exact Reads.pure _ _
    rw [← List.append_assoc]
    exact parse_of_reads hmsg
  | true =>
    have hmsg : Reads parseSipMsg
        (start ++ (linesBytes (l :: ls) ++ ([13, 10] ++ body.takeWhile isNewline)))
        (body.dropWhile isNewline)
        (readMessage m ((l :: ls).flatMap Line.headers) true body) := by
      apply Reads.bind
      · apply hstart
        rw [List.append_assoc]
        exact hfirst _
      · apply Reads.bind (reads_parseHeaders hread)
        rw [hfound]
        apply Reads.bind_nil (reads_parseBody body)
        exact Reads.pure _ _
    have hbody : body = body.takeWhile isNewline ++ body.dropWhile isNewline :=
      List.takeWhile_append_dropWhile.symm
    have hparse := parse_of_reads hmsg
    simp only [List.append_assoc] at hparse ⊢
    rwa [← hbody] at hparse

end SipParser

/-! ### Encoded messages -/

open SipParser in
/-- `l` is the line of `h`, and what it is read as tells of a body if `h` does. -/
structure Header.ReadFrom (h : Header) (l : Line) : Prop where
  text : h.toText = some l.text
  reads : l.Reads
  isContentType : h.isContentType → l.isContentType

namespace SipParser

/-- The line of the `Content-Length` header that encoding adds. -/
def contentLengthText (n : Nat) : String := headerLine ContentLength.name (decimal n)

/-- The line that the printer adds behind the headers. -/
def contentLengthLine (n : Nat) : Line :=
  ⟨contentLengthText n, [.contentLength ⟨UInt32.ofNat n⟩], false⟩

/-- The line of a length of 32 bits is read back. -/
theorem contentLengthLine_reads {n : Nat} (hn : n < 2 ^ 32) : (contentLengthLine n).Reads := by
  have hread := lineReads_contentLength ⟨UInt32.ofNat n⟩
  have htext : ContentLength.toText ⟨UInt32.ofNat n⟩ = contentLengthText n := by
    show headerLine ContentLength.name (decimal (UInt32.ofNat n).toNat) = _
    rw [UInt32.toNat_ofNat', Nat.mod_eq_of_lt hn]
    rfl
  rwa [htext] at hread

/-- Headers that have lines each have a list of lines. -/
theorem exists_lines {hs : Headers} (hread : ∀ h ∈ hs, ∃ l, h.ReadFrom l) :
    ∃ ls, List.Forall₂ Header.ReadFrom hs ls := by
  induction hs with
  | nil => exact ⟨[], .nil⟩
  | cons h hs ih =>
    obtain ⟨l, hl⟩ := hread h (by simp)
    obtain ⟨ls, hls⟩ := ih fun k hk => hread k (List.mem_cons_of_mem _ hk)
    exact ⟨l :: ls, .cons hl hls⟩

/-- The lines of headers are read back. -/
theorem reads_of_forall₂ {hs : Headers} {ls : List Line}
    (h : List.Forall₂ Header.ReadFrom hs ls) : ∀ l ∈ ls, l.Reads := by
  induction h with
  | nil => simp
  | cons hl _ ih => exact List.forall_mem_cons.mpr ⟨hl.reads, ih⟩

/-- If one of the headers tells of a body, then so does one of the lines. -/
theorem isContentType_of_forall₂ {hs : Headers} {ls : List Line}
    (h : List.Forall₂ Header.ReadFrom hs ls) (htype : hs.any Header.isContentType) :
    ls.any Line.isContentType := by
  induction h with
  | nil => exact absurd htype (by simp)
  | cons hl _ ih =>
    rcases (by simpa using htype : _ ∨ _) with hhd | htl
    · simp [hl.isContentType hhd]
    · simp [ih (by simpa using htl)]

/-- The printed headers are their lines. -/
theorem asBytes_headers {hs : Headers} {ls : List Line}
    (h : List.Forall₂ Header.ReadFrom hs ls) :
    ∃ text, Headers.toText hs = some text ∧ asBytes text = linesBytes ls := by
  induction h with
  | nil => exact ⟨"", rfl, by decide⟩
  | @cons h l hs ls hl _ ih =>
    obtain ⟨text, htext, hbytes⟩ := ih
    refine ⟨l.text ++ "\r\n" ++ text, ?_, ?_⟩
    · simp [Headers.toText, hl.text, htext]
    · rw [asBytes_append, hbytes]
      simp [linesBytes]

/-- The layout of an encoded message, by lines. -/
theorem encode_eq {m : SipMessage} {ls : List Line}
    (h : List.Forall₂ Header.ReadFrom m.headers ls) :
    encode m = some (asBytes (m.startLine ++ "\r\n") ++
      (linesBytes (ls ++ [contentLengthLine m.bodyBytes.length]) ++
        ([13, 10] ++ m.bodyBytes))) := by
  obtain ⟨text, htext, hbytes⟩ := asBytes_headers h
  have hlast : linesBytes [contentLengthLine m.bodyBytes.length] =
      asBytes (contentLengthText m.bodyBytes.length ++ "\r\n") := by
    simp [linesBytes, contentLengthLine]
  have happend : linesBytes (ls ++ [contentLengthLine m.bodyBytes.length]) =
      linesBytes ls ++ linesBytes [contentLengthLine m.bodyBytes.length] := List.flatMap_append
  refine encode_eq_some_iff.mpr ⟨text, htext, ?_⟩
  rw [writeBody_eq, hbytes, happend, hlast, show asBytes "\r\n" = [13, 10] by decide]
  simp only [List.append_assoc]
  rfl

/-- **An encoded message is parsed line by line**, and the line ends its body starts with are
    lost. -/
theorem parse_encode {m bare : SipMessage} {ls : List Line}
    (hstart : ∀ rest, Stops isNewline rest →
      Reads parseStartLine (asBytes (m.startLine ++ "\r\n")) rest bare)
    (h : List.Forall₂ Header.ReadFrom m.headers ls) (hlen : m.bodyBytes.length < 2 ^ 32) :
    (encode m).map parse = some (.ok (readMessage bare
      (ls.flatMap Line.headers ++ [.contentLength ⟨UInt32.ofNat m.bodyBytes.length⟩])
      (ls.any Line.isContentType) m.bodyBytes)) := by
  have hread : ∀ l ∈ ls ++ [contentLengthLine m.bodyBytes.length], l.Reads := by
    intro l hl
    rcases List.mem_append.mp hl with hl | hl
    · exact reads_of_forall₂ h l hl
    · rw [List.mem_singleton.mp hl]
      exact contentLengthLine_reads hlen
  rw [encode_eq h, Option.map_some, parse_of_lines (by simp) hstart hread]
  simp [contentLengthLine]

end SipParser

/-! ### The round trip -/

open SipParser in

/-- A header that is read back has a line, which gives the header again. -/
theorem Header.ReadBack.readFrom {h : Header} (hread : h.ReadBack) :
    ∃ line, h.ReadFrom ⟨line, [h], h.isContentType⟩ := by
  obtain ⟨line, htext, hread⟩ := hread
  exact ⟨line, htext, hread, id⟩

open SipParser in

/-- Headers that are read back have lines, which give the headers again and tell of a body if they
    do. -/
theorem Header.ReadBack.lines {hs : Headers} (hread : ∀ h ∈ hs, h.ReadBack) :
    ∃ ls, List.Forall₂ Header.ReadFrom hs ls ∧ ls.flatMap Line.headers = hs ∧
      ls.any Line.isContentType = hs.any Header.isContentType := by
  induction hs with
  | nil => exact ⟨[], .nil, rfl, rfl⟩
  | cons h hs ih =>
    obtain ⟨line, hline⟩ := (hread h (by simp)).readFrom
    obtain ⟨ls, hls, hheaders, htype⟩ := ih fun k hk => hread k (List.mem_cons_of_mem _ hk)
    refine ⟨_, .cons hline hls, ?_, ?_⟩
    · rw [List.flatMap_cons, hheaders]
      rfl
    · rw [List.any_cons, List.any_cons, htype]

/-- What is read back is the message itself, unless its body starts with a line end. -/
theorem SipMessage.readMessage_bareMessage {m : SipMessage}
    (hbody : m.hasContentType → Stops isNewline m.bodyBytes) :
    SipParser.readMessage (SipParser.bareMessage m)
      (m.headers ++ [.contentLength ⟨UInt32.ofNat m.bodyBytes.length⟩]) m.hasContentType
      m.bodyBytes = m.withContentLength := by
  unfold SipParser.readMessage SipMessage.withContentLength
  by_cases htype : m.hasContentType
  · rw [if_pos htype, if_pos htype, Stops.dropWhile_eq (hbody htype)]
    cases m <;> rfl
  · rw [if_neg htype, if_neg htype]
    cases m <;> rfl

/-- A message is read back as it is encoded when each of its headers is. -/
theorem SipMessage.roundTrips_of_readBack {m : SipMessage} (hstart : m.StartLine)
    (hheaders : ∀ h ∈ m.headers, h.ReadBack) (hlength : m.bodyBytes.length < 2 ^ 32)
    (hbody : m.hasContentType → Stops isNewline m.bodyBytes) : m.RoundTrips := by
  obtain ⟨ls, hls, hheaders, htype⟩ := Header.ReadBack.lines hheaders
  have hparse :=
    SipParser.parse_encode (fun _ => SipParser.reads_parseStartLine hstart) hls hlength
  rw [hheaders, htype] at hparse
  rw [SipMessage.RoundTrips, hparse]
  exact congrArg (fun m => some (Except.ok m)) (SipMessage.readMessage_bareMessage hbody)

/-- **A well-formed message is read back as it is encoded**, with its `Content-Length`. -/
theorem SipMessage.WellFormed.roundTrips {m : SipMessage} (hwf : m.WellFormed) :
    m.RoundTrips :=
  SipMessage.roundTrips_of_readBack hwf.startLine (fun h hh => (hwf.headers h hh).readBack)
    hwf.length hwf.body

/-- A request to `localhost`. -/
def SipMessage.toLocalhost (uri : Uri) (headers : Headers) (body : Option Bytes) : SipMessage :=
  .request { reqLine := ⟨.options, uri⟩, headers := headers, body := body }

/-- A request with a text of four bytes. -/
def SipMessage.textToLocalhost : SipMessage :=
  SipMessage.toLocalhost Uri.localhost
    [.maxForwards ⟨70⟩, .callId ⟨"1"⟩, .contentType ⟨⟨⟨"text", "plain"⟩, {}⟩⟩]
    (some (asBytes "a\r\nb"))

/-- The request with a text is well-formed. -/
theorem SipMessage.wellFormed_textToLocalhost : SipMessage.textToLocalhost.WellFormed := by
  have hcallId : (Header.callId ⟨"1"⟩).WellFormed := by
    show LineText "1"
    exact ⟨by decide, by decide⟩
  have htype : (Header.contentType ⟨⟨⟨"text", "plain"⟩, {}⟩⟩).WellFormed := by
    show MediaType.WellFormed ⟨⟨"text", "plain"⟩, {}⟩
    exact ⟨by decide, by decide, by decide⟩
  exact
    { startLine := ⟨by decide, by decide⟩
      headers := List.forall_mem_cons.mpr ⟨trivial, List.forall_mem_cons.mpr ⟨hcallId,
        List.forall_mem_singleton.mpr htype⟩⟩
      length := by decide
      body := by decide }

/-- The request with a text comes back as it was. -/
theorem SipMessage.roundTrips_textToLocalhost : SipMessage.textToLocalhost.RoundTrips :=
  SipMessage.WellFormed.roundTrips SipMessage.wellFormed_textToLocalhost

/-- Not every message is read back: a raw header may have the name of another header type, a list
    may be empty, the parameters and headers of a bare URI are those of its header, and headers
    of a URI come with a value. -/
theorem SipMessage.not_forall_roundTrips :
    ¬ (SipMessage.toLocalhost Uri.localhost [.rawHeader ⟨"Max-Forwards", "70"⟩] none).RoundTrips ∧
    ¬ (SipMessage.toLocalhost Uri.localhost [.allow ⟨[]⟩] none).RoundTrips ∧
    ¬ (SipMessage.toLocalhost Uri.localhost
      [.fromHdr ⟨.uri { Uri.localhost with params := ⟨[⟨"a", none⟩]⟩ }, none, {}⟩] none).RoundTrips ∧
    ¬ (SipMessage.toLocalhost { Uri.localhost with headers := some ⟨⟨[⟨"a", none⟩]⟩⟩ }
      [] none).RoundTrips ∧
    ¬ (SipMessage.toLocalhost { Uri.localhost with params := ⟨[⟨"", none⟩]⟩ } [] none).RoundTrips := by
  decide +kernel

end Rssip
