import Rssip.Parser.Lines
import Rssip.Transport.Decode

namespace Rssip

open Lib SipParser

/-!
# Where the body starts

The parser takes the body from behind the empty line, however long it is announced to be; the
stream decoder takes as many bytes from there as are announced.

* `behindLines` — what follows the header lines, found by line ends alone;
* `HeaderBytes` — the bytes in front of the double CRLF that ends the headers of a frame;
* `body_boundaries` — the parser and the decoder end the headers at the same place, in frames
  with CRLF line ends only and a header on each line.
-/

/-! ### Boundaries -/

/-- The bytes behind a line end. -/
def behindLineEnd : Bytes → Bytes
  | [] => []
  | [b] => if isNewline b then [] else [b]
  | b :: c :: bs =>
    if b = 13 ∧ c = 10 then bs
    else if isNewline b then c :: bs
    else b :: c :: bs

/-- What the parser leaves behind the header lines: the empty line and what follows. -/
def behindHeaders (buf : Bytes) : Option Bytes :=
  let run : Parse Bytes := do
    let _ ← parseStartLine
    let _ ← parseHeaders
    return (← get).remaining
  match run (Scanner.new buf) with
  | .ok rest _ => some rest
  | .error _ _ => none

/-- The same, found by line ends alone. -/
def behindLines (buf : Bytes) : Option Bytes :=
  let run : Parse Bytes := do
    let _ ← parseStartLine
    let _ ← repeatUntil .stuck atHeadersEnd SipParser.headerLine
    return (← get).remaining
  match run (Scanner.new buf) with
  | .ok rest _ => some rest
  | .error _ _ => none

/-- The start line is the first line of `buf`, and the header lines follow it directly. -/
def ownStartLine (buf : Bytes) : Bool :=
  match parseStartLine (Scanner.new buf) with
  | .ok _ c => c.remaining = behindLineEnd (buf.dropWhile fun b => !isNewline b)
  | .error _ _ => false

/-- Carriage returns and line feeds come in pairs. -/
def crlfOnly : Bytes → Bool
  | [] => true
  | [b] => !isNewline b
  | b :: c :: bs => if b = 13 then c == 10 && crlfOnly bs else b != 10 && crlfOnly (c :: bs)

/-! ### A `Content-Type` header is noticed -/

namespace SipParser

/-- The headers of a list none of which is a `Content-Type`. -/
def NoContentType (headers : Headers) : Prop := headers.any Header.isContentType = false

theorem noContentType_one {α : Type} {toHeader : α → Header} {parse : Parse α}
    (h : ∀ a, (toHeader a).isContentType = false) :
    Yields (fun _ => True) NoContentType (one toHeader parse) := by
  apply Yields.bind (P := fun _ => True) (fun _ _ _ _ _ => ⟨trivial, trivial⟩)
  intro a _
  exact Yields.pure (by simp [NoContentType, h])

theorem noContentType_many {α : Type} {toHeader : α → Header} {parse : Parse α}
    (h : ∀ a, (toHeader a).isContentType = false) :
    Yields (fun _ => True) NoContentType (many toHeader parse) := by
  apply Yields.bind (P := fun _ => True) (fun _ _ _ _ _ => ⟨trivial, trivial⟩)
  intro as _
  exact Yields.pure (by simp [NoContentType, h])

/-- The names of the parsers that make a `Content-Type` are those that are looked for. -/
theorem headerParsers_contentType : ∀ entry ∈ headerParsers,
    (∀ name ∈ entry.1, isContentTypeName name) ∨
      Yields (fun _ => True) NoContentType entry.2 := by
  simp only [headerParsers, List.forall_mem_cons, List.not_mem_nil, false_implies, implies_true,
    and_true]
  refine ⟨?_, ?_, ?_, ?_, ?_, ?_, ?_, ?_, ?_, ?_, ?_, ?_, ?_, ?_, ?_, ?_, ?_, ?_, ?_, ?_, ?_, ?_,
    ?_, ?_, ?_, Or.inl (by decide), ?_, ?_, ?_, ?_, ?_, ?_, ?_, ?_, ?_, ?_, ?_, ?_, ?_, ?_, ?_,
    ?_⟩ <;> first
    | exact Or.inr (noContentType_one fun _ => rfl)
    | exact Or.inr (noContentType_many fun _ => rfl)

theorem yields_isContentTypeName (name : String) : Yields (fun _ => True)
    (fun headers => headers.any Header.isContentType → isContentTypeName name)
    (parseHeaderValue name) := by
  have hnone : ∀ headers, NoContentType headers →
      headers.any Header.isContentType → isContentTypeName name := by
    intro headers h hany
    rw [h] at hany
    exact absurd hany (by decide)
  rcases parseHeaderValue_cases name with ⟨entry, hentry, hmem, heq⟩ | ⟨-, heq⟩
  · rw [heq]
    rcases headerParsers_contentType entry hentry with hname | hyields
    · intro c headers c' _ _
      exact ⟨fun _ => hname name hmem, trivial⟩
    · exact hyields.imp hnone
  · rw [heq]
    exact (noContentType_one fun _ => rfl).imp hnone

/-- The parser finds each `Content-Type`. -/
theorem found_of_any {c c' : Scanner} {headers : Headers} {found : Bool}
    (h : parseHeaders c = .ok (headers, found) c') (hany : headers.any Header.isContentType) :
    found := by
  have hbody : ∀ a : Headers × Bool, (a.1.any Header.isContentType → a.2) →
      Yields (fun _ => True) (Sum.elim (fun a : Headers × Bool => a.1.any Header.isContentType → a.2)
        (fun a : Headers × Bool => a.1.any Header.isContentType → a.2)) (headersBody a) := by
    -- one line adds its headers and what was found in it
    rintro ⟨acc, accFound⟩ hacc c next c' - hrun
    obtain ⟨⟨line, isContentType⟩, hline, hnext, -⟩ := headersBody_eq_ok hrun
    obtain ⟨name, c₁, -, hline⟩ := bind_eq_ok_iff.mp hline
    obtain ⟨values, c₂, hvalue, hline⟩ := bind_eq_ok_iff.mp hline
    obtain ⟨_, c₃, -, hline⟩ := bind_eq_ok_iff.mp hline
    injection hline with hline
    have hname : line.any Header.isContentType → isContentType := by
      rw [← (Prod.mk.inj hline).1, ← (Prod.mk.inj hline).2]
      exact (yields_isContentTypeName name _ _ _ trivial hvalue).1
    have hresult : (acc ++ line).any Header.isContentType → (accFound || isContentType) := by
      rw [List.any_append, Bool.or_eq_true, Bool.or_eq_true]
      exact Or.imp hacc hname
    refine ⟨?_, trivial⟩
    cases next with
    | inl a =>
      have ha : a = (acc ++ line, accFound || isContentType) := hnext
      rw [ha]
      exact hresult
    | inr a =>
      have ha : a = (acc ++ line, accFound || isContentType) := hnext
      rw [ha]
      exact hresult
  exact (Yields.loop hbody (by simp) c _ c' trivial h).1 hany

end SipParser

/-! ### Lines that end with CRLF -/

theorem crlfOnly_append {line s : Bytes} (hline : CleanBytes line) :
    crlfOnly (line ++ s) = crlfOnly s := by
  induction line with
  | nil => rfl
  | cons b line ih =>
    have hb := hline b List.mem_cons_self
    have htl := ih fun b' hb' => hline b' (List.mem_cons_of_mem _ hb')
    have hb13 : b ≠ 13 := by
      rintro rfl
      exact absurd hb (by decide)
    have hb10 : b ≠ 10 := by
      rintro rfl
      exact absurd hb (by decide)
    cases hrest : line ++ s with
    | nil =>
      rw [hrest] at htl
      rw [List.cons_append, hrest, ← htl]
      simp [crlfOnly, hb]
    | cons c bs =>
      rw [List.cons_append, hrest, crlfOnly, if_neg hb13, ← htl, hrest]
      simp [hb10]

/-- A line end at the front is a CRLF. -/
theorem exists_crlf {b : UInt8} {bs : Bytes} (h : crlfOnly (b :: bs)) (hb : isNewline b) :
    ∃ rest, b :: bs = 13 :: 10 :: rest ∧ crlfOnly rest := by
  cases bs with
  | nil => simp [crlfOnly, hb] at h
  | cons c bs =>
    rw [crlfOnly] at h
    by_cases hb13 : b = 13
    · rw [if_pos hb13, Bool.and_eq_true, beq_iff_eq] at h
      exact ⟨bs, by rw [hb13, h.1], h.2⟩
    · rw [if_neg hb13, Bool.and_eq_true] at h
      have hb10 : b ≠ 10 := by simpa using h.1
      rcases isNewline_iff.mp hb with rfl | rfl
      · exact absurd rfl hb13
      · exact absurd rfl hb10

/-- `s` is a part of the headers of a frame: not empty, with CRLF line ends only, and the double
    CRLF in front of `body` is the first one behind it. -/
structure HeaderBytes (s body : Bytes) : Prop where
  start : ∃ b bs, s = b :: bs ∧ isNewline b = false
  crlf : crlfOnly s
  first : ∀ k < s.length, ¬ msgHeadersEnd <+: (s ++ (msgHeadersEnd ++ body)).drop k

/-- The first line is the last one, or other lines follow. -/
theorem HeaderBytes.cases {s body : Bytes} (h : HeaderBytes s body) :
    ∃ line, CleanBytes line ∧
      (s = line ∨ ∃ next, s = line ++ 13 :: 10 :: next ∧ HeaderBytes next body) := by
  have hsplit : s = s.takeWhile (fun b => !isNewline b) ++ s.dropWhile (fun b => !isNewline b) :=
    List.takeWhile_append_dropWhile.symm
  have hclean : CleanBytes (s.takeWhile fun b => !isNewline b) := by
    intro b hb
    simpa using List.mem_takeWhile_imp hb
  refine ⟨s.takeWhile fun b => !isNewline b, hclean, ?_⟩
  cases hdrop : s.dropWhile (fun b => !isNewline b) with
  | nil =>
    left
    rw [hdrop, List.append_nil] at hsplit
    exact hsplit
  | cons b bs =>
    right
    have hb : isNewline b := by
      have hhead := List.head_dropWhile_not (p := fun b => !isNewline b) (l := s)
        (by rw [hdrop]; simp)
      simpa [hdrop] using hhead
    rw [hdrop] at hsplit
    generalize s.takeWhile (fun b => !isNewline b) = line at hsplit hclean
    have hcrlf := h.crlf
    rw [hsplit, crlfOnly_append hclean] at hcrlf
    obtain ⟨next, hnext, hcrlf⟩ := exists_crlf hcrlf hb
    rw [hnext] at hsplit
    have hfirst : ¬ msgHeadersEnd <+: 13 :: 10 :: (next ++ (msgHeadersEnd ++ body)) := by
      have hk := h.first line.length (by rw [hsplit, List.length_append]; simp)
      rw [hsplit, List.append_assoc, List.drop_left] at hk
      exact hk
    refine ⟨next, hsplit, ?_, hcrlf, ?_⟩
    · -- an empty line would be the end of the headers
      cases next with
      | nil => exact absurd (show msgHeadersEnd <+: _ from ⟨13 :: 10 :: body, rfl⟩) hfirst
      | cons b' bs' =>
        refine ⟨b', bs', rfl, ?_⟩
        by_contra hb'
        rw [Bool.not_eq_false] at hb'
        obtain ⟨rest, hrest, -⟩ := exists_crlf hcrlf hb'
        rw [hrest] at hfirst
        exact hfirst ⟨rest ++ (msgHeadersEnd ++ body), rfl⟩
    · -- a place in what follows is a place further on in the whole
      intro k hk
      have hk' := h.first (line.length + (k + 2)) (by
        rw [hsplit, List.length_append]
        simp only [List.length_cons]
        omega)
      rw [hsplit, List.append_assoc, List.drop_append, List.drop_of_length_le (by omega),
        Nat.add_sub_cancel_left, List.nil_append] at hk'
      exact hk'

namespace SipParser

/-- A line with its CRLF. -/
theorem headerLine_run {c : Scanner} {line : Bytes} (rest : Bytes) (hline : CleanBytes line)
    (hrem : c.remaining = line ++ 13 :: 10 :: rest) :
    ∃ c', SipParser.headerLine c = .ok line c' ∧ c'.remaining = rest := by
  have hadvance : (Lib.advance c line).remaining = 13 :: 10 :: rest :=
    remaining_advance (σ := Scanner) hrem
  obtain ⟨c', hnewline, hrest⟩ := gives_scanNewline.mpr (Or.inl hadvance)
  refine ⟨c', headerLine_eq_ok_iff.mpr ⟨?_, hnewline⟩, hrest⟩
  rw [hrem, takeWhile_line hline (by simp [isNewline])]

/-- **The scan for line ends stops at the end of the headers.** -/
theorem runs_headerLine_of_headerBytes {s body : Bytes} (h : HeaderBytes s body) {c : Scanner}
    (hrem : c.remaining = s ++ (msgHeadersEnd ++ body)) :
    ∃ lines c', Runs atHeadersEnd SipParser.headerLine c lines c' ∧
      c'.remaining = 13 :: 10 :: body := by
  generalize hn : s.length = n
  induction n using Nat.strongRecOn generalizing s c with
  | ind n ih =>
    obtain ⟨line, hline, rfl | ⟨next, hs, hnext⟩⟩ := h.cases
    · obtain ⟨c', hrun, hrem'⟩ := headerLine_run (13 :: 10 :: body) hline hrem
      refine ⟨[s], c', Runs.last hrun ?_, hrem'⟩
      rw [atHeadersEnd, Scanner.peek_eq_head?, hrem']
      rfl
    · rw [hs, List.append_assoc] at hrem
      obtain ⟨c', hrun, hrem'⟩ := headerLine_run _ hline hrem
      have hlt : next.length < n := by
        rw [← hn, hs, List.length_append, List.length_cons, List.length_cons]
        omega
      obtain ⟨lines, c'', hruns, hrem''⟩ := ih next.length hlt hnext hrem' rfl
      refine ⟨line :: lines, c'', Runs.cons hrun ?_ hruns, hrem''⟩
      obtain ⟨b, bs, hb, hnewline⟩ := hnext.start
      rw [atHeadersEnd, Scanner.peek_eq_head?, hrem', hb]
      rw [isNewline, Bool.or_eq_false_iff] at hnewline
      simpa using hnewline

/-- **What is accepted with a header on each line.** The parser and the scan for line ends leave
    the same behind the headers, and the body is that less its line ends in front. -/
theorem parse_complete {buf : Bytes} {m : SipMessage} (h : parse buf = .ok m)
    (hcomplete : completeLines buf) :
    ∃ bare c lines c', parseStartLine (Scanner.new buf) = .ok bare c ∧
      (∀ line ∈ lines, isHeader line) ∧ Runs atHeadersEnd SipParser.headerLine c lines c' ∧
        behindHeaders buf = some c'.remaining ∧ behindLines buf = some c'.remaining ∧
          (m.hasContentType → m.body = some (c'.remaining.dropWhile isNewline)) := by
  obtain ⟨c', hrun⟩ := parse_eq_ok_iff.mp h
  obtain ⟨bare, c, headers, found, c₁, hstart, hheaders, hread⟩ := parseSipMsg_eq_ok hrun
  obtain ⟨texts, htexts, -⟩ := runs_of_parseHeaders hheaders
  obtain ⟨lines, d, hlines, hruns, hrem⟩ :=
    runs_headerLine htexts ((clean_texts_iff hstart htexts).mpr hcomplete)
  -- both loops begin where the start line ended
  have hparser : behindHeaders buf = some c₁.remaining := by
    have hrest := (bind_eq_ok_iff (f := fun _ => do return (← get).remaining)).mpr
      ⟨_, c₁, hheaders, rfl⟩
    have hall := (bind_eq_ok_iff (f := fun _ => do
      let _ ← parseHeaders
      return (← get).remaining)).mpr ⟨bare, c, hstart, hrest⟩
    simp only [behindHeaders, hall]
  have hscan : behindLines buf = some d.remaining := by
    have hloop := hruns.repeatUntil_eq Failure.stuck length_headerLine
    have hrest := (bind_eq_ok_iff (f := fun _ => do return (← get).remaining)).mpr
      ⟨_, d, hloop, rfl⟩
    have hall := (bind_eq_ok_iff (f := fun _ => do
      let _ ← repeatUntil .stuck atHeadersEnd SipParser.headerLine
      return (← get).remaining)).mpr ⟨bare, c, hstart, hrest⟩
    simp only [behindLines, hall]
  refine ⟨bare, c, lines, d, hstart, hlines, hruns, hrem ▸ hparser, hscan, fun htype => ?_⟩
  rw [SipMessage.hasContentType, hread, readMessage_headers] at htype
  rw [hread, found_of_any hheaders htype, ← hrem]
  cases bare <;> rfl

end SipParser

/-! ### The two boundaries -/

theorem dropWhile_eq_behindLineEnd {rest : Bytes} (h : Stops isNewline (behindLineEnd rest)) :
    rest.dropWhile isNewline = behindLineEnd rest := by
  cases rest with
  | nil => rfl
  | cons b rest =>
    cases rest with
    | nil => cases hb : isNewline b <;> simp [behindLineEnd, hb]
    | cons c bs =>
      rw [behindLineEnd] at h ⊢
      by_cases hcrlf : b = 13 ∧ c = 10
      · rw [if_pos hcrlf] at h ⊢
        rw [hcrlf.1, hcrlf.2]
        exact h.dropWhile_eq
      · rw [if_neg hcrlf] at h ⊢
        by_cases hb : isNewline b
        · rw [if_pos hb] at h ⊢
          rw [List.dropWhile_cons_of_pos hb, h.dropWhile_eq]
        · rw [if_neg hb, List.dropWhile_cons_of_neg hb]

/-- **What the decoder emits**: headers, the double CRLF, and as many bytes as are announced. -/
theorem decode_complete {src frame rest : Bytes}
    (h : decode src = .item (.complete frame) rest) :
    ∃ hdr body, src = frame ++ rest ∧ frame = hdr ++ (msgHeadersEnd ++ body) ∧
      findWindow msgHeadersEnd frame = some hdr.length ∧
        announcedLength frame hdr.length = .ok (some body.length) ∧
          ¬ keepaliveResponse <+: frame := by
  rcases decode_item_cases h with ⟨-, hi, -⟩ | ⟨-, hi, -⟩ |
    ⟨hdrEnd, cLen, hresp, hwin, hann, -, hle, hi, rfl⟩
  · cases hi
  · cases hi
  rw [FramedMessage.complete.injEq] at hi
  rw [hi]
  generalize hn : hdrEnd + msgHeadersEnd.length + cLen = n at hle ⊢
  obtain ⟨hwin', hann'⟩ := headers_take hwin (n := n) (by omega) hle
  -- the parts of the frame: its headers, their end, and the rest
  obtain ⟨body, hbody⟩ := ((findWindow_eq_some_iff msgHeadersEnd_ne_nil).mp hwin').1
  have hhdr : ((src.take n).take hdrEnd).length = hdrEnd := by
    simp only [List.length_take]
    omega
  have hframe : src.take n = (src.take n).take hdrEnd ++ (msgHeadersEnd ++ body) := by
    rw [hbody, List.take_append_drop]
  have hbodylen : body.length = cLen := by
    have hlength := congrArg List.length hframe
    rw [List.length_append, hhdr, List.length_append, List.length_take] at hlength
    omega
  refine ⟨(src.take n).take hdrEnd, body, (List.take_append_drop n src).symm, hframe, ?_, ?_, ?_⟩
  · rw [hhdr]
    exact hwin'
  · rw [hhdr, hbodylen]
    exact hann'.trans hann
  · exact fun hpre => hresp (hpre.trans (List.take_prefix n src))

/-- The parser ends the headers of a frame where the decoder does. -/
theorem behindHeaders_frame {hdr body : Bytes} {m : SipMessage}
    (hwin : findWindow msgHeadersEnd (hdr ++ (msgHeadersEnd ++ body)) = some hdr.length)
    (hresp : ¬ keepaliveResponse <+: hdr ++ (msgHeadersEnd ++ body))
    (hparse : parse (hdr ++ (msgHeadersEnd ++ body)) = .ok m) (hcrlf : crlfOnly hdr)
    (hstart : ownStartLine (hdr ++ (msgHeadersEnd ++ body)))
    (hcomplete : completeLines (hdr ++ (msgHeadersEnd ++ body))) :
    behindHeaders (hdr ++ (msgHeadersEnd ++ body)) = some (13 :: 10 :: body) ∧
      (m.hasContentType → Stops isNewline body → m.body = some body) := by
  obtain ⟨bare, c, lines, c', hrun, hlines, hruns, hbehind, -, hbody⟩ :=
    parse_complete hparse hcomplete
  have hhdr : HeaderBytes hdr body := by
    refine ⟨?_, hcrlf, ((findWindow_eq_some_iff msgHeadersEnd_ne_nil).mp hwin).2⟩
    -- a message that began with a line end would be a keep-alive
    cases hdr with
    | nil => exact absurd ⟨13 :: 10 :: body, rfl⟩ hresp
    | cons b bs =>
      refine ⟨b, bs, rfl, ?_⟩
      by_contra hb
      obtain ⟨rest, hrest, -⟩ := exists_crlf hcrlf (by simpa using hb)
      rw [hrest] at hresp
      exact hresp ⟨rest ++ (msgHeadersEnd ++ body), rfl⟩
  have hrem : c.remaining =
      behindLineEnd ((hdr ++ (msgHeadersEnd ++ body)).dropWhile fun b => !isNewline b) := by
    rw [ownStartLine, hrun] at hstart
    simpa using hstart
  have hfirst : ∀ {line rest : Bytes}, CleanBytes line →
      behindLineEnd ((line ++ 13 :: 10 :: rest).dropWhile fun b => !isNewline b) = rest := by
    intro line rest hline
    have hdrop : (line ++ 13 :: 10 :: rest).dropWhile (fun b => !isNewline b) = 13 :: 10 :: rest := by
      rw [List.dropWhile_append_of_pos fun b hb => by simp [hline b hb]]
      rfl
    rw [hdrop]
    simp [behindLineEnd]
  have hend : c'.remaining = 13 :: 10 :: body := by
    obtain ⟨line, hline, rfl | ⟨next, hs, hnext⟩⟩ := hhdr.cases
    · -- behind the start line there is no header, but an empty line
      rw [show hdr ++ (msgHeadersEnd ++ body) = hdr ++ 13 :: 10 :: (13 :: 10 :: body) from rfl,
        hfirst hline] at hrem
      have hempty : ∀ {line c''}, SipParser.headerLine c = .ok line c'' → line = [] := by
        intro line c'' h
        rw [(headerLine_eq_ok_iff.mp h).1, hrem]
        rfl
      have hnot : ¬ isHeader [] := by decide
      cases hruns with
      | last h _ => exact absurd (hempty h ▸ hlines _ List.mem_cons_self) hnot
      | cons h _ _ => exact absurd (hempty h ▸ hlines _ List.mem_cons_self) hnot
    · -- the lines are read the same way however they are found
      rw [hs, List.append_assoc, List.cons_append, List.cons_append, hfirst hline] at hrem
      obtain ⟨lines', c'', hruns', hrem'⟩ := runs_headerLine_of_headerBytes hnext hrem
      rw [(hruns.unique hruns').2, hrem']
  refine ⟨by rw [hbehind, hend], fun htype hstops => ?_⟩
  rw [hbody htype, hend]
  exact congrArg some hstops.dropWhile_eq

/-- **Bodies are delimited by the empty line, frames by their length.** The parser takes all bytes
    behind the empty line, whatever a `Content-Length` says.  A frame ends its headers with the
    first double CRLF and has as many bytes behind it as are announced, and the parser ends them
    at the same place if line ends are CRLF and each line is a header on its own. -/
theorem body_boundaries :
    (∀ buf m rest, parse buf = .ok m → completeLines buf → m.hasContentType →
      behindLines buf = some rest → Stops isNewline (behindLineEnd rest) →
        m.body = some (behindLineEnd rest)) ∧
    ∀ src frame rest, decode src = .item (.complete frame) rest →
      ∃ hdr body, src = frame ++ rest ∧ frame = hdr ++ (msgHeadersEnd ++ body) ∧
        findWindow msgHeadersEnd frame = some hdr.length ∧
        announcedLength frame hdr.length = .ok (some body.length) ∧
        ∀ m, parse frame = .ok m → crlfOnly hdr → ownStartLine frame → completeLines frame →
          behindHeaders frame = some (13 :: 10 :: body) ∧
            (m.hasContentType → Stops isNewline body → m.body = some body) := by
  constructor
  · intro buf m rest hparse hcomplete htype hrest hstops
    obtain ⟨bare, c, lines, c', -, -, -, -, hlines, hbody⟩ := parse_complete hparse hcomplete
    rw [hrest, Option.some.injEq] at hlines
    rw [hbody htype, ← hlines, dropWhile_eq_behindLineEnd hstops]
  · intro src frame rest hdec
    obtain ⟨hdr, body, hsrc, rfl, hwin, hann, hresp⟩ := decode_complete hdec
    exact ⟨hdr, body, hsrc, rfl, hwin, hann, fun m hparse hcrlf hstart hcomplete =>
      behindHeaders_frame hwin hresp hparse hcrlf hstart hcomplete⟩

/-- A `200` response with a type, a length and a body. -/
def okWithBody (n : UInt32) (body : Bytes) : SipMessage :=
  .response { statusLine := ⟨.ok, "OK"⟩,
              headers := [.contentType ⟨⟨⟨"a", "b"⟩, {}⟩⟩, .contentLength ⟨n⟩],
              body := some body }

/-- A response with more bytes than it announces, and one that is a frame. -/
theorem body_boundaries_ok :
    (okWithBody 1 (asBytes "xy")).body = some (asBytes "xy") ∧
    behindHeaders (asBytes "SIP/2.0 200 OK\r\nContent-Type: a/b\r\nl: 2\r\n\r\nxy") =
      some (asBytes "\r\nxy") := by
  constructor
  · exact body_boundaries.1 (asBytes "SIP/2.0 200 OK\r\nContent-Type: a/b\r\nl: 1\r\n\r\nxy") _
      (asBytes "\r\nxy") (by decide +kernel) (by decide +kernel) (by decide) (by decide +kernel)
      (stops_cons.mpr (show isNewline 120 = false by decide))
  · obtain ⟨hdr, body, -, hframe, hwin, -, hparser⟩ := body_boundaries.2
      (asBytes "SIP/2.0 200 OK\r\nContent-Type: a/b\r\nl: 2\r\n\r\nxy")
      (asBytes "SIP/2.0 200 OK\r\nContent-Type: a/b\r\nl: 2\r\n\r\nxy") [] (by decide +kernel)
    have hlen : 39 = hdr.length := by
      rw [← Option.some.injEq, ← hwin]
      decide +kernel
    have htake : (hdr ++ (msgHeadersEnd ++ body)).take hdr.length = hdr := List.take_left
    have hhdr : hdr = asBytes "SIP/2.0 200 OK\r\nContent-Type: a/b\r\nl: 2" := by
      rw [← htake, ← hframe, ← hlen]
      decide +kernel
    have hdrop : (hdr ++ (msgHeadersEnd ++ body)).drop (hdr.length + 4) = body := by
      simp [msgHeadersEnd, List.drop_append]
    have hbody : body = asBytes "xy" := by
      rw [← hdrop, ← hframe, ← hlen]
      decide +kernel
    have hend := (hparser (okWithBody 2 (asBytes "xy")) (by decide +kernel)
      (by rw [hhdr]; decide +kernel) (by decide +kernel) (by decide +kernel)).1
    rw [hend, hbody]
    rfl

/-- The announced length is not that of the body, which may be longer or shorter, and the headers
    may end at two line feeds that the decoder does not see. -/
theorem not_body_boundaries :
    (¬ ∀ buf m n rest, parse buf = .ok m →
      m.headers.filter (fun h => h matches .contentLength _) = [.contentLength ⟨n⟩] →
      m.hasContentType → behindLines buf = some rest →
        m.body = some ((behindLineEnd rest).take n.toNat)) ∧
    (¬ ∀ buf m n rest, parse buf = .ok m →
      m.headers.filter (fun h => h matches .contentLength _) = [.contentLength ⟨n⟩] →
      m.hasContentType → behindLines buf = some rest →
        n.toNat ≤ (behindLineEnd rest).length) ∧
    ¬ ∀ src frame rest hdrEnd m, decode src = .item (.complete frame) rest →
      findWindow msgHeadersEnd frame = some hdrEnd → parse frame = .ok m →
        behindHeaders frame = some (frame.drop (hdrEnd + 2)) := by
  refine ⟨fun h => ?_, fun h => ?_, fun h => ?_⟩
  · have hlong := h (asBytes "SIP/2.0 200 OK\r\nContent-Type: a/b\r\nl: 1\r\n\r\nxy")
      (okWithBody 1 (asBytes "xy")) 1 (asBytes "\r\nxy") (by decide +kernel) (by decide)
      (by decide) (by decide +kernel)
    exact absurd hlong (by decide)
  · have hshort := h (asBytes "SIP/2.0 200 OK\r\nContent-Type: a/b\r\nl: 5\r\n\r\nxy")
      (okWithBody 5 (asBytes "xy")) 5 (asBytes "\r\nxy") (by decide +kernel) (by decide)
      (by decide) (by decide +kernel)
    exact absurd hshort (by decide)
  · have hfeeds := h (asBytes "SIP/2.0 200 OK\r\nContent-Type: a/b\r\nl: 2\n\nX: z\r\n\r\nxy")
      (asBytes "SIP/2.0 200 OK\r\nContent-Type: a/b\r\nl: 2\n\nX: z\r\n\r\nxy") [] 45
      (okWithBody 2 (asBytes "X: z\r\n\r\nxy")) (by decide +kernel) (by decide +kernel)
      (by decide +kernel)
    exact absurd hfeeds (by decide +kernel)

end Rssip
