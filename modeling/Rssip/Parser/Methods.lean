import Rssip.Parser.Lines

namespace Rssip

open Lib SipParser

/-!
# The methods of a request

The method of a request is named in its request line, in `CSeq` and in `Allow`.  The request line
takes any token, the two headers take letters alone.

* `MethodLine` — a header line of a request, which may name the method of the request;
* `SameMethod` — such a request is accepted, and its headers have the method of its request line;
* `sameMethod_iff` — the tokens for which this holds are those of letters.
-/

/-- A header line of a request: `CSeq` and `Allow` name the method of the request. -/
inductive MethodLine where
  | cSeq (n : UInt32)
  | allow (before after : List String)
  | other (l : SipParser.Line)

namespace MethodLine

/-- The line with the method under the name. -/
def text (name : String) : MethodLine → String
  | cSeq n => headerLine CSeq.name (decimal n.toNat ++ " " ++ name)
  | allow before after => headerLine Allow.name (formatSep ", " (before ++ name :: after))
  | other l => l.text

/-- The headers of a line in a request with the given method. -/
def headers (method : SipMethod) : MethodLine → Headers
  | cSeq n => [.cSeq ⟨n, method⟩]
  | allow before after =>
    [.allow ⟨before.map (fun name => .fromBytes (asBytes name)) ++
      method :: after.map fun name => .fromBytes (asBytes name)⟩]
  | other l => l.headers

/-- Whether the line is the one after which a body is read. -/
def isContentType : MethodLine → Bool
  | other l => l.isContentType
  | _ => false

/-- The other lines are read, and the other methods of `Allow` have names of letters. -/
def Accepted : MethodLine → Prop
  | cSeq _ => True
  | allow before after => ∀ name ∈ before ++ after, Over isAsciiAlphabetic name
  | other l => l.Reads

/-- The line with what is read of it. -/
def line (name : String) (l : MethodLine) : SipParser.Line :=
  ⟨l.text name, l.headers (.fromBytes (asBytes name)), l.isContentType⟩

end MethodLine

/-- The request line of a method, whatever follows it. -/
def RequestLineOf (name : String) (target : Bytes) (l : RequestLine) : Prop :=
  ∀ rest, Stops isNewline rest → Reads parseRequestLine (asBytes name ++ 32 :: target) rest l

/-- A request with the given request line and header lines. -/
def methodRequest (name : String) (target : Bytes) (lines : List MethodLine) (body : Bytes) : Bytes :=
  (asBytes name ++ 32 :: target) ++ (linesBytes (lines.map (MethodLine.line name)) ++ ([13, 10] ++ body))

/-- Every request with the method is accepted, and has one method in all its places. -/
def SameMethod (name : String) : Prop :=
  ∀ (target : Bytes) (l : RequestLine) (lines : List MethodLine) (body : Bytes),
    RequestLineOf name target l → lines ≠ [] → (∀ k ∈ lines, k.Accepted) →
    ∃ body', parse (methodRequest name target lines body) =
      .ok (.request ⟨l, lines.flatMap (MethodLine.headers l.method), body'⟩)

namespace SipParser

variable {name : String} {target rest : Bytes} {l : RequestLine}

/-! ### Names of letters -/

theorem reads_line (hname : Over isAsciiAlphabetic name) {k : MethodLine} (h : k.Accepted) :
    (k.line name).Reads := by
  cases k with
  | cSeq n =>
    apply lineReads CSeq.name _ (by decide) rfl rfl
    · intro rest
      rw [asBytes_append, asBytes_append, List.append_assoc, List.append_assoc]
      exact stops_isSpace_decimal _ _
    · exact fun rest => reads_one (reads_cSeqValue n hname)
  | allow before after =>
    have hnames : ∀ x ∈ before ++ name :: after, Over isAsciiAlphabetic x := by
      intro x hx
      rcases List.mem_append.mp hx with hx | hx
      · exact h x (List.mem_append_left _ hx)
      · rcases List.mem_cons.mp hx with rfl | hx
        · exact hname
        · exact h x (List.mem_append_right _ hx)
    apply lineReads Allow.name _ (by decide) rfl rfl
    · apply stops_isSpace_formatSep (by simp)
      exact fun x hx next hnext => stops_isSpace_methodName (hnames x hx) hnext
    · intro rest
      have hvalue : Reads Allow.parse _ (13 :: rest) _ := reads_allowValue (by simp) hnames
      rw [List.map_append, List.map_cons] at hvalue
      exact reads_one hvalue
  | other l => exact h

/-! ### Start lines -/

/-- The request line has the method that its token names. -/
theorem method_of_requestLine (hname : Over isToken name) (h : RequestLineOf name target l) :
    l.method = .fromBytes (asBytes name) := by
  have hc : (Scanner.new (asBytes name ++ 32 :: target)).remaining = asBytes name ++ 32 :: target := rfl
  have hrun := h [] (stops_nil _) _ (hc.trans (List.append_nil _).symm)
  have htoken : Reads (consumeWhile isToken) (asBytes name) (32 :: target) (asBytes name) :=
    reads_consumeWhile hname (stops_cons.mpr (by decide))
  rw [parseRequestLine, htoken.bind_run hc] at hrun
  obtain ⟨_, _, -, hrun⟩ := bind_eq_ok_iff.mp hrun
  obtain ⟨uri, _, -, hrun⟩ := bind_eq_ok_iff.mp hrun
  obtain ⟨_, _, -, hrun⟩ := bind_eq_ok_iff.mp hrun
  obtain ⟨_, _, -, hrun⟩ := bind_eq_ok_iff.mp hrun
  obtain ⟨_, _, -, hrun⟩ := bind_eq_ok_iff.mp hrun
  injection hrun with hl
  rw [← hl]

/-- A token in front of a blank is no version. -/
theorem not_sipV2 (hname : Over isToken name) {c : Scanner}
    (hc : c.remaining = asBytes name ++ 32 :: rest) :
    c.peekN (asBytes sipV2).length ≠ some (asBytes sipV2) := by
  intro hpeek
  rw [Scanner.peekN] at hpeek
  split at hpeek
  · obtain ⟨more, hmore⟩ : asBytes sipV2 <+: c.remaining := by
      rw [← Option.some.inj hpeek]
      exact List.take_prefix _ _
    -- the token of a version ends at its slash
    have hsip : c.remaining.takeWhile isToken = asBytes "SIP" := by
      rw [← hmore]
      rfl
    have hslash : c.remaining.dropWhile isToken = 47 :: (asBytes "2.0" ++ more) := by
      rw [← hmore]
      rfl
    rw [hc, dropWhile_append_of_stops (stops_cons.mpr (by decide)),
      List.dropWhile_eq_nil_iff.mpr hname] at hslash
    exact absurd (List.cons.inj hslash).1 (by decide)
  · cases hpeek

theorem reads_startLine (hname : Over isToken name) (h : RequestLineOf name target l)
    (hrest : Stops isNewline rest) : Reads parseStartLine (asBytes name ++ 32 :: target) rest
      (.request { reqLine := l }) := by
  apply Reads.get_bind
  intro c hc
  have hpeek : c.peekN (asBytes sipV2).length ≠ some (asBytes sipV2) := by
    rw [List.append_assoc] at hc
    exact not_sipV2 hname hc
  dsimp only
  rw [if_neg (by simpa using hpeek)]
  apply Reads.bind_nil (h rest hrest)
  exact Reads.pure _ _

/-! ### Other names -/

theorem fails_scanNewline {b : UInt8} (hb : isNewline b = false) : Fails scanNewline (b :: rest) := by
  intro c hc
  cases hrun : scanNewline c with
  | error e c' => exact ⟨e, c', rfl⟩
  | ok u c' =>
    exfalso
    rcases gives_scanNewline.mp ⟨c', hrun, rfl⟩ with h | ⟨h, -⟩ | h <;>
    · obtain ⟨rfl, -⟩ := List.cons.inj (hc.symm.trans h)
      exact absurd hb (by decide)

/-- What is left of a method makes the line fail. -/
theorem fails_cSeqLine (n : UInt32) (hname : Over isToken name)
    (hletters : ¬ Over isAsciiAlphabetic name) :
    Fails parseHeaderLine (asBytes ((MethodLine.cSeq n).text name ++ "\r\n") ++ rest) := by
  -- the letters in front are read, and a byte of the token stands behind them
  obtain ⟨letters, b, left, hsplit, hall, hb⟩ : ∃ letters b left,
      asBytes name = letters ++ b :: left ∧ (∀ x ∈ letters, isAsciiAlphabetic x) ∧
        isAsciiAlphabetic b = false := by
    have hne : (asBytes name).dropWhile isAsciiAlphabetic ≠ [] := by
      rwa [Ne, List.dropWhile_eq_nil_iff]
    obtain ⟨b, left, hleft⟩ := List.exists_cons_of_ne_nil hne
    refine ⟨(asBytes name).takeWhile isAsciiAlphabetic, b, left, ?_, fun _ => of_mem_takeWhile, ?_⟩
    · rw [← hleft, List.takeWhile_append_dropWhile]
    · exact stops_cons.mp (hleft ▸ stops_dropWhile _ _)
  have hnewline : isNewline b = false := by
    by_contra h
    have htoken : isToken b := hname b (by simp [hsplit])
    rw [noDelimiter_isToken.excludes b (by simpa using h)] at htoken
    cases htoken
  have hblank : ∀ next, Stops isSpace (letters ++ b :: left ++ next) := by
    intro next
    rw [← hsplit]
    exact hname.stops isToken_table.isSpace_eq_false fun hnil => by simp [hsplit] at hnil
  rw [MethodLine.text, asBytes_headerLine, List.append_assoc]
  apply Fails.reads_bind (reads_headerName (by decide) (by decide) ?_)
  · have hvalue : Reads (parseHeaderValue CSeq.name) (asBytes (decimal n.toNat) ++ ([32] ++ letters))
        (b :: (left ++ ([13, 10] ++ rest))) [.cSeq ⟨n, .fromBytes letters⟩] := by
      apply Reads.bind_nil
      · apply Reads.bind (reads_parseU32 (stops_cons.mpr (by decide)))
        apply Reads.bind (reads_skipWs (by decide) (by simpa using hblank _))
        apply Reads.bind_nil (reads_consumeWhile hall (stops_cons.mpr hb))
        exact Reads.pure _ _
      · exact Reads.pure _ _
    have htext : asBytes (decimal n.toNat ++ " " ++ name) ++ [13, 10] ++ rest =
        asBytes (decimal n.toNat) ++ ([32] ++ letters) ++ b :: (left ++ ([13, 10] ++ rest)) := by
      rw [asBytes_append, asBytes_append, show asBytes " " = [32] by decide, hsplit]
      simp
    rw [htext]
    exact Fails.reads_bind hvalue (Fails.bind (fails_scanNewline hnewline))
  · rw [asBytes_append, asBytes_append, List.append_assoc, List.append_assoc, List.append_assoc]
    exact stops_isSpace_decimal _ _

/-- A method with another byte is not read in `CSeq`. -/
theorem over_of_sameMethod (hname : Over isToken name) (h : SameMethod name) :
    Over isAsciiAlphabetic name := by
  by_contra hletters
  have htarget : RequestLineOf name (asBytes "sip:localhost SIP/2.0\r\n")
      ⟨.fromBytes (asBytes name), Uri.localhost⟩ := by
    intro rest hrest
    exact reads_parseRequestLine_of hname (u := Uri.localhost) (by decide) (by simp [Uri.localhost]) hrest
  obtain ⟨body', hparse⟩ :=
    h _ _ [.cSeq 1] [] htarget (List.cons_ne_nil _ _) (by simp [MethodLine.Accepted])
  have hfails : Fails parseSipMsg
      (methodRequest name (asBytes "sip:localhost SIP/2.0\r\n") [.cSeq 1] []) := by
    have hbytes : linesBytes [(MethodLine.cSeq 1).line name] =
        asBytes ((MethodLine.cSeq 1).text name ++ "\r\n") := by simp [linesBytes, MethodLine.line]
    have hstops : ∀ rest, Stops isNewline (linesBytes [(MethodLine.cSeq 1).line name] ++ rest) := by
      intro rest
      rw [hbytes, MethodLine.text, asBytes_headerLine]
      exact stops_cons.mpr (by decide)
    apply Fails.reads_bind (reads_startLine hname htarget (hstops _))
    apply Fails.bind
    apply Fails.loop
    intro fuel
    rw [hbytes]
    exact Fails.loopN (Fails.bind (fails_cSeqLine 1 hname hletters)) fuel
  obtain ⟨c', hrun⟩ := parse_eq_ok_iff.mp hparse
  obtain ⟨e, c, he⟩ := hfails (Scanner.new (methodRequest name _ _ _)) rfl
  cases he.symm.trans hrun

/-- **The methods that a request names alike** in its request line, in `CSeq` and in `Allow` are
    those of letters. -/
theorem sameMethod_iff (hname : Over isToken name) : SameMethod name ↔ Over isAsciiAlphabetic name := by
  constructor
  · exact over_of_sameMethod hname
  · intro hletters target l lines body hline hne haccepted
    have hlines : lines.map (MethodLine.line name) ≠ [] := by simpa using hne
    have hread : ∀ k ∈ lines.map (MethodLine.line name), k.Reads := by
      intro k hk
      obtain ⟨k, hmem, rfl⟩ := List.mem_map.mp hk
      exact reads_line hletters (haccepted k hmem)
    have hheaders : (lines.map (MethodLine.line name)).flatMap SipParser.Line.headers =
        lines.flatMap (MethodLine.headers l.method) := by
      rw [List.flatMap_map, method_of_requestLine hname hline]
      rfl
    have hstart := fun rest (hrest : Stops isNewline rest) => reads_startLine hname hline hrest
    rw [methodRequest, parse_of_lines hlines hstart hread, hheaders, readMessage]
    split
    · exact ⟨_, rfl⟩
    · exact ⟨_, rfl⟩

theorem sameMethod_iff_invite : SameMethod "INVITE" ↔ Over isAsciiAlphabetic "INVITE" :=
  sameMethod_iff (by decide)

/-- The printed name of an unknown method is a token, and is not read as a method again. -/
theorem not_sameMethod : Over isToken SipMethod.unknown.asStr ∧ ¬ SameMethod SipMethod.unknown.asStr :=
  ⟨by decide, fun h => absurd (over_of_sameMethod (by decide) h) (by decide)⟩

end SipParser

end Rssip
