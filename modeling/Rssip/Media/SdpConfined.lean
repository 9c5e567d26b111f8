import Rssip.Lib.Confined
import Rssip.Media.SdpLines

namespace Rssip.Media

open Lib

/-!
# SDP parsers and the line they read

As long as it stays in its own line, what reads a line does the same as on this line alone.

* `StaysInLine` — the judgment, with one lemma for each parser;
* `valueInLine` — what reads a line, with a transport that ends with its line.  Such a transport is
  the only one that is accepted, and so `gives_valueInLine` loses nothing.
-/

namespace SdpParser

/-- The parser does not look behind the end of a line unless it reads on there. -/
abbrev StaysInLine {α : Type} (r : Parse α) : Prop := Confined isNewline (fun _ => True) r

variable {α : Type}

/-! ### Parsers that stay in their line -/

/-- A predicate that admits neither of the two line ends admits none. -/
theorem excludes_isNewline {predicate : UInt8 → Bool}
    (h : predicate 13 = false ∧ predicate 10 = false) : Excludes isNewline predicate := by
  intro b hb
  rcases isNewline_iff.mp hb with rfl | rfl
  · exact h.1
  · exact h.2

/-- A predicate that admits both of the two line ends admits every line end. -/
theorem forall_isNewline {predicate : UInt8 → Bool}
    (h : predicate 13 = true ∧ predicate 10 = true) : ∀ b, isNewline b → predicate b := by
  intro b hb
  rcases isNewline_iff.mp hb with rfl | rfl
  · exact h.1
  · exact h.2

/-- The parser's use of a scan gives what the scan gives. -/
theorem gives_ofScan {scan : Scan α} {c : Scanner} {a : α} {left : Bytes} :
    Gives (ofScan scan) c a left ↔ Gives scan c a left :=
  exists_congr fun _ => and_congr_left' ofScan_eq_ok_iff

/-- The parser's use of a scan goes over what the scan goes over. -/
theorem bounded_ofScan {scan : Scan α} (h : Bounded (fun _ => True) scan) :
    Bounded (fun _ => True) (ofScan scan) where
  advances hr := h.advances (ofScan_eq_ok_iff.mp hr)
  fails {c e c'} hr := by
    rw [ofScan] at hr
    cases hscan : scan c with
    | ok a c₁ => simp [hscan] at hr
    | error e₁ c₁ =>
      rw [hscan] at hr
      injection hr with _ hc
      exact ⟨trivial, hc ▸ (h.fails hscan).2⟩

/-- The parser's use of a scan stays in its line if the scan does. -/
theorem staysInLine_ofScan {scan : Scan α} (h : ScansInLine scan) : StaysInLine (ofScan scan) where
  toBounded := bounded_ofScan h.toBounded
  inLine hline a left := by
    rw [gives_ofScan, gives_ofScan]
    exact h.inLine hline a left

/-- The parser's use of a scan may go on behind its line where the scan does. -/
theorem passing_ofScan {scan : Scan α} (h : Passing isNewline (fun _ => True) scan) :
    Passing isNewline (fun _ => True) (ofScan scan) where
  toBounded := bounded_ofScan h.toBounded
  inLine hline a left := by
    rw [gives_ofScan, gives_ofScan]
    exact h.inLine hline a left

/-- A parser that fails does not look at the text. -/
theorem staysInLine_fail (e : Error) : StaysInLine (fail e : Parse α) := Confined.throw trivial

/-- To skip blanks does not look behind the end of the line. -/
theorem staysInLine_handleWs : StaysInLine handleWs :=
  (confined_scanWhile (excludes_isNewline (by decide))).bind fun _ => Confined.pure _

/-- To read a token does not look behind the end of the line. -/
theorem staysInLine_readToken : StaysInLine readToken :=
  confined_scanWhileAsStrUnchecked (excludes_isNewline (by decide))

/-- To read the rest of the line ends with the line. -/
theorem staysInLine_readLine : StaysInLine readLine :=
  staysInLine_ofScan (scansIn_scanWhileAsStr (excludes_isNewline (by decide)))

/-- A number ends in its line at the latest. -/
theorem staysInLine_scanUnsigned (bound : Nat) : ScansInLine (Scan.scanUnsigned bound) :=
  confined_scanUnsigned (excludes_isNewline (by decide)) bound

/-- The same for the 16-bit numbers of the parser. -/
theorem staysInLine_scanU16 : StaysInLine (ofScan Scan.scanU16) :=
  staysInLine_ofScan (staysInLine_scanUnsigned _).map

/-- The same for the 64-bit numbers of the parser. -/
theorem staysInLine_scanU64 : StaysInLine (ofScan Scan.scanU64) :=
  staysInLine_ofScan (staysInLine_scanUnsigned _).map

/-- The same for the signed numbers of the parser. -/
theorem staysInLine_scanI64 : StaysInLine (ofScan Scan.scanI64) :=
  staysInLine_ofScan (staysInLine_scanUnsigned _).map

/-- To make an address of a text that was read does not look at the scanner. -/
theorem staysInLine_ipAddr (context text : String) : StaysInLine (ipAddr context text) := by
  unfold ipAddr
  split
  · exact Confined.pure _
  · exact staysInLine_fail _

/-- An element of a loop is followed by a blank, or by the end of the line. -/
def lineOver (c : Scanner) : Bool := c.peek = some 13 ∨ c.peek = some 10 ∨ c.peek = none

/-- Whether the line is over is the same within the buffer and on the line alone. -/
theorem lineOver_eq {s s₁ : Scanner} {rest : Bytes} (h : InLine isNewline s s₁ rest) :
    lineOver s = lineOver s₁ := by
  have hrem : s.remaining = s₁.remaining ++ rest := h.whole
  rw [lineOver, lineOver, Scanner.peek_eq_head?, Scanner.peek_eq_head?, hrem]
  cases hline : s₁.remaining with
  | cons b bs => rfl
  | nil =>
    cases hrest : rest with
    | nil => rfl
    | cons b bs =>
      have hb : isNewline b := h.rest b (by rw [hrest]; rfl)
      rcases isNewline_iff.mp hb with rfl | rfl <;> rfl

/-- The body of `parseElements`. -/
def elementsBody (elem : Parse α) (elems : List α) : Parse (List α ⊕ List α) := do
  if (← modifyGet (Scanner.scanIf isSpace)).isNone then return .inr elems
  let elems := elems ++ [← elem]
  let next ← peek
  if next = some 13 ∨ next = some 10 ∨ next = none then return .inr elems
  return .inl elems

/-- The list of elements as a loop over its body, so that the rules for loops apply. -/
theorem parseElements_eq (elem : Parse α) :
    parseElements elem = loop .stuck (elementsBody elem) [] := rfl

/-- One turn of the loop stays in its line if an element does. -/
theorem staysInLine_elementsBody {elem : Parse α} (h : StaysInLine elem) (elems : List α) :
    StaysInLine (elementsBody elem elems) := by
  apply Confined.bind (confined_scanIf (excludes_isNewline (by decide)))
  intro blank
  apply Confined.ite (Confined.pure _)
  apply Confined.bind h
  intro e
  -- the end of the line is as good as the end of the text
  let next (atEnd : Bool) : Parse (List α ⊕ List α) :=
    if atEnd then return .inr (elems ++ [e]) else return .inl (elems ++ [e])
  have hnext : StaysInLine (MonadState.get >>= fun c : Scanner => next (lineOver c)) :=
    Confined.get_bind lineOver_eq fun atEnd => (Confined.pure _).ite (Confined.pure _)
  simp only [next, lineOver, decide_eq_true_eq] at hnext
  exact hnext

/-- An iteration adds an element, if there is a blank in front of it. -/
theorem elementsBody_eq_ok {elem : Parse α} {elems : List α} {next : List α ⊕ List α}
    {c c' : Scanner} (h : elementsBody elem elems c = .ok next c') :
    (Stops isSpace c.remaining ∧ next = .inr elems) ∨
      ¬ Stops isSpace c.remaining ∧ ∃ e, next = .inr (elems ++ [e]) ∨ next = .inl (elems ++ [e]) := by
  obtain ⟨blank, c₁, hscan, h⟩ := bind_eq_ok_iff.mp h
  rcases gives_scanIf.mp ⟨c₁, hscan, rfl⟩ with ⟨b, rfl, hb, hrem⟩ | ⟨rfl, hstops, -⟩
  · obtain ⟨e, c₂, -, h⟩ := bind_eq_ok_iff.mp h
    obtain ⟨peeked, c₃, -, h⟩ := bind_eq_ok_iff.mp h
    refine .inr ⟨?_, e, ?_⟩
    · rw [hrem, stops_cons, hb]
      exact Bool.noConfusion
    · split at h
      · injection h with hnext
        exact .inl hnext.symm
      · injection h with hnext
        exact .inr hnext.symm
  · injection h with hnext
    exact .inl ⟨hstops, hnext.symm⟩

/-- With the element its blank is read. -/
theorem length_elementsBody {elem : Parse α} (h : StaysInLine elem) {elems : List α}
    {next : List α ⊕ List α} {c c' : Scanner} (hrun : elementsBody elem elems c = .ok next c')
    (hstops : ¬ Stops isSpace c.remaining) : c'.remaining.length < c.remaining.length := by
  obtain ⟨o, c₁, hscan, hrun⟩ := bind_eq_ok_iff.mp hrun
  rcases gives_scanIf.mp ⟨c₁, hscan, rfl⟩ with ⟨b, rfl, -, hrem⟩ | ⟨-, h, -⟩
  · obtain ⟨e, c₂, helem, hrun⟩ := bind_eq_ok_iff.mp hrun
    have hle := h.length_le helem
    obtain ⟨peeked, c₃, hpeek, hrun⟩ := bind_eq_ok_iff.mp hrun
    injection hpeek with _ hc₃
    have hc' : c₃ = c' := by
      split at hrun
      · injection hrun
      · injection hrun
    rw [← hc', ← hc₃, hrem, List.length_cons]
    exact Nat.lt_succ_of_le hle
  · exact absurd h hstops

/-- A turn that is followed by another one has consumed the blank between them. -/
theorem consumes_elementsBody {elem : Parse α} (h : StaysInLine elem) :
    Consumes (elementsBody elem) := by
  intro elems c elems' c' hrun
  rcases elementsBody_eq_ok hrun with ⟨-, hnext⟩ | ⟨hstops, -⟩
  · cases hnext
  · exact length_elementsBody h hrun hstops

/-- The whole list stays in its line if an element does. -/
theorem staysInLine_parseElements {elem : Parse α} (h : StaysInLine elem) :
    StaysInLine (parseElements elem) := by
  rw [parseElements_eq]
  exact Confined.loop (staysInLine_elementsBody h) (consumes_elementsBody h) []

/-! ### What the lines say -/

/-- The version does not depend on what follows its line. -/
theorem staysInLine_parseVersion : StaysInLine parseVersion :=
  (staysInLine_ofScan (scansIn_mustRead _)).tryCatch fun _ _ => ⟨_, rfl, trivial⟩

/-- An attribute does not depend on what follows its line. -/
theorem staysInLine_parseAttribute : StaysInLine parseAttribute := by
  apply Confined.bind staysInLine_readToken
  intro name
  apply Confined.bind (confined_scanIf (excludes_isNewline (by decide)))
  intro colon
  exact (staysInLine_readLine.bind fun _ => Confined.pure _).ite (Confined.pure _)

/-- The times of a `t` line do not depend on what follows it. -/
theorem staysInLine_parseTime : StaysInLine parseTime := by
  apply Confined.bind staysInLine_scanU64
  intro startTime
  apply Confined.bind (staysInLine_ofScan (scansIn_mustRead _))
  intro _
  exact staysInLine_scanU64.bind fun _ => Confined.pure _

/-- The numbers of an `r` line do not depend on what follows it. -/
theorem staysInLine_parseRepeatTimes : StaysInLine parseRepeatTimes := by
  apply Confined.bind staysInLine_scanI64
  intro repeatInterval
  apply Confined.bind staysInLine_handleWs
  intro _
  apply Confined.bind staysInLine_scanI64
  intro activeDuration
  exact (staysInLine_parseElements staysInLine_scanI64).bind fun _ => Confined.pure _

/-- A bandwidth does not depend on what follows its line. -/
theorem staysInLine_parseBandwidth : StaysInLine parseBandwidth where
  toBounded := by
    apply Bounded.bind (bounded_ofScan (bounded_scanWhileAsStr _)).map
    intro bwtype
    exact staysInLine_scanU64.toBounded.bind fun _ => Bounded.pure _
  inLine {c c₁ rest} _ b left := by
    -- none is read
    refine iff_of_false ?_ ?_
    · rintro ⟨c', h, -⟩
      obtain ⟨e, c'', he⟩ := fails_parseBandwidth _ c₁ rfl
      rw [he] at h
      cases h
    · rintro ⟨c', h, -⟩
      obtain ⟨e, c'', he⟩ := fails_parseBandwidth _ c rfl
      rw [he] at h
      cases h

/-- At the end there is no address. -/
theorem fails_address {k : IpAddr → Parse α} : Fails (do
    handleWs
    let unicastAddress ← ipAddr "" (← ofScan (Scan.scanUntilAnyAsStr (asBytes " \t\r\n")))
    k unicastAddress) [] := by
  have hnone : asBytes "" ++ [] = ([] : Bytes) := by decide
  have hread : Reads (ofScan (Scan.scanUntilAnyAsStr (asBytes " \t\r\n"))) (asBytes "") [] "" :=
    reads_ofScan (Scan.reads_scanWhileAsStr (by decide) (stops_nil _))
  have hparse : IpAddr.parse "" = none := by decide
  rw [← hnone]
  apply Fails.reads_bind (reads_handleWs (by decide) (stops_nil _))
  rw [← hnone]
  apply Fails.reads_bind hread
  apply Fails.bind
  rw [ipAddr, hparse]
  exact fun s _ => ⟨_, s, rfl⟩

/-- An origin does not depend on what follows its line unless it reads on there. -/
theorem staysInLine_parseOrigin : StaysInLine parseOrigin := by
  apply Confined.bind (staysInLine_ofScan (scansIn_scanWhileAsStr (excludes_isNewline (by decide))))
  intro user
  apply Confined.bind staysInLine_handleWs
  intro _
  apply Confined.bind staysInLine_scanU64
  intro sessionId
  apply Confined.bind staysInLine_handleWs
  intro _
  apply Confined.bind staysInLine_scanU64
  intro sessionVersion
  apply Confined.bind staysInLine_handleWs
  intro _
  -- what is read up to a blank passes the end of the line, and fails then
  have hblank : Passing isNewline (fun _ => True) (ofScan (Scan.scanUntilAsStr 32)) :=
    passing_ofScan (passing_scanWhileAsStr (forall_isNewline (by decide)))
  apply hblank.map.bind
  · intro nettype
    apply Confined.bind staysInLine_handleWs
    intro _
    have hend : ∀ addrtype : AddrType, StaysInLine (do
        handleWs
        let unicastAddress ←
          ipAddr "" (← ofScan (Scan.scanUntilAnyAsStr (asBytes " \t\r\n")))
        handleWs
        return (⟨user, sessionId, sessionVersion, nettype, addrtype, unicastAddress⟩ : Origin)) := by
      intro addrtype
      apply Confined.bind staysInLine_handleWs
      intro _
      apply Confined.bind
        (staysInLine_ofScan (scansIn_scanWhileAsStr (excludes_isNewline (by decide))))
      intro address
      apply Confined.bind (staysInLine_ipAddr _ _)
      intro ip
      exact staysInLine_handleWs.bind fun _ => Confined.pure _
    apply hblank.bind
    · intro addr
      dsimp only
      split
      · exact hend _
      · exact hend _
      · exact (staysInLine_fail _).bind hend
    · intro addr
      dsimp only
      split
      · exact fails_address
      · exact fails_address
      · exact fun s _ => ⟨_, s, rfl⟩
  · intro nettype
    exact fails_untilBlank fun s => ⟨_, _, rfl⟩

/-- To go over as many bytes as a text in front has is to go over that text. -/
theorem gives_advanceN {k : Unit → Parse α} {c : Scanner} {text rest left : Bytes} {a : α}
    (hc : c.remaining = text ++ rest) :
    Gives (modify (Scanner.advanceN text.length) >>= k) c a left ↔
      Gives (k ()) (Lib.advance c text) a left := by
  rw [gives_bind]
  have hrun := reads_advanceN (ε := Failure) text c hc
  constructor
  · rintro ⟨_, c', h, hk⟩
    rw [hrun] at h
    injection h with _ hc'
    exact hc' ▸ hk
  · exact fun hk => ⟨(), _, hrun, hk⟩

/-- A text without line ends is looked for in the line alone. -/
theorem prefix_iff_of_inLine {s s₁ : Scanner} {text rest : Bytes}
    (h : InLine isNewline s s₁ rest) (htext : ∀ b ∈ text, isNewline b = false) :
    text <+: s.remaining ↔ text <+: s₁.remaining := by
  have hrem : s.remaining = s₁.remaining ++ rest := h.whole
  rw [hrem]
  constructor
  · intro hpre
    rcases List.prefix_or_prefix_of_prefix hpre (List.prefix_append s₁.remaining rest) with h' | h'
    · exact h'
    · -- what is looked for behind the line starts with its end
      obtain ⟨more, rfl⟩ := h'
      rw [List.prefix_append_right_inj] at hpre
      cases more with
      | nil => simp
      | cons b bs =>
        obtain ⟨rest', rfl⟩ := hpre
        have hb := htext b (by simp)
        rw [h.rest b rfl] at hb
        cases hb
  · exact fun hpre => hpre.trans (List.prefix_append _ _)

/-- Reading the text that has been seen. -/
theorem staysInLine_seen {r : Parse α} {k : Unit → Parse α} {text : Bytes}
    (htext : ∀ b ∈ text, isNewline b = false) (hk : StaysInLine (k ())) (hr : StaysInLine r) :
    StaysInLine (do
      if text.isPrefixOf (← get).remaining then
        modify (Scanner.advanceN text.length) >>= k
      else r) where
  toBounded := Bounded.get_bind fun c => by
    split
    · exact (bounded_advanceN _).bind fun _ => hk.toBounded
    · exact hr.toBounded
  inLine {s s₁ rest} hline a left := by
    show Gives (if text.isPrefixOf s₁.remaining then _ else r) s₁ a left ↔
      Gives (if text.isPrefixOf s.remaining then _ else r) s a (left ++ rest)
    simp only [List.isPrefixOf_iff_prefix, prefix_iff_of_inLine hline htext]
    by_cases hpre : text <+: s₁.remaining
    · obtain ⟨more, hmore⟩ := hpre
      have hs₁ : s₁.remaining = text ++ more := hmore.symm
      have hs : s.remaining = text ++ (more ++ rest) := by
        rw [← List.append_assoc, hmore]
        exact hline.whole
      have hadvance : Cursor.remaining (Lib.advance s text) =
          Cursor.remaining (Lib.advance s₁ text) ++ rest := by
        rw [remaining_advance (σ := Scanner) hs, remaining_advance (σ := Scanner) hs₁]
      rw [if_pos ⟨more, hmore⟩, gives_advanceN hs₁, gives_advanceN hs]
      exact hk.inLine (hline.of_left hadvance) a left
    · rw [if_neg hpre]
      exact hr.inLine hline a left

/-- The address type is decided by the next three bytes alone. -/
theorem addrType_peekN (c : Scanner) : addrType (c.peekN 3) =
    if (asBytes "IP4").isPrefixOf c.remaining then some .ip4
    else if (asBytes "IP6").isPrefixOf c.remaining then some .ip6
    else none := by
  have hpre : ∀ text : Bytes, text.length = 3 →
      (c.peekN 3 = some text ↔ text.isPrefixOf c.remaining) := by
    intro text hlength
    rw [List.isPrefixOf_iff_prefix, List.prefix_iff_eq_take, hlength, Scanner.peekN]
    constructor
    · intro h
      split at h
      · exact (Option.some.inj h).symm
      · cases h
    · intro h
      have hle : 3 ≤ c.remaining.length := by
        rw [← hlength, h, List.length_take]
        omega
      rw [if_pos hle, ← h]
  rw [addrType]
  simp only [hpre (asBytes "IP4") (by decide), hpre (asBytes "IP6") (by decide)]

/-- The network type of a connection by its two branches, each with what comes after it. -/
theorem connectionNetType_bind (k : NetType → Parse α) : connectionNetType >>= k = (do
    if (asBytes "IN").isPrefixOf (← get).remaining then
      modify (Scanner.advanceN (asBytes "IN").length) >>= fun _ => k .internet
    else
      ofScan (Scan.scanWhileAsStr fun b => !isSpace b) >>= fun name => k (.other name)) := by
  rw [connectionNetType, bind_assoc]
  refine congrArg (MonadState.get >>= ·) (funext fun c => ?_)
  rw [apply_ite (· >>= k)]
  refine ite_congr rfl (fun _ => ?_) fun _ => ?_
  · rw [bind_assoc]
    rfl
  · rw [bind_assoc]
    rfl

/-- The address type and what follows it. -/
def afterAddrType (k : AddrType → Parse α) : Parse α := do
  match addrType ((← get).peekN 3) with
  | some addrtype => modify (Scanner.advanceN 3) >>= fun _ => k addrtype
  | none => fail (.parseSdpError (.syntaxError "Invalid Addr Type"))

/-- The address type keeps what follows it in its line. -/
theorem staysInLine_afterAddrType {k : AddrType → Parse α} (hk : ∀ addrtype, StaysInLine (k addrtype)) :
    StaysInLine (afterAddrType k) := by
  have hseen : StaysInLine (do
      if (asBytes "IP4").isPrefixOf (← get).remaining then
        modify (Scanner.advanceN (asBytes "IP4").length) >>= fun _ => k .ip4
      else do
        if (asBytes "IP6").isPrefixOf (← get).remaining then
          modify (Scanner.advanceN (asBytes "IP6").length) >>= fun _ => k .ip6
        else fail (.parseSdpError (.syntaxError "Invalid Addr Type"))) :=
    staysInLine_seen (by decide) (hk _) (staysInLine_seen (by decide) (hk _) (staysInLine_fail _))
  refine cast (congrArg StaysInLine (funext fun c => ?_)) hseen
  show (if (asBytes "IP4").isPrefixOf c.remaining then _ else _ : Parse α) c =
    (match addrType (c.peekN 3) with | some _ => _ | none => _ : Parse α) c
  rw [addrType_peekN]
  by_cases h4 : (asBytes "IP4").isPrefixOf c.remaining
  · rw [if_pos h4, if_pos h4]
    rfl
  · rw [if_neg h4, if_neg h4]
    show (if (asBytes "IP6").isPrefixOf c.remaining then _ else _ : Parse α) c = _
    by_cases h6 : (asBytes "IP6").isPrefixOf c.remaining
    · rw [if_pos h6, if_pos h6]
      rfl
    · rw [if_neg h6, if_neg h6]

/-- A connection does not depend on what follows its line unless it reads on there. -/
theorem staysInLine_parseConnectionInfo : StaysInLine parseConnectionInfo := by
  let behind (nettype : NetType) : Parse ConnectionInformation := do
    handleWs
    afterAddrType fun addrtype => do
      handleWs
      let conectionAddress ← ipAddr "Invalid Connection Address: " (← readLine)
      handleWs
      return ⟨nettype, addrtype, conectionAddress⟩
  have hbehind : ∀ nettype, StaysInLine (behind nettype) := by
    intro nettype
    apply Confined.bind staysInLine_handleWs
    intro _
    apply staysInLine_afterAddrType
    intro addrtype
    apply Confined.bind staysInLine_handleWs
    intro _
    apply Confined.bind staysInLine_readLine
    intro address
    apply Confined.bind (staysInLine_ipAddr _ _)
    intro ip
    exact staysInLine_handleWs.bind fun _ => Confined.pure _
  have hfails : ∀ nettype, Fails (behind nettype) [] := by
    intro nettype
    have hnone : asBytes "" ++ [] = ([] : Bytes) := by decide
    rw [← hnone]
    apply Fails.reads_bind (reads_handleWs (by decide) (stops_nil _))
    apply Fails.get_bind
    intro c hc
    have hpeek : addrType (c.peekN 3) = none := by
      rw [addrType_peekN, show c.remaining = [] from hc]
      rfl
    rw [hpeek]
    exact fun s _ => ⟨_, s, rfl⟩
  have hparse : parseConnectionInfo = connectionNetType >>= behind := by
    refine congrArg (connectionNetType >>= ·) (funext fun nettype => ?_)
    refine congrArg (handleWs >>= ·) (funext fun _ => ?_)
    refine congrArg (MonadState.get >>= ·) (funext fun c => ?_)
    dsimp only
    cases addrType (c.peekN 3) with
    | none => rfl
    | some addrtype => rfl
  rw [hparse, connectionNetType_bind]
  apply staysInLine_seen (by decide) (hbehind _)
  exact (passing_ofScan (passing_scanWhileAsStr (forall_isNewline (by decide)))).bind
    (fun _ => hbehind _) fun _ => hfails _

/-! ### The line of a media description -/

/-- What stands behind the media type, with a transport of bytes of the table. -/
def mediaFrom (predicate : UInt8 → Bool) (mediaType : MediaType) : Parse MediaDescription := do
  handleWs
  let port ← ofScan Scan.scanU16
  handleWs
  match sdpTransport (← modifyGet (Scanner.scanWhile predicate)) with
  | some proto => do
    let mediaFormats ← parseElements readToken
    return { mediaType := mediaType, port := port, proto := proto, mediaFormats := mediaFormats }
  | none => fail (.parseSdpError .sdpUnknowTransport)

/-- The parser of an `m` line with another condition for what ends it. -/
def mediaUpTo (predicate : UInt8 → Bool) : Parse MediaDescription := do
  match mediaType (← readToken) with
  | some mediaType => mediaFrom predicate mediaType
  | none => fail (.parseSdpError .sdpUnknowMediaType)

/-- The parser of an `m` line is the one whose transport ends at a blank. -/
theorem parseMediaDescription_eq : parseMediaDescription = mediaUpTo fun b => !isSpace b := by
  refine congrArg (readToken >>= ·) (funext fun name => ?_)
  dsimp only
  cases mediaType name with
  | none => rfl
  | some mediaType =>
    simp only [pure_bind, mediaFrom]
    refine congrArg (handleWs >>= ·) (funext fun _ => ?_)
    refine congrArg (ofScan Scan.scanU16 >>= ·) (funext fun port => ?_)
    refine congrArg (handleWs >>= ·) (funext fun _ => ?_)
    refine congrArg (modifyGet (Scanner.scanWhile fun b => !isSpace b) >>= ·) (funext fun bytes => ?_)
    cases sdpTransport bytes with
    | none => rfl
    | some proto => rfl

/-- A byte of a transport that ends with its line. -/
def isTransport (b : UInt8) : Bool := !isSpace b && !isNewline b

/-- With a transport that ends with its line, an `m` line does not depend on what follows it. -/
theorem staysInLine_mediaUpTo : StaysInLine (mediaUpTo isTransport) := by
  apply Confined.bind staysInLine_readToken
  intro name
  split
  · apply Confined.bind staysInLine_handleWs
    intro _
    apply Confined.bind staysInLine_scanU16
    intro port
    apply Confined.bind staysInLine_handleWs
    intro _
    apply Confined.bind (confined_scanWhile (excludes_isNewline (by decide)))
    intro bytes
    split
    · exact (staysInLine_parseElements staysInLine_readToken).bind fun _ => Confined.pure _
    · exact staysInLine_fail _
  · exact staysInLine_fail _

/-- A scan depends on nothing but what remains. -/
theorem placeless_scanWhile (predicate : UInt8 → Bool) :
    Placeless (modifyGet (Scanner.scanWhile predicate) : Parse Bytes) := by
  intro s t hst text left h
  rw [gives_scanWhile] at h ⊢
  rwa [show t.remaining = s.remaining from hst.symm]

/-- The parser of an `m` line depends on nothing but what remains. -/
theorem placeless_mediaUpTo (predicate : UInt8 → Bool) : Placeless (mediaUpTo predicate) := by
  apply Placeless.bind staysInLine_readToken.placeless
  intro name
  split
  · apply Placeless.bind staysInLine_handleWs.placeless
    intro _
    apply Placeless.bind staysInLine_scanU16.placeless
    intro port
    apply Placeless.bind staysInLine_handleWs.placeless
    intro _
    apply Placeless.bind (placeless_scanWhile predicate)
    intro bytes
    split
    · have hformats : StaysInLine (parseElements readToken) :=
        staysInLine_parseElements staysInLine_readToken
      exact Confined.placeless (hformats.bind fun _ => Confined.pure _)
    · exact (staysInLine_fail _).placeless
  · exact (staysInLine_fail _).placeless

/-- The names of the transports have no line end. -/
theorem isTransport_of_mem {bytes : Bytes} {proto : SdpTransport}
    (h : sdpTransport bytes = some proto) : ∀ b ∈ bytes, isTransport b := by
  unfold sdpTransport at h
  split_ifs at h with h₁ h₂ h₃ h₄ h₅
  · rcases h₁ with rfl | rfl
    · decide
    · decide
  · rw [h₂]
    decide
  · rw [h₃]
    decide
  · rw [h₄]
    decide
  · rw [h₅]
    decide

/-- If the transport has no line end in it, then it is the same with both conditions for its end. -/
theorem takeWhile_isTransport {bs : Bytes}
    (h : ∀ b ∈ bs.takeWhile fun b => !isSpace b, isTransport b) :
    bs.takeWhile isTransport = bs.takeWhile fun b => !isSpace b := by
  have hboth : bs.takeWhile isTransport =
      (bs.takeWhile fun b => !isSpace b).takeWhile isTransport := by
    rw [List.takeWhile_takeWhile]
    refine congrArg (fun p => bs.takeWhile p) (funext fun b => ?_)
    cases hb : isSpace b with
    | true => simp [isTransport, hb]
    | false => simp [isTransport, hb]
  rw [hboth, List.takeWhile_eq_self_iff]
  exact h

/-- A transport that is read is read in its line. -/
theorem gives_mediaUpTo {c : Scanner} {m : MediaDescription} {left : Bytes}
    (h : Gives parseMediaDescription c m left) : Gives (mediaUpTo isTransport) c m left := by
  rw [parseMediaDescription_eq] at h
  refine h.bind_mono fun name c₁ _ h => ?_
  split at h
  · refine h.bind_mono fun _ c₂ _ h => h.bind_mono fun port c₃ _ h => h.bind_mono fun _ c₄ _ h => ?_
    obtain ⟨bytes, c₅, hscan, h⟩ := gives_bind.mp h
    refine gives_bind.mpr ⟨bytes, c₅, ?_, h⟩
    obtain ⟨rfl, rfl⟩ := scanWhile_eq_ok_iff.mp hscan
    split at h
    · rename_i proto hproto
      have htake : c₄.remaining.takeWhile isTransport =
          c₄.remaining.takeWhile fun b => !isSpace b :=
        takeWhile_isTransport (isTransport_of_mem hproto)
      rw [scanWhile_eq_ok_iff, htake]
      exact ⟨rfl, rfl⟩
    · obtain ⟨c₆, h, -⟩ := h
      cases h
  · obtain ⟨c₂, h, -⟩ := h
    cases h

/-- Without a line end the table makes no difference. -/
theorem gives_parseMediaDescription {c : Scanner} {m : MediaDescription} {left : Bytes}
    (hc : ∀ b ∈ c.remaining, isNewline b = false) (h : Gives (mediaUpTo isTransport) c m left) :
    Gives parseMediaDescription c m left := by
  rw [parseMediaDescription_eq]
  refine h.bind_mono fun name c₁ h₁ h => ?_
  split at h
  · refine h.bind_mono fun _ c₂ h₂ h => h.bind_mono fun port c₃ h₃ h =>
      h.bind_mono fun _ c₄ h₄ h => ?_
    -- what remains here is a part of the line
    have hsuffix : Cursor.remaining c₄ <:+ Cursor.remaining c :=
      (staysInLine_handleWs.suffix h₄).trans <| (staysInLine_scanU16.suffix h₃).trans <|
        (staysInLine_handleWs.suffix h₂).trans (staysInLine_readToken.suffix h₁)
    obtain ⟨bytes, c₅, hscan, h⟩ := gives_bind.mp h
    refine gives_bind.mpr ⟨bytes, c₅, ?_, h⟩
    have htake : c₄.remaining.takeWhile isTransport = c₄.remaining.takeWhile fun b => !isSpace b := by
      apply takeWhile_isTransport
      intro b hb
      have hnewline := hc b (hsuffix.subset ((List.takeWhile_sublist _).subset hb))
      have hspace : (!isSpace b) = true := of_mem_takeWhile (p := fun b => !isSpace b) hb
      rw [isTransport, hspace, hnewline]
      rfl
    rw [scanWhile_eq_ok_iff, ← htake]
    exact scanWhile_eq_ok_iff.mp hscan
  · obtain ⟨c₂, h, -⟩ := h
    cases h

/-- There are elements if there is a blank in front of them. -/
theorem parseElements_eq_nil_iff {elem : Parse α} {c : Scanner} {elems : List α} {left : Bytes}
    (h : Gives (parseElements elem) c elems left) : elems = [] ↔ Stops isSpace c.remaining := by
  rw [parseElements_eq] at h
  obtain ⟨c', hrun, -⟩ := h
  have hresult : elems = [] ↔ ([] : List α) = [] ∧ Stops isSpace c.remaining := by
    apply loop_ok (P := fun done c elems _ => elems = [] ↔ done = [] ∧ Stops isSpace c.remaining)
      _ _ hrun
    · intro done c elems c' hbody
      rcases elementsBody_eq_ok hbody with ⟨hstops, hnext⟩ | ⟨hstops, e, hnext | hnext⟩
      · rw [Sum.inr.inj hnext]
        exact (and_iff_left hstops).symm
      · rw [Sum.inr.inj hnext]
        exact iff_of_false (by simp) fun h => hstops h.2
      · cases hnext
    · intro done c done' c₁ elems c' hbody ih
      rcases elementsBody_eq_ok hbody with ⟨-, hnext⟩ | ⟨hstops, e, hnext | hnext⟩
      · cases hnext
      · cases hnext
      · rw [ih, Sum.inl.inj hnext]
        exact iff_of_false (by simp) fun h => hstops h.2
  rw [hresult]
  exact and_iff_right rfl

/-- Elements are read behind a blank. -/
theorem length_parseElements {elem : Parse α} (h : StaysInLine elem) {c : Scanner} {elems : List α}
    {left : Bytes} (hgives : Gives (parseElements elem) c elems left) (hne : elems ≠ []) :
    left.length < c.remaining.length := by
  rw [parseElements_eq] at hgives
  obtain ⟨c', hrun, rfl⟩ := hgives
  have hresult : c'.remaining.length ≤ c.remaining.length ∧
      (elems = [] ∨ c'.remaining.length < c.remaining.length) := by
    apply loop_ok (P := fun done c elems c' => c'.remaining.length ≤ c.remaining.length ∧
      (elems = done ∨ c'.remaining.length < c.remaining.length)) _ _ hrun
    · intro done c elems c' hbody
      refine ⟨(staysInLine_elementsBody h done).length_le hbody, ?_⟩
      rcases elementsBody_eq_ok hbody with ⟨-, hnext⟩ | ⟨hstops, -⟩
      · exact .inl (Sum.inr.inj hnext)
      · exact .inr (length_elementsBody h hbody hstops)
    · intro done c done' c₁ elems c' hbody ih
      have hlt := ih.1.trans_lt (consumes_elementsBody h hbody)
      exact ⟨hlt.le, .inr hlt⟩
  exact hresult.2.resolve_left hne

/-- Only at the end of the text a transport has no formats. -/
theorem mediaFormats_ne_nil {c : Scanner} {m : MediaDescription} {left : Bytes}
    (h : Gives parseMediaDescription c m left) (hleft : left ≠ []) : m.mediaFormats ≠ [] := by
  rw [parseMediaDescription_eq] at h
  obtain ⟨name, c₁, -, h⟩ := gives_bind.mp h
  split at h
  · obtain ⟨_, c₂, -, h⟩ := gives_bind.mp h
    obtain ⟨port, c₃, -, h⟩ := gives_bind.mp h
    obtain ⟨_, c₄, -, h⟩ := gives_bind.mp h
    obtain ⟨bytes, c₅, hscan, h⟩ := gives_bind.mp h
    obtain ⟨-, hdrop⟩ := gives_scanWhile.mp ⟨c₅, hscan, rfl⟩
    split at h
    · obtain ⟨formats, c₆, hformats, h⟩ := gives_bind.mp h
      obtain ⟨rfl, rfl⟩ := gives_pure.mp h
      rw [ne_eq, parseElements_eq_nil_iff ⟨c₆, hformats, rfl⟩]
      intro hstops
      -- the transport ends at a blank or at the end of the text
      have hblank : Stops (fun b => !isSpace b) c₅.remaining := by
        rw [show c₅.remaining = _ from hdrop]
        exact stops_dropWhile _ _
      cases hrem : c₅.remaining with
      | nil =>
        have hsuffix := (staysInLine_parseElements staysInLine_readToken).suffix hformats
        rw [show Cursor.remaining c₅ = _ from hrem, List.suffix_nil] at hsuffix
        exact hleft hsuffix
      | cons b bs =>
        rw [hrem, stops_cons] at hstops hblank
        simp [hstops] at hblank
    · obtain ⟨c₆, h, -⟩ := h
      cases h
  · obtain ⟨c₂, h, -⟩ := h
    cases h

/-- With formats the table makes no difference either. -/
theorem gives_parseMediaDescription_of_formats {c : Scanner} {m : MediaDescription} {left : Bytes}
    (h : Gives (mediaUpTo isTransport) c m left) (hm : m.mediaFormats ≠ []) :
    Gives parseMediaDescription c m left := by
  rw [parseMediaDescription_eq]
  refine h.bind_mono fun name c₁ h₁ h => ?_
  split at h
  · refine h.bind_mono fun _ c₂ h₂ h => h.bind_mono fun port c₃ h₃ h =>
      h.bind_mono fun _ c₄ h₄ h => ?_
    obtain ⟨bytes, c₅, hscan, h⟩ := gives_bind.mp h
    obtain ⟨htake, hdrop⟩ := gives_scanWhile.mp ⟨c₅, hscan, rfl⟩
    refine gives_bind.mpr ⟨bytes, c₅, ?_, h⟩
    split at h
    · obtain ⟨formats, c₆, hformats, h⟩ := gives_bind.mp h
      obtain ⟨rfl, -⟩ := gives_pure.mp h
      -- a blank stands in front of the formats
      have hblank : ¬ Stops isSpace c₅.remaining := by
        rwa [← parseElements_eq_nil_iff ⟨c₆, hformats, rfl⟩]
      have hspace : Stops (fun b => !isSpace b) c₅.remaining := by
        intro b hb
        by_contra hne
        refine hblank fun d hd => ?_
        rw [Option.mem_unique hd hb]
        simpa using hne
      have htake' : c₄.remaining.takeWhile (fun b => !isSpace b) =
          c₄.remaining.takeWhile isTransport := by
        have hsplit : c₄.remaining = c₄.remaining.takeWhile isTransport ++ c₅.remaining := by
          rw [show c₅.remaining = _ from hdrop, List.takeWhile_append_dropWhile]
        refine (congrArg _ hsplit).trans (takeWhile_append_stops (fun b hb => ?_) hspace)
        have htransport := of_mem_takeWhile hb
        rw [isTransport, Bool.and_eq_true] at htransport
        exact htransport.1
      rw [scanWhile_eq_ok_iff, htake']
      exact scanWhile_eq_ok_iff.mp hscan
    · obtain ⟨c₆, h, -⟩ := h
      cases h
  · obtain ⟨c₂, h, -⟩ := h
    cases h

/-! ### Any line -/

/-- Every line but that of a media description stays in its line. -/
theorem staysInLine_parseValue {field : SdpField} (h : field ≠ SdpField.mediaDescription) :
    StaysInLine (parseValue field) := by
  unfold parseValue
  apply Confined.ite staysInLine_parseAttribute.map
  apply Confined.ite (staysInLine_parseVersion.bind fun _ => Confined.pure _)
  apply Confined.ite staysInLine_parseOrigin.map
  apply Confined.ite staysInLine_readLine.map
  apply Confined.ite staysInLine_parseConnectionInfo.map
  apply Confined.ite staysInLine_readLine.map
  apply Confined.ite staysInLine_readLine.map
  apply Confined.ite staysInLine_readLine.map
  apply Confined.ite staysInLine_readLine.map
  apply Confined.ite staysInLine_parseBandwidth.map
  apply Confined.ite staysInLine_parseTime.map
  apply Confined.ite staysInLine_parseRepeatTimes.map
  apply Confined.ite (Confined.pure _)
  rw [if_neg h]
  exact Confined.pure _

/-- What stands behind `m=` is a media description. -/
theorem parseValue_mediaDescription :
    parseValue SdpField.mediaDescription = .media <$> parseMediaDescription := rfl

/-- What stands behind the equals sign, with a transport that ends with its line. -/
def valueInLine (field : SdpField) : Parse SdpLine :=
  if field = SdpField.mediaDescription then .media <$> mediaUpTo isTransport else parseValue field

/-- With a transport that ends with its line, every line stays in its line. -/
theorem staysInLine_valueInLine (field : SdpField) : StaysInLine (valueInLine field) := by
  unfold valueInLine
  by_cases hfield : field = SdpField.mediaDescription
  · rw [if_pos hfield]
    exact staysInLine_mediaUpTo.map
  · rw [if_neg hfield]
    exact staysInLine_parseValue hfield

/-- What a line says depends on nothing but what remains. -/
theorem placeless_parseValue (field : SdpField) : Placeless (parseValue field) := by
  by_cases hfield : field = SdpField.mediaDescription
  · rw [hfield, parseValue_mediaDescription, parseMediaDescription_eq, map_eq_pure_bind]
    refine (placeless_mediaUpTo _).bind fun m => ?_
    have hpure : StaysInLine (pure (.media m) : Parse SdpLine) := Confined.pure _
    exact hpure.placeless
  · exact (staysInLine_parseValue hfield).placeless

variable {field : SdpField} {c : Scanner} {line : SdpLine} {left : Bytes}

/-- A value that is read in its line is read from the line alone. -/
theorem gives_valueInLine (h : Gives (parseValue field) c line left) :
    Gives (valueInLine field) c line left := by
  unfold valueInLine
  by_cases hfield : field = SdpField.mediaDescription
  · rw [if_pos hfield]
    rw [hfield, parseValue_mediaDescription, gives_map] at h
    obtain ⟨m, hm, h⟩ := h
    exact gives_map.mpr ⟨m, hm, gives_mediaUpTo h⟩
  · rwa [if_neg hfield]

/-- What a line leaves is a rest of what there was. -/
theorem suffix_of_gives (h : Gives (parseValue field) c line left) : left <:+ c.remaining := by
  obtain ⟨c', hrun, rfl⟩ := gives_valueInLine h
  exact (staysInLine_valueInLine field).suffix hrun

/-- On a text that is one line, the parser does what the one that stays in its line does. -/
theorem gives_parseValue (hc : ∀ b ∈ c.remaining, isNewline b = false)
    (h : Gives (valueInLine field) c line left) : Gives (parseValue field) c line left := by
  unfold valueInLine at h
  by_cases hfield : field = SdpField.mediaDescription
  · rw [if_pos hfield, gives_map] at h
    obtain ⟨m, hm, h⟩ := h
    rw [hfield, parseValue_mediaDescription, gives_map]
    exact ⟨m, hm, gives_parseMediaDescription hc h⟩
  · rwa [if_neg hfield] at h

/-- **What a line says** is of the kind of its letter. -/
theorem letter_of_gives (h : Gives (parseValue field) c line left) :
    line.letter = if uninterpreted field then none else some field := by
  by_cases hfield : uninterpreted field
  · rw [parseValue_uninterpreted hfield, gives_pure] at h
    rw [if_pos hfield, h.1]
    rfl
  rw [if_neg hfield]
  have hkind : ∀ {α : Type} {toLine : α → SdpLine} {r : Parse α} {letter : SdpField},
      (∀ a, (toLine a).letter = some letter) → Gives (toLine <$> r) c line left →
        line.letter = some letter := by
    intro α toLine r letter hletter h
    obtain ⟨a, rfl, -⟩ := gives_map.mp h
    exact hletter a
  have hmem : field ∈ letters := by simpa [uninterpreted] using hfield
  simp only [letters, List.mem_cons, List.not_mem_nil, or_false] at hmem
  rcases hmem with rfl | rfl | rfl | rfl | rfl | rfl | rfl | rfl | rfl | rfl | rfl | rfl | rfl
  case inr.inl =>
    obtain ⟨_, c₁, -, h⟩ := gives_bind.mp
      (show Gives (parseVersion >>= fun _ => pure SdpLine.version) c line left from h)
    rw [(gives_pure.mp h).1]
    rfl
  all_goals exact hkind (fun _ => rfl) h

end SdpParser

end Rssip.Media
