import Rssip.Media.SdpParser

namespace Rssip.Media

open Lib

/-!
# Descriptions are read back as they are printed

What the parser makes of the lines of a printed description, one after the other.

* `SessionDescription.WellFormed` — the descriptions with texts that fit their lines;
* `reads_parseOrigin`, … — one lemma for what stands in each kind of line;
* `Builds text sdp sdp'` — the lines of `text` turn `sdp` into `sdp'`, and the rules to put lines
  together;
* `parse_encode_iff` — a description is read back when it has no bandwidth line.  The parser
  does not read the colon in such a line.
-/

/-! ### Well-formed descriptions -/

/-- No line ends in the text. -/
def OneLine (text : String) : Prop := ∀ b ∈ asBytes text, isNewline b = false

/-- The bytes of a text may stand in a token; the text may be empty. -/
def Token (text : String) : Prop := ∀ b ∈ asBytes text, SdpParser.isToken b

instance (text : String) : Decidable (OneLine text) :=
  inferInstanceAs (Decidable (∀ b ∈ asBytes text, _))

instance (text : String) : Decidable (Token text) :=
  inferInstanceAs (Decidable (∀ b ∈ asBytes text, _))

/-- The network type can stand in an origin. -/
def NetType.InOrigin : NetType → Prop
  | .internet => True
  | .other name =>
    name ≠ "" ∧ name ≠ "IN" ∧ ∀ b ∈ asBytes name, isSpace b = false ∧ isNewline b = false

/-- A bandwidth type that is not known has a name that is read back as such. -/
def Bwtype.WellFormed : Bwtype → Prop
  | .other name => OneLine name ∧ 58 ∉ asBytes name ∧ name ∉ ["CT", "AS", "RR", "RS", "TIAS"]
  | _ => True

/-- The fields of the `o` line that are texts are read back. -/
structure Origin.WellFormed (o : Origin) : Prop where
  user : ∀ b ∈ asBytes o.user, SdpParser.isAsciiWhitespace b = false
  nettype : o.nettype.InOrigin

/-- A `c` line is for the internet; no other network type is read. -/
def ConnectionInformation.WellFormed (c : ConnectionInformation) : Prop := c.nettype = .internet

/-- The name of an attribute is a token, and its value stays on the line. -/
structure Attribute.WellFormed (a : Attribute) : Prop where
  name : Token a.name
  value : ∀ v ∈ a.value, OneLine v

/-- There is no negative number, since the scanner reads no signs. -/
structure RepeatTimes.WellFormed (r : RepeatTimes) : Prop where
  repeatInterval : 0 ≤ r.repeatInterval
  activeDuration : 0 ≤ r.activeDuration
  offsets : ∀ offset ∈ r.offsets, 0 ≤ offset

/-- A media section that is read back: it has none of the fields whose lines are read as something
    else. -/
structure MediaDescription.WellFormed (m : MediaDescription) : Prop where
  mediaType : m.mediaType ≠ .application
  numberOfPorts : m.numberOfPorts = none
  mediaFormats : m.mediaFormats ≠ []
  formats : ∀ fmt ∈ m.mediaFormats, Token fmt
  title : m.title = none
  connectionInformation : ∀ c ∈ m.connectionInformation, c.WellFormed
  bandwidthInformation : m.bandwidthInformation = []
  attributes : ∀ a ∈ m.attributes, a.WellFormed

/-- A description all whose lines are read back into the same fields. -/
structure SessionDescription.WellFormed (s : SessionDescription) : Prop where
  origin : s.origin.WellFormed
  sessionName : OneLine s.sessionName
  sessionInformation : ∀ v ∈ s.sessionInformation, OneLine v
  uri : ∀ v ∈ s.uri, OneLine v
  emailAddress : ∀ v ∈ s.emailAddress, OneLine v
  phoneNumber : ∀ v ∈ s.phoneNumber, OneLine v
  connectionInformation : ∀ c ∈ s.connectionInformation, c.WellFormed
  bandwidthInformation : ∀ b ∈ s.bandwidthInformation, b.bwtype.WellFormed
  time : ∀ t ∈ s.time, ∀ r ∈ t.repeatTimes, r.WellFormed
  attributes : ∀ a ∈ s.attributes, a.WellFormed
  media : ∀ m ∈ s.media, m.WellFormed

namespace SdpParser

variable {α : Type} {text rest : Bytes} {a : α}

/-! ### Scans -/

/-- What the scanner reads, the parser reads as well: only the kind of error is translated. -/
theorem reads_ofScan {scan : Scan α} (h : Reads scan text rest a) :
    Reads (ofScan scan) text rest a := by
  intro s hs
  rw [ofScan, h s hs]

/-- Where the scanner fails, the parser fails. -/
theorem fails_ofScan {scan : Scan α} (h : Fails scan text) : Fails (ofScan scan) text := by
  intro s hs
  obtain ⟨e, s', he⟩ := h s hs
  exact ⟨.error (.parseSdpError (.scannerError e)), s', by rw [ofScan, he]⟩

/-- Blanks are skipped up to the first byte that is none. -/
theorem reads_handleWs {ws : Bytes} (hws : ∀ b ∈ ws, isSpace b) (hrest : Stops isSpace rest) :
    Reads handleWs ws rest () :=
  Reads.bind_nil (reads_scanWhile hws hrest) (Reads.pure _ _)

/-- Line ends are skipped up to the first byte that is none. -/
theorem reads_handleNewLine {ends : Bytes} (hends : ∀ b ∈ ends, isNewline b)
    (hrest : Stops isNewline rest) : Reads handleNewLine ends rest () :=
  Reads.bind_nil (reads_scanWhile hends hrest) (Reads.pure _ _)

/-- A text without a line end is read as the rest of its line. -/
theorem reads_readLine {s : String} (hs : OneLine s) :
    Reads readLine (asBytes s) (13 :: rest) s :=
  reads_ofScan (Scan.reads_scanLine hs)

/-- A token is read up to the first byte that cannot stand in one. -/
theorem reads_readToken {s : String} (hs : Token s) (hrest : Stops isToken rest) :
    Reads readToken (asBytes s) rest s :=
  reads_scanWhileAsStrUnchecked hs hrest

/-- An address is read back from its text, without reading on in the line. -/
theorem reads_ipAddr (context : String) (ip : IpAddr) :
    Reads (ipAddr context ip.toText) [] rest ip := by
  rw [ipAddr, IpAddr.parse_toText]
  exact Reads.pure _ _

/-- The letter of a line is read together with the equals sign. -/
theorem reads_readField {field : SdpField} : Reads readField [field, 61] rest field := by
  apply Reads.bind (reads_ofScan (Scan.reads_nextByte (b := field)))
  apply Reads.bind_nil (reads_ofScan Scan.reads_mustRead)
  exact Reads.pure _ _

/-- To look at the next byte reads nothing. -/
theorem reads_peek {b : UInt8} : Reads peek [] (b :: rest) (some b) := by
  apply Reads.get_bind
  intro s hs
  rw [Scanner.peek_eq hs]
  exact Reads.pure _ _

/-- A scanner in front of a byte is not at the end. -/
theorem isEof_eq_false {s : Scanner} {b : UInt8} (hs : s.remaining = b :: rest) :
    s.isEof = false := by
  have hlength : s.remaining.length = s.buffer.length - s.index := List.length_drop
  rw [hs, List.length_cons] at hlength
  have hlt : s.index < s.len := by
    show s.index < s.buffer.length
    omega
  exact beq_eq_false_iff_ne.mpr (by omega)

/-! ### Bytes -/

/-- The blank between two elements of a line, as a byte. -/
theorem asBytes_blank : asBytes " " = [32] := by decide

/-- The colon between the name of an attribute and its value, as a byte. -/
theorem asBytes_colon : asBytes ":" = [58] := by decide

/-- No blank and no line end in a printed address. -/
theorem not_blank_of_mem_toText {ip : IpAddr} {b : UInt8} (hb : b ∈ asBytes ip.toText) :
    (asBytes " \t\r\n").contains b = false := by
  by_contra hblank
  have hblanks : asBytes " \t\r\n" = [32, 9, 13, 10] := by decide
  rw [Bool.not_eq_false, hblanks, List.contains_iff_mem] at hblank
  have hnone : ∀ c ∈ ([32, 9, 13, 10] : Bytes), ¬ (isDigitOf 16 c ∨ c = 46 ∨ c = 58) := by decide
  exact hnone b hblank (IpAddr.mem_toText hb)

/-- No line ends in a printed address. -/
theorem oneLine_ipAddr (ip : IpAddr) : OneLine ip.toText := by
  intro b hb
  by_contra hend
  have hblank := not_blank_of_mem_toText hb
  simp only [isNewline, Bool.not_eq_false, Bool.or_eq_true, beq_iff_eq] at hend
  rcases hend with rfl | rfl
  · exact absurd hblank (by decide)
  · exact absurd hblank (by decide)

/-! ### What the lines say -/

/-- The version that is printed, `0`, is the one that is read. -/
theorem reads_parseVersion : Reads parseVersion (asBytes "0") rest () :=
  Reads.tryCatch (reads_ofScan Scan.reads_mustRead)

/-- A network type that can stand in an origin is found again by its name. -/
theorem netType_toText {nettype : NetType} (h : nettype.InOrigin) :
    netType nettype.toText = nettype := by
  cases nettype with
  | internet => rfl
  | other name => exact if_neg h.2.1

/-- A text without blanks that is not empty, so that it can stand between two blanks. -/
def Solid (text : String) : Prop := asBytes text ≠ [] ∧ ∀ b ∈ asBytes text, isSpace b = false

instance (text : String) : Decidable (Solid text) := inferInstanceAs (Decidable (_ ∧ _))

/-- In front of a solid text there is no blank to skip. -/
theorem Solid.stops {text : String} (h : Solid text) (rest : Bytes) :
    Stops isSpace (asBytes text ++ rest) :=
  stops_append (fun _ b hb => h.2 b (List.mem_of_mem_head? hb)) fun hempty => absurd hempty h.1

/-- A printed number has at least one digit and no blank. -/
theorem solid_decimal (n : Nat) : Solid (decimal n) := by
  refine ⟨asBytes_decimal_ne_nil n, fun b hb => ?_⟩
  by_contra hspace
  have hdigit := isAsciiDigit_of_mem_decimal hb
  simp only [isSpace, Bool.not_eq_false, Bool.or_eq_true, beq_iff_eq] at hspace
  rcases hspace with rfl | rfl
  · exact absurd hdigit (by decide)
  · exact absurd hdigit (by decide)

/-- The network type of an origin is printed as one word. -/
theorem solid_netType {nettype : NetType} (h : nettype.InOrigin) : Solid nettype.toText := by
  cases nettype with
  | internet => decide
  | other name =>
    refine ⟨fun hempty => h.1 ?_, fun b hb => (h.2.2 b hb).1⟩
    exact asBytes_injective (hempty.trans asBytes_empty.symm)

/-- The address type is printed as one word. -/
theorem solid_addrType (addrtype : AddrType) : Solid addrtype.toText := by
  cases addrtype <;> decide

/-- An address is printed as one word. -/
theorem solid_ipAddr (ip : IpAddr) : Solid ip.toText := by
  refine ⟨fun hempty => ?_, fun b hb => ?_⟩
  · have hparse := IpAddr.parse_toText ip
    rw [asBytes_injective (hempty.trans asBytes_empty.symm), show IpAddr.parse "" = none by decide]
      at hparse
    cases hparse
  · by_contra hspace
    have hblank := not_blank_of_mem_toText hb
    simp only [isSpace, Bool.not_eq_false, Bool.or_eq_true, beq_iff_eq] at hspace
    rcases hspace with rfl | rfl
    · exact absurd hblank (by decide)
    · exact absurd hblank (by decide)

/-- A text without blanks is read up to the blank behind it. -/
theorem reads_untilBlank {text : String} (h : 32 ∉ asBytes text) :
    Reads (ofScan (Scan.scanUntilAsStr 32)) (asBytes text) (32 :: rest) text := by
  apply reads_ofScan
  apply Scan.reads_scanWhileAsStr
  · intro b hb
    rw [bne_iff_ne]
    rintro rfl
    exact h hb
  · exact stops_cons.mpr rfl

/-- A solid text has no blank in it, so a scan for the next blank takes the whole of it. -/
theorem Solid.not_mem {text : String} (h : Solid text) : 32 ∉ asBytes text :=
  fun hb => absurd (h.2 32 hb) (by decide)

/-- One blank is read where no other one follows. -/
theorem reads_blank (hrest : Stops isSpace rest) : Reads handleWs [32] rest () :=
  reads_handleWs (by decide) hrest

/-- An origin is read back if its user and its network type end where they should. -/
theorem reads_parseOrigin_of {o : Origin} (huser : ∀ b ∈ asBytes o.user, isAsciiWhitespace b = false)
    (hname : netType o.nettype.toText = o.nettype) (hblank : 32 ∉ asBytes o.nettype.toText)
    (hstops : ∀ rest, Stops isSpace (asBytes o.nettype.toText ++ rest)) :
    Reads parseOrigin (asBytes o.toText) (13 :: rest) o := by
  obtain ⟨user, sessionId, sessionVersion, nettype, addrtype, unicastAddress⟩ := o
  have htext : asBytes (Origin.toText ⟨user, sessionId, sessionVersion, nettype, addrtype,
      unicastAddress⟩) =
      asBytes user ++ ([32] ++ (asBytes (decimal sessionId.toNat) ++ ([32] ++
        (asBytes (decimal sessionVersion.toNat) ++ ([32] ++ (asBytes nettype.toText ++ ([32] ++
          (asBytes addrtype.toText ++ ([32] ++ asBytes unicastAddress.toText))))))))) := by
    simp [Origin.toText, asBytes_blank]
  rw [htext]
  have haddress := solid_ipAddr unicastAddress
  -- the address, for each of its types
  have hend : ∀ addrtype : AddrType, Reads (do
      handleWs
      let unicastAddress ←
        ipAddr "" (← ofScan (Scan.scanUntilAnyAsStr (asBytes " \t\r\n")))
      handleWs
      return ⟨user, sessionId, sessionVersion, nettype, addrtype, unicastAddress⟩)
      ([32] ++ asBytes unicastAddress.toText) (13 :: rest)
      (⟨user, sessionId, sessionVersion, nettype, addrtype, unicastAddress⟩ : Origin) := by
    intro addrtype
    apply Reads.bind (reads_blank (haddress.stops _))
    apply Reads.bind_nil (reads_ofScan (Scan.reads_scanWhileAsStr
      (fun b hb => by rw [not_blank_of_mem_toText hb]; rfl) (stops_cons.mpr (by decide))))
    apply Reads.bind_nil (reads_ipAddr _ _)
    apply Reads.bind_nil (reads_handleWs (List.forall_mem_nil _) (stops_cons.mpr rfl))
    exact Reads.pure _ _
  apply Reads.bind
    (reads_ofScan (Scan.reads_scanWhileAsStr (by simpa using huser) (stops_cons.mpr rfl)))
  apply Reads.bind (reads_blank (by simpa using (solid_decimal _).stops _))
  apply Reads.bind (reads_ofScan (Scan.reads_scanU64 (stops_cons.mpr rfl)))
  apply Reads.bind (reads_blank (by simpa using (solid_decimal _).stops _))
  apply Reads.bind (reads_ofScan (Scan.reads_scanU64 (stops_cons.mpr rfl)))
  apply Reads.bind (reads_blank (by simpa using hstops _))
  apply Reads.bind (reads_untilBlank hblank).map
  apply Reads.bind (reads_blank (by simpa using (solid_addrType _).stops _))
  apply Reads.bind (reads_untilBlank (solid_addrType addrtype).not_mem)
  rw [hname]
  cases addrtype with
  | ip4 => exact Reads.nil_bind (Reads.pure _ _) (hend .ip4)
  | ip6 => exact Reads.nil_bind (Reads.pure _ _) (hend .ip6)

/-- A well-formed origin is read back from the value of its line, field by field. -/
theorem reads_parseOrigin {o : Origin} (hwf : o.WellFormed) :
    Reads parseOrigin (asBytes o.toText) (13 :: rest) o :=
  have hnettype := solid_netType hwf.nettype
  reads_parseOrigin_of hwf.user (netType_toText hwf.nettype) hnettype.not_mem hnettype.stops

/-- To look at as many bytes as a text has, in front of that text, shows the text. -/
theorem peekN_eq {s : Scanner} (hs : s.remaining = text ++ rest) :
    s.peekN text.length = some text := by
  rw [Scanner.peekN, hs, if_pos (by simp), List.take_left]

/-- In front of `IN` the parser finds the internet, and goes over the two letters. -/
theorem reads_connectionNetType : Reads connectionNetType (asBytes "IN") rest .internet := by
  apply Reads.get_bind
  intro s hs
  have hpre : s.matchesPrefix (asBytes "IN") = true := by
    rw [Scanner.matchesPrefix, show s.remaining = asBytes "IN" ++ rest from hs]
    exact List.isPrefixOf_iff_prefix.mpr (List.prefix_append _ _)
  rw [if_pos hpre]
  apply Reads.bind_nil (reads_advanceN (asBytes "IN"))
  exact Reads.pure _ _

/-- A connection is read back if its network type is. -/
theorem reads_parseConnectionInfo_of {c : ConnectionInformation}
    (hnettype : ∀ rest, Reads connectionNetType (asBytes c.nettype.toText) (32 :: rest) c.nettype) :
    Reads parseConnectionInfo (asBytes c.toText) (13 :: rest) c := by
  obtain ⟨nettype, addrtype, conectionAddress⟩ := c
  have htext : asBytes (ConnectionInformation.toText ⟨nettype, addrtype, conectionAddress⟩) =
      asBytes nettype.toText ++ ([32] ++ (asBytes addrtype.toText ++ ([32] ++
        asBytes conectionAddress.toText))) := by
    simp only [ConnectionInformation.toText, asBytes_append, asBytes_blank, List.append_assoc]
  rw [htext]
  -- the parser looks three bytes ahead, which is as long as both kinds of address are
  have hlength : (asBytes addrtype.toText).length = 3 := by cases addrtype <;> decide
  apply Reads.bind (by simpa using hnettype _)
  apply Reads.bind (reads_blank (by simpa using (solid_addrType addrtype).stops _))
  apply Reads.get_bind
  intro s hs
  rw [List.append_assoc] at hs
  have hpeek : addrType (s.peekN 3) = some addrtype := by
    rw [← hlength, peekN_eq hs]
    cases addrtype <;> decide
  rw [hpeek]
  apply Reads.nil_bind (Reads.pure _ _)
  apply Reads.bind (hlength ▸ reads_advanceN _)
  apply Reads.bind (reads_blank ((solid_ipAddr _).stops _))
  apply Reads.bind_nil (reads_readLine (oneLine_ipAddr _))
  apply Reads.bind_nil (reads_ipAddr _ _)
  apply Reads.bind_nil (reads_handleWs (List.forall_mem_nil _) (stops_cons.mpr rfl))
  exact Reads.pure _ _

/-- A connection of the internet is read back from the value of its line. -/
theorem reads_parseConnectionInfo {c : ConnectionInformation} (hwf : c.WellFormed) :
    Reads parseConnectionInfo (asBytes c.toText) (13 :: rest) c := by
  have hnettype : c.nettype = .internet := hwf
  apply reads_parseConnectionInfo_of
  rw [hnettype]
  exact fun rest => reads_connectionNetType

/-- Behind an element there is a blank, or the end of the line. -/
theorem stops_elements {predicate : UInt8 → Bool} (toText : α → String) (elems : List α)
    (hblank : predicate 32 = false) (hend : predicate 13 = false) :
    Stops predicate (asBytes (texts (fun e => " " ++ toText e) elems) ++ 13 :: rest) := by
  cases elems with
  | nil => simpa [texts] using hend
  | cons e es => simpa [texts, asBytes_blank] using hblank

/-- The loop over elements, from the elements `done` before. -/
theorem iterates_parseElements {elem : Parse α} {toText : α → String} {elems : List α}
    (helem : ∀ e ∈ elems, ∀ b rest, b = 32 ∨ b = 13 → Reads elem (asBytes (toText e)) (b :: rest) e)
    (done : List α) :
    Iterates (fun elems => do
        if (← modifyGet (Scanner.scanIf isSpace)).isNone then return .inr elems
        let elems := elems ++ [← elem]
        let next ← peek
        if next = some 13 ∨ next = some 10 ∨ next = none then return .inr elems
        return .inl elems) (13 :: rest) done
      (asBytes (texts (fun e => " " ++ toText e) elems)) (done ++ elems) := by
  induction elems generalizing done with
  | nil =>
    rw [List.append_nil]
    apply Iterates.done
    exact Reads.bind_nil (reads_scanIf_none (stops_cons.mpr rfl)) (Reads.pure _ _)
  | cons e es ih =>
    have htext : asBytes (texts (fun e => " " ++ toText e) (e :: es)) =
        ([32] ++ asBytes (toText e)) ++ asBytes (texts (fun e => " " ++ toText e) es) := by
      show asBytes (" " ++ toText e ++ texts _ es) = _
      rw [asBytes_append, asBytes_append, asBytes_blank]
    have hread := helem e (List.mem_cons_self)
    rw [htext]
    cases es with
    | nil =>
      -- the line ends behind the element
      rw [show asBytes (texts (fun e => " " ++ toText e) []) = [] from asBytes_empty,
        List.append_nil]
      apply Iterates.done
      apply Reads.bind (reads_scanIf_some rfl)
      apply Reads.bind_nil (hread 13 rest (.inr rfl))
      apply Reads.bind_nil reads_peek
      exact Reads.pure _ _
    | cons e' es =>
      -- there is a blank behind the element
      have hblank : asBytes (texts (fun e => " " ++ toText e) (e' :: es)) =
          32 :: asBytes (toText e' ++ texts (fun e => " " ++ toText e) es) := by
        show asBytes (" " ++ toText e' ++ texts _ es) = _
        rw [asBytes_append, asBytes_append, asBytes_blank, asBytes_append]
        rfl
      have htl := ih (fun e he => helem e (List.mem_cons_of_mem _ he)) (done ++ [e])
      rw [List.append_assoc] at htl
      refine Iterates.step ?_ (by simp) htl
      apply Reads.bind (reads_scanIf_some rfl)
      rw [hblank]
      apply Reads.bind_nil (hread 32 _ (.inl rfl))
      apply Reads.bind_nil reads_peek
      exact Reads.pure _ _

/-- Elements behind a blank each are read back, in their order, if one of them is. -/
theorem reads_parseElements {elem : Parse α} (toText : α → String) {elems : List α}
    (helem : ∀ e ∈ elems, ∀ b rest, b = 32 ∨ b = 13 →
      Reads elem (asBytes (toText e)) (b :: rest) e) :
    Reads (parseElements elem) (asBytes (texts (fun e => " " ++ toText e) elems)) (13 :: rest)
      elems :=
  Reads.loop (iterates_parseElements helem [])

/-- A number that is not negative is printed as its digits, without a sign. -/
theorem signed_eq {n : Int64} (hn : 0 ≤ n) : signed n = decimal n.toNatClampNeg :=
  if_neg (Int64.not_lt.mpr hn)

/-- Such a number is read back by the scanner for signed numbers, which reads no sign. -/
theorem reads_signed {n : Int64} (hn : 0 ≤ n) (hrest : Stops isAsciiDigit rest) :
    Reads (ofScan Scan.scanI64) (asBytes (signed n)) rest n := by
  rw [signed_eq hn]
  exact reads_ofScan (Scan.reads_scanI64 hn hrest)

/-- The two times of a `t` line are read back, the repeat times come on lines of their own. -/
theorem reads_parseTime (t : TimeActive) :
    Reads parseTime (asBytes t.toText) (13 :: rest) { timeActive := t } := by
  have htext : asBytes t.toText =
      asBytes (decimal t.startTime.toNat) ++ ([32] ++ asBytes (decimal t.stopTime.toNat)) := by
    simp [TimeActive.toText, asBytes_blank]
  rw [htext]
  apply Reads.bind (reads_ofScan (Scan.reads_scanU64 (stops_cons.mpr rfl)))
  apply Reads.bind (reads_ofScan Scan.reads_mustRead)
  apply Reads.bind_nil (reads_ofScan (Scan.reads_scanU64 (stops_cons.mpr rfl)))
  exact Reads.pure _ _

/-- The numbers of an `r` line are read back if none of them is negative. -/
theorem reads_parseRepeatTimes {r : RepeatTimes} (hwf : r.WellFormed) :
    Reads parseRepeatTimes (asBytes r.toText) (13 :: rest) r := by
  have htext : asBytes r.toText = asBytes (signed r.repeatInterval) ++ ([32] ++
      (asBytes (signed r.activeDuration) ++
        asBytes (texts (fun offset => " " ++ signed offset) r.offsets))) := by
    simp [RepeatTimes.toText, asBytes_blank]
  have hsolid : Solid (signed r.activeDuration) := by
    rw [signed_eq hwf.activeDuration]
    exact solid_decimal _
  rw [htext]
  apply Reads.bind (reads_signed hwf.repeatInterval (stops_cons.mpr rfl))
  apply Reads.bind (reads_blank (by simpa using hsolid.stops _))
  apply Reads.bind (reads_signed hwf.activeDuration ?_)
  · apply Reads.bind_nil (reads_parseElements signed fun offset hoffset b rest hb => ?_)
    · exact Reads.pure _ _
    · apply reads_signed (hwf.offsets offset hoffset)
      rcases hb with rfl | rfl
      · exact stops_cons.mpr rfl
      · exact stops_cons.mpr rfl
  · exact stops_elements _ _ rfl rfl

/-- An attribute is read back, with a value behind the colon or without one. -/
theorem reads_parseAttribute {a : Attribute} (hwf : a.WellFormed) :
    Reads parseAttribute (asBytes a.toText) (13 :: rest) a := by
  obtain ⟨name, value⟩ := a
  cases value with
  | none =>
    have htext : asBytes (Attribute.toText ⟨name, none⟩) = asBytes name := by
      simp [Attribute.toText]
    rw [htext]
    apply Reads.bind_nil (reads_readToken hwf.name (stops_cons.mpr (by decide)))
    apply Reads.bind_nil (reads_scanIfEq_none (stops_cons.mpr rfl))
    exact Reads.pure _ _
  | some v =>
    have htext : asBytes (Attribute.toText ⟨name, some v⟩) = asBytes name ++ ([58] ++ asBytes v) := by
      simp [Attribute.toText, asBytes_colon]
    rw [htext]
    apply Reads.bind (reads_readToken hwf.name (stops_cons.mpr (by decide)))
    apply Reads.bind reads_scanIfEq_some
    apply Reads.bind_nil (reads_readLine (hwf.value v rfl))
    exact Reads.pure _ _

/-- A media type is found again by its name, `application` apart, which is printed by another one.
    -/
theorem mediaType_toText {t : MediaType} (h : t ≠ .application) :
    mediaType t.toText = some t := by
  cases t with
  | application => exact absurd rfl h
  | _ => rfl

/-- A transport of media is found again by its name. -/
theorem sdpTransport_toText (proto : SdpTransport) :
    sdpTransport (asBytes proto.toText) = some proto := by
  cases proto <;> decide

/-- The transport of media is printed as one word. -/
theorem solid_sdpTransport (proto : SdpTransport) : Solid proto.toText := by
  cases proto <;> decide

/-- The name of a media type is a token. -/
theorem token_mediaType (t : MediaType) : ∀ b ∈ asBytes t.toText, isToken b := by
  cases t <;> decide

/-- What the line of a media description says; the rest of the section stands in other lines. -/
theorem reads_parseMediaDescription {m : MediaDescription} (hwf : m.WellFormed) :
    Reads parseMediaDescription (asBytes m.head) (13 :: rest)
      { mediaType := m.mediaType
        proto := m.proto
        port := m.port
        mediaFormats := m.mediaFormats } := by
  have htext : asBytes m.head = asBytes m.mediaType.toText ++ ([32] ++
      (asBytes (decimal m.port.toNat) ++ ([32] ++ (asBytes m.proto.toText ++
        asBytes (texts (fun fmt => " " ++ fmt) m.mediaFormats))))) := by
    simp [MediaDescription.head, hwf.numberOfPorts, asBytes_blank]
  have hproto : ∀ b ∈ asBytes m.proto.toText, (!isSpace b) = true := by
    simpa using (solid_sdpTransport m.proto).2
  -- a blank stands behind the transport, for there is a format
  have hblank : Stops (fun b => !isSpace b)
      (asBytes (texts (fun fmt => " " ++ fmt) m.mediaFormats) ++ 13 :: rest) := by
    obtain ⟨format, formats, hformats⟩ := List.exists_cons_of_ne_nil hwf.mediaFormats
    rw [hformats]
    simp [texts, asBytes_blank, isSpace]
  have hformats : Reads (parseElements readToken)
      (asBytes (texts (fun fmt => " " ++ fmt) m.mediaFormats)) (13 :: rest) m.mediaFormats := by
    apply reads_parseElements id
    intro fmt hfmt b rest hb
    apply reads_readToken (hwf.formats fmt hfmt)
    rcases hb with rfl | rfl
    · exact stops_cons.mpr (by decide)
    · exact stops_cons.mpr (by decide)
  rw [htext]
  apply Reads.bind (reads_readToken (token_mediaType _) (stops_cons.mpr (by decide)))
  rw [mediaType_toText hwf.mediaType]
  apply Reads.nil_bind (Reads.pure _ _)
  apply Reads.bind (reads_blank (by simpa using (solid_decimal _).stops _))
  apply Reads.bind (reads_ofScan (Scan.reads_scanU16 (stops_cons.mpr rfl)))
  apply Reads.bind (reads_blank (by simpa using (solid_sdpTransport _).stops _))
  apply Reads.bind (reads_scanWhile hproto hblank)
  rw [sdpTransport_toText]
  apply Reads.nil_bind (Reads.pure _ _)
  apply Reads.bind_nil hformats
  exact Reads.pure _ _

end SdpParser

/-! ### Readable descriptions -/

/-- The origin is read back from its line. -/
def Origin.Readable (o : Origin) : Prop :=
  ∀ rest, Reads SdpParser.parseOrigin (asBytes o.toText) (13 :: rest) o

/-- The connection is read back from its line. -/
def ConnectionInformation.Readable (c : ConnectionInformation) : Prop :=
  ∀ rest, Reads SdpParser.parseConnectionInfo (asBytes c.toText) (13 :: rest) c

/-- The line of the media description is read back, and the lines of its section are. -/
structure MediaDescription.Readable (m : MediaDescription) : Prop where
  line : ∀ rest, Reads SdpParser.parseMediaDescription (asBytes m.head) (13 :: rest)
    { mediaType := m.mediaType, proto := m.proto, port := m.port, mediaFormats := m.mediaFormats }
  numberOfPorts : m.numberOfPorts = none
  title : m.title = none
  connectionInformation : ∀ c ∈ m.connectionInformation, c.Readable
  bandwidthInformation : m.bandwidthInformation = []
  attributes : ∀ a ∈ m.attributes, a.WellFormed

/-- The lines of the description are read back, but for the bandwidths. -/
structure SessionDescription.Readable (s : SessionDescription) : Prop where
  origin : s.origin.Readable
  sessionName : OneLine s.sessionName
  sessionInformation : ∀ v ∈ s.sessionInformation, OneLine v
  uri : ∀ v ∈ s.uri, OneLine v
  emailAddress : ∀ v ∈ s.emailAddress, OneLine v
  phoneNumber : ∀ v ∈ s.phoneNumber, OneLine v
  connectionInformation : ∀ c ∈ s.connectionInformation, c.Readable
  time : ∀ t ∈ s.time, ∀ r ∈ t.repeatTimes, r.WellFormed
  attributes : ∀ a ∈ s.attributes, a.WellFormed
  media : ∀ m ∈ s.media, m.Readable

/-- A well-formed media section meets what the run over its lines asks of it. -/
theorem MediaDescription.WellFormed.readable {m : MediaDescription} (h : m.WellFormed) :
    m.Readable where
  line _ := SdpParser.reads_parseMediaDescription h
  numberOfPorts := h.numberOfPorts
  title := h.title
  connectionInformation c hc _ := SdpParser.reads_parseConnectionInfo (h.connectionInformation c hc)
  bandwidthInformation := h.bandwidthInformation
  attributes := h.attributes

/-- A well-formed description meets what the run over its lines asks of it. -/
theorem SessionDescription.WellFormed.readable {s : SessionDescription} (h : s.WellFormed) :
    s.Readable where
  origin _ := SdpParser.reads_parseOrigin h.origin
  sessionName := h.sessionName
  sessionInformation := h.sessionInformation
  uri := h.uri
  emailAddress := h.emailAddress
  phoneNumber := h.phoneNumber
  connectionInformation c hc _ := SdpParser.reads_parseConnectionInfo (h.connectionInformation c hc)
  time := h.time
  attributes := h.attributes
  media m hm := (h.media m hm).readable

namespace SdpParser

variable {α : Type} {text rest : Bytes} {a : α}

/-! ### Lines with a bandwidth -/

/-- No number is scanned where no digit stands. -/
theorem fails_scanUnsigned {bound : Nat} (hrest : Stops isAsciiDigit rest) :
    Fails (Scan.scanUnsigned bound) rest := by
  have hscan : Reads (modifyGet (Scanner.scanNumberStr false) : Scan String) (asBytes "") rest "" :=
    reads_scanWhileAsStrUnchecked (by simp) (by simpa using hrest)
  rw [show rest = asBytes "" ++ rest by rw [asBytes_empty]; rfl]
  apply Fails.reads_bind hscan
  rw [show parseUnsigned bound (asBytes "") = none by rw [asBytes_empty]; rfl]
  exact fun s _ => ⟨_, s, rfl⟩

/-- **A bandwidth is never read**: the colon behind the type is left for the number. -/
theorem fails_parseBandwidth (text : Bytes) : Fails parseBandwidth text := by
  have hscan : Reads (modifyGet (Scanner.scanWhile (· != 58)) : Scan Bytes)
      (text.takeWhile (· != 58)) (text.dropWhile (· != 58)) (text.takeWhile (· != 58)) :=
    reads_scanWhile (fun _ => of_mem_takeWhile) (stops_dropWhile _ _)
  have hdigits : Stops isAsciiDigit (text.dropWhile (· != 58)) := by
    intro b hb
    have hcolon := stops_dropWhile (· != 58) text b hb
    rw [show b = 58 by simpa using hcolon]
    rfl
  rw [← List.takeWhile_append_dropWhile (p := (· != 58)) (l := text)]
  -- with or without a name, no number follows
  cases hname : fromUtf8 (text.takeWhile (· != 58)) with
  | none =>
    apply Fails.bind
    apply Fails.map
    apply fails_ofScan
    apply Fails.reads_bind hscan
    rw [hname]
    exact fun s _ => ⟨_, s, rfl⟩
  | some name =>
    have hread : Reads (Scan.scanUntilAsStr 58) (text.takeWhile (· != 58))
        (text.dropWhile (· != 58)) name := by
      apply Reads.bind_nil hscan
      rw [hname]
      exact Reads.pure _ _
    apply Fails.reads_bind (reads_ofScan hread).map
    apply Fails.bind
    exact fails_ofScan (fails_scanUnsigned hdigits).map

/-- Whatever the description so far and the value, a bandwidth line fails to be read. -/
theorem fails_parseLine_bandwidth (sdp : SessionDescription) (text : Bytes) :
    Fails (parseLine sdp) ([98, 61] ++ text) := by
  apply Fails.get_bind
  intro s hs
  rw [isEof_eq_false hs]
  apply Fails.reads_bind reads_readField
  apply Fails.bind
  exact Fails.bind (fails_parseBandwidth text)

/-! ### The lines of a description -/

/-- The lines of `text` are read and turn the description `sdp` into `sdp'`. -/
structure Builds (text : String) (sdp sdp' : SessionDescription) : Prop where
  stops : Stops isNewline (asBytes text)
  steps : ∀ rest, Stops isNewline rest → Steps parseLine rest sdp (asBytes text) sdp'

namespace Builds

variable {t₁ t₂ text : String} {sdp sdp' sdp'' : SessionDescription}

/-- No line leaves the description as it is. -/
theorem nil (sdp : SessionDescription) : Builds "" sdp sdp := by
  constructor
  · simp
  · intro rest _
    rw [asBytes_empty]
    exact .refl

/-- The lines of two texts are read one text after the other. -/
theorem append (h₁ : Builds t₁ sdp sdp') (h₂ : Builds t₂ sdp' sdp'') :
    Builds (t₁ ++ t₂) sdp sdp'' := by
  constructor
  · rw [asBytes_append]
    exact stops_append (fun _ => h₁.stops) fun _ => h₂.stops
  · intro rest hrest
    have hrest₂ : Stops isNewline (asBytes t₂ ++ rest) :=
      stops_append (fun _ => h₂.stops) fun _ => hrest
    rw [asBytes_append]
    exact (h₁.steps _ hrest₂).trans (h₂.steps rest hrest)

/-- **A line** is read by its field. -/
theorem line (b : SdpField) {field : String} (hfield : asBytes field = [b] ∧ isNewline b = false)
    (h : ∀ rest, Reads (parseField b sdp) (asBytes text) (13 :: rest) sdp') :
    Builds (Media.line field text) sdp sdp' := by
  have htext : asBytes (Media.line field text) = [b, 61] ++ (asBytes text ++ [13, 10]) := by
    rw [Media.line, asBytes_append, asBytes_append, asBytes_append, hfield.1,
      show asBytes "=" = [61] by decide, show asBytes "\r\n" = [13, 10] by decide,
      List.append_assoc]
    rfl
  constructor
  · rw [htext]
    exact stops_cons.mpr hfield.2
  · intro rest hrest
    rw [htext]
    refine .single ?_ (List.cons_ne_nil _ _)
    apply Reads.get_bind
    intro s hs
    rw [isEof_eq_false hs]
    apply Reads.bind reads_readField
    apply Reads.bind (h _)
    apply Reads.bind_nil (reads_handleNewLine (by decide) hrest)
    exact Reads.pure _ _

/-- A line whose value is stored. -/
theorem stored (b : SdpField) {field : String} {parse : Parse α}
    {store : α → SessionDescription} {a : α} (hfield : asBytes field = [b] ∧ isNewline b = false)
    (h : ∀ rest, Reads parse (asBytes text) (13 :: rest) a)
    (hparse : parseField b sdp = do return store (← parse)) (hstore : store a = sdp') :
    Builds (Media.line field text) sdp sdp' := by
  apply line b hfield
  intro rest
  rw [hparse, ← hstore]
  exact Reads.bind_nil (h rest) (Reads.pure _ _)

/-- The line of a field that may be missing; `state` is the description with the field. -/
theorem lineOf {β : Type} {field : String} {toText : β → String} {value : Option β}
    (state : Option β → SessionDescription)
    (hline : ∀ v ∈ value, Builds (Media.line field (toText v)) (state none) (state (some v))) :
    Builds (Media.lineOf field toText value) (state none) (state value) := by
  cases value with
  | none => exact nil _
  | some v => exact hline v rfl

/-- The texts of some elements; `state` is the description with the elements up to one. -/
theorem texts {β : Type} {toText : β → String} {elems : List β}
    (state : List β → SessionDescription)
    (helem : ∀ done, ∀ e ∈ elems, Builds (toText e) (state done) (state (done ++ [e])))
    (done : List β) : Builds (Media.texts toText elems) (state done) (state (done ++ elems)) := by
  induction elems generalizing done with
  | nil =>
    rw [List.append_nil]
    exact nil _
  | cons e es ih =>
    have hrest := ih (fun done e he => helem done e (List.mem_cons_of_mem _ he)) (done ++ [e])
    rw [List.append_assoc] at hrest
    exact (helem done e List.mem_cons_self).append hrest

end Builds

/-- Attribute lines add their attributes one by one, to the session or to the last media section. -/
theorem builds_attributes {attributes : List Attribute} (hwf : ∀ a ∈ attributes, a.WellFormed)
    (state : List Attribute → SessionDescription)
    (hstate : ∀ done a, (state done).setAttr a = state (done ++ [a])) :
    Builds (texts (fun a => line "a" a.toText) attributes) (state []) (state attributes) := by
  apply Builds.texts state
  intro done a ha
  exact .stored SdpField.attributeLine (by decide) (fun _ => reads_parseAttribute (hwf a ha)) rfl
    (hstate done a)

/-- The line of a connection, where there is one, stores it in the session or in the last media
    section. -/
theorem builds_connection {connection : Option ConnectionInformation}
    (h : ∀ c ∈ connection, c.Readable)
    (state : Option ConnectionInformation → SessionDescription)
    (hstate : ∀ c, (state none).setConnection c = state (some c)) :
    Builds (lineOf "c" ConnectionInformation.toText connection) (state none) (state connection) := by
  apply Builds.lineOf state
  intro c hc
  exact .stored SdpField.connectionInformation (by decide)
    (h c hc) rfl (hstate c)

/-- An `r` line stores its repeat times where the description has a time to add them to. -/
theorem builds_repeat {r : RepeatTimes} (hwf : r.WellFormed) {sdp sdp' : SessionDescription}
    (hstore : sdp.setRepeatTimes r = .ok sdp') : Builds (line "r" r.toText) sdp sdp' := by
  apply Builds.line SdpField.repeatTime (by decide)
  intro rest
  apply Reads.bind_nil (reads_parseRepeatTimes hwf)
  rw [hstore]
  exact Reads.pure _ _

/-- A time is stored with its repetitions, one after the other. -/
theorem builds_time {t : TimeDescription} (hwf : ∀ r ∈ t.repeatTimes, r.WellFormed)
    (sdp : SessionDescription) (done : List TimeDescription) :
    Builds t.toText { sdp with time := done } { sdp with time := done ++ [t] } := by
  have htime : Builds (line "t" t.timeActive.toText) { sdp with time := done }
      { sdp with time := done ++ [{ timeActive := t.timeActive }] } :=
    .stored SdpField.timeActive (by decide) (fun _ => reads_parseTime _) rfl rfl
  refine htime.append ?_
  apply Builds.texts
    (fun rs => { sdp with time := done ++ [{ timeActive := t.timeActive, repeatTimes := rs }] })
  · intro rs r hr
    apply builds_repeat (hwf r hr)
    rw [SessionDescription.setRepeatTimes_concat]

/-- A media section: its line, and the lines that go to the last media description. -/
theorem builds_media {m : MediaDescription} (h : m.Readable) (sdp : SessionDescription)
    (done : List MediaDescription) :
    Builds m.toText { sdp with media := done } { sdp with media := done ++ [m] } := by
  -- the media description grows line by line, as the last one of the session
  let m₀ : MediaDescription :=
    { mediaType := m.mediaType
      proto := m.proto
      port := m.port
      mediaFormats := m.mediaFormats }
  let m₁ : MediaDescription := { m₀ with connectionInformation := m.connectionInformation }
  let state (m : MediaDescription) : SessionDescription := { sdp with media := done ++ [m] }
  have hline : Builds (line "m" m.head) { sdp with media := done } (state m₀) :=
    .stored SdpField.mediaDescription (by decide) h.line rfl rfl
  have hconnection : Builds (lineOf "c" ConnectionInformation.toText m.connectionInformation)
      (state m₀) (state m₁) :=
    builds_connection h.connectionInformation
      (fun c => state { m₀ with connectionInformation := c })
      fun c => SessionDescription.onLastMedia_concat _ _ sdp done m₀
  have hattributes : Builds (texts (fun a => line "a" a.toText) m.attributes)
      (state m₁) (state { m₁ with attributes := m.attributes }) :=
    builds_attributes h.attributes (fun as => state { m₁ with attributes := as })
      fun as a => SessionDescription.onLastMedia_concat _ _ sdp done { m₁ with attributes := as }
  have htext : m.toText = line "m" m.head ++ (lineOf "c" ConnectionInformation.toText
      m.connectionInformation ++ texts (fun a => line "a" a.toText) m.attributes) := by
    rw [MediaDescription.toText, h.title, h.bandwidthInformation]
    simp [lineOf, texts, String.append_assoc]
  have hm : { m₁ with attributes := m.attributes } = m := by
    obtain ⟨_, hports, htitle, _, hbandwidth, _⟩ := h
    cases m
    simp only at hports htitle hbandwidth
    subst hports htitle hbandwidth
    rfl
  rw [hm] at hattributes
  rw [htext]
  exact hline.append (hconnection.append hattributes)

/-! ### A whole description -/

/-- The lines up to the connection. -/
def headText (s : SessionDescription) : String :=
  line "v" "0" ++ (line "o" s.origin.toText ++ (line "s" s.sessionName ++
    (lineOf "i" id s.sessionInformation ++ (lineOf "u" id s.uri ++
      (lineOf "e" id s.emailAddress ++ (lineOf "p" id s.phoneNumber ++
        lineOf "c" ConnectionInformation.toText s.connectionInformation))))))

/-- The lines from the times on. -/
def tailText (s : SessionDescription) : String :=
  texts TimeDescription.toText s.time ++ (texts (fun a => line "a" a.toText) s.attributes ++
    texts MediaDescription.toText s.media)

/-- The printed description is its head, the bandwidth lines and its tail. -/
theorem toText_eq (s : SessionDescription) :
    s.toText = headText s ++
      (texts (fun b => line "b" b.toText) s.bandwidthInformation ++ tailText s) := by
  simp [SessionDescription.toText, headText, tailText, String.append_assoc]

/-- What the lines up to the connection say. -/
def headOf (s : SessionDescription) : SessionDescription :=
  { s with bandwidthInformation := [], attributes := [], time := [], media := [] }

/-- A line that is a text up to its end is stored under its letter, if it is there. -/
theorem builds_text {field : String} {value : Option String} (b : SdpField)
    (hfield : asBytes field = [b] ∧ isNewline b = false) (hwf : ∀ v ∈ value, OneLine v)
    (state : Option String → SessionDescription) {store : String → SessionDescription}
    (hparse : parseField b (state none) = do return store (← readLine))
    (hstate : ∀ v, store v = state (some v)) :
    Builds (lineOf field id value) (state none) (state value) := by
  apply Builds.lineOf state
  intro v hv
  exact .stored b hfield (fun _ => reads_readLine (hwf v hv)) hparse (hstate v)

/-- The lines up to the connection turn the default description into one that says as much. -/
theorem builds_head {s : SessionDescription} (h : s.Readable) (localIp : IpAddr) :
    Builds (headText s) (SessionDescription.default localIp) (headOf s) := by
  -- the description before each line, the fields of the lines before it filled in
  let s₀ := SessionDescription.default localIp
  let s₁ : SessionDescription := { s₀ with origin := s.origin }
  let s₂ : SessionDescription := { s₁ with sessionName := s.sessionName }
  let s₃ : SessionDescription := { s₂ with sessionInformation := s.sessionInformation }
  let s₄ : SessionDescription := { s₃ with uri := s.uri }
  let s₅ : SessionDescription := { s₄ with emailAddress := s.emailAddress }
  let s₆ : SessionDescription := { s₅ with phoneNumber := s.phoneNumber }
  have hversion : Builds (line "v" "0") s₀ s₀ :=
    .stored SdpField.protocolVersion (by decide) (fun _ => reads_parseVersion) rfl rfl
  have horigin : Builds (line "o" s.origin.toText) s₀ s₁ :=
    .stored SdpField.origin (by decide) h.origin rfl rfl
  have hname : Builds (line "s" s.sessionName) s₁ s₂ :=
    .stored SdpField.sessionName (by decide) (fun _ => reads_readLine h.sessionName) rfl rfl
  have hinformation : Builds (lineOf "i" id s.sessionInformation) s₂ s₃ :=
    builds_text SdpField.sessionInformation (by decide) h.sessionInformation
      (fun v => { s₂ with sessionInformation := v }) rfl fun _ => rfl
  have huri : Builds (lineOf "u" id s.uri) s₃ s₄ :=
    builds_text SdpField.uri (by decide) h.uri (fun v => { s₃ with uri := v }) rfl fun _ => rfl
  have hemail : Builds (lineOf "e" id s.emailAddress) s₄ s₅ :=
    builds_text SdpField.emailAddress (by decide) h.emailAddress
      (fun v => { s₄ with emailAddress := v }) rfl fun _ => rfl
  have hphone : Builds (lineOf "p" id s.phoneNumber) s₅ s₆ :=
    builds_text SdpField.phoneNumber (by decide) h.phoneNumber
      (fun v => { s₅ with phoneNumber := v }) rfl fun _ => rfl
  have hconnection : Builds (lineOf "c" ConnectionInformation.toText s.connectionInformation) s₆
      (headOf s) :=
    builds_connection h.connectionInformation (fun c => { s₆ with connectionInformation := c })
      fun _ => rfl
  exact hversion.append (horigin.append (hname.append (hinformation.append (huri.append
    (hemail.append (hphone.append hconnection))))))

/-- Without a bandwidth, the lines from the times on complete the description. -/
theorem builds_tail {s : SessionDescription} (h : s.Readable)
    (hbandwidth : s.bandwidthInformation = []) : Builds (tailText s) (headOf s) s := by
  let s₁ : SessionDescription := { headOf s with time := s.time }
  let s₂ : SessionDescription := { s₁ with attributes := s.attributes }
  have htime : Builds (texts TimeDescription.toText s.time) (headOf s) s₁ :=
    Builds.texts (fun ts => { headOf s with time := ts })
      (fun done t ht => builds_time (h.time t ht) (headOf s) done) []
  have hattributes : Builds (texts (fun a => line "a" a.toText) s.attributes) s₁ s₂ :=
    builds_attributes h.attributes (fun as => { s₁ with attributes := as }) fun _ _ => rfl
  have hmedia : Builds (texts MediaDescription.toText s.media) s₂ { s₂ with media := s.media } :=
    Builds.texts (fun ms => { s₂ with media := ms })
      (fun done m hm => builds_media (h.media m hm) s₂ done) []
  have hs : { s₂ with media := s.media } = s := by
    cases s
    simp only at hbandwidth
    subst hbandwidth
    rfl
  rw [hs] at hmedia
  exact htime.append (hattributes.append hmedia)

/-- Behind the last line the loop ends. -/
theorem parseLine_end (sdp : SessionDescription) (buf : Bytes) :
    parseLine sdp (Lib.advance (Scanner.new buf) buf) =
      .ok (.inr sdp) (Lib.advance (Scanner.new buf) buf) := by
  have heof : (Lib.advance (Scanner.new buf) buf).isEof = true := by
    rw [Scanner.isEof, Scanner.len, Scanner.index_advance, Scanner.buffer_advance]
    simp [Scanner.new]
  show (if (Lib.advance (Scanner.new buf) buf).isEof then _ else _ : Parse _) _ = _
  rw [if_pos heof]
  rfl

/-- What is built from all lines is parsed. -/
theorem Builds.parse_eq {text : String} {localIp : IpAddr} {sdp : SessionDescription}
    (h : Builds text (SessionDescription.default localIp) sdp) :
    parse localIp (asBytes text) = .ok sdp := by
  have hremaining : (Scanner.new (asBytes text)).remaining = asBytes text ++ [] := by
    rw [List.append_nil]
    rfl
  obtain ⟨fuel, hrun⟩ := (h.steps [] (stops_nil _)).run_loop Failure.stuck hremaining
  rw [parse, parseSdp, hrun, loopN_of_inr (parseLine_end sdp (asBytes text))]

/-- **A readable description is read back.** -/
theorem parse_encode_of_readable {s : SessionDescription} (h : s.Readable) (localIp : IpAddr)
    (hbandwidth : s.bandwidthInformation = []) : parse localIp s.encode = .ok s := by
  have htext : s.toText = headText s ++ tailText s := by
    rw [toText_eq, hbandwidth]
    simp [texts]
  rw [SessionDescription.encode, htext]
  exact ((builds_head h localIp).append (builds_tail h hbandwidth)).parse_eq

/-- A well-formed description without bandwidth is parsed back from its text into the same value. -/
theorem parse_encode {s : SessionDescription} (hwf : s.WellFormed) (localIp : IpAddr)
    (hbandwidth : s.bandwidthInformation = []) : parse localIp s.encode = .ok s :=
  parse_encode_of_readable hwf.readable localIp hbandwidth

/-- The parser gets to the first bandwidth line, and no further. -/
theorem parse_encode_bandwidth {s : SessionDescription} (hwf : s.WellFormed) (localIp : IpAddr)
    (hbandwidth : s.bandwidthInformation ≠ []) :
    ∃ failure, parse localIp s.encode = .error failure := by
  obtain ⟨b, bs, hbs⟩ := List.exists_cons_of_ne_nil hbandwidth
  obtain ⟨text, htext⟩ : ∃ text, s.encode = asBytes (headText s) ++ ([98, 61] ++ text) := by
    refine ⟨asBytes (b.toText ++ "\r\n" ++ texts (fun b => line "b" b.toText) bs ++ tailText s), ?_⟩
    have hb : asBytes "b=" = [98, 61] := by decide
    simp [SessionDescription.encode, toText_eq, hbs, texts, line, hb]
  have hsteps := (builds_head hwf.readable localIp).steps ([98, 61] ++ text) (stops_cons.mpr (by decide))
  obtain ⟨fuel, hrun⟩ := hsteps.run_loop Failure.stuck (s := Scanner.new s.encode) htext
  have hfails : Fails (loopN Failure.stuck parseLine (fuel + 1) (headOf s)) ([98, 61] ++ text) :=
    (fails_parseLine_bandwidth (headOf s) text).loopN (fuel + 1)
  obtain ⟨failure, s', herror⟩ := hfails _ (remaining_advance (s := Scanner.new s.encode) htext)
  refine ⟨failure, ?_⟩
  rw [parse, parseSdp, hrun, herror]

/-- **The round trip.** A printed description is read back, under the same sections, if it has no
    bandwidth line. -/
theorem parse_encode_iff {s : SessionDescription} (hwf : s.WellFormed) (localIp : IpAddr) :
    parse localIp s.encode = .ok s ↔ s.bandwidthInformation = [] := by
  constructor
  · intro hparse
    by_contra hbandwidth
    obtain ⟨failure, herror⟩ := parse_encode_bandwidth hwf localIp hbandwidth
    rw [herror] at hparse
    cases hparse
  · exact parse_encode hwf localIp

/-- A session with a line of each kind but the bandwidth. -/
def conference : SessionDescription where
  origin :=
    { user := "alice"
      sessionId := 2890844526
      sessionVersion := 1
      nettype := .other "TN"
      unicastAddress := .v4 ⟨10, 0, 0, 1⟩ }
  sessionName := "A call"
  sessionInformation := some "weekly"
  uri := some "http://example.com"
  emailAddress := some "alice@example.com"
  phoneNumber := some "+1 617 555"
  connectionInformation := some ⟨.internet, .ip4, .v4 ⟨10, 0, 0, 1⟩⟩
  attributes := [⟨"recvonly", none⟩]
  time := [{ timeActive := ⟨0, 10⟩, repeatTimes := [⟨604800, 3600, [0, 90000]⟩] }]
  media := [
    { mediaType := .audio
      proto := .rtpAvp
      port := 49170
      mediaFormats := ["0", "8"]
      connectionInformation := some ⟨.internet, .ip4, .v4 ⟨10, 0, 0, 2⟩⟩
      attributes := [⟨"rtpmap", some "0 PCMU/8000"⟩] }]

/-- The example has every line that a well-formed description may have. -/
theorem wellFormed_conference : conference.WellFormed where
  origin := ⟨by decide, by decide, by decide, by decide⟩
  sessionName := by decide
  sessionInformation := by decide
  uri := by decide
  emailAddress := by decide
  phoneNumber := by decide
  connectionInformation := by
    rintro c ⟨⟩
    rfl
  bandwidthInformation := List.forall_mem_nil _
  time := by
    simp only [conference, List.forall_mem_singleton]
    have hoffsets : ∀ offset ∈ [0, 90000], (0 : Int64) ≤ offset :=
      List.forall_mem_cons.mpr ⟨by decide, List.forall_mem_singleton.mpr (by decide)⟩
    exact ⟨by decide, by decide, hoffsets⟩
  attributes := by
    simp only [conference, List.forall_mem_singleton]
    exact ⟨by decide, by decide⟩
  media := by
    simp only [conference, List.forall_mem_singleton]
    refine ⟨by decide, rfl, by decide, by decide, rfl, ?_, rfl, ?_⟩
    · rintro c ⟨⟩
      rfl
    · simp only [List.forall_mem_singleton]
      exact ⟨by decide, by decide⟩

/-- The example is parsed back from its text. -/
theorem parse_encode_iff_conference :
    parse (.v4 ⟨10, 0, 0, 1⟩) conference.encode = .ok conference :=
  (parse_encode_iff wellFormed_conference _).mpr rfl

/-- The default description with a bandwidth line, `b=CT:5`. -/
def limited : SessionDescription :=
  { SessionDescription.default (.v4 ⟨10, 0, 0, 1⟩) with bandwidthInformation := [⟨.ct, 5⟩] }

/-- The description is well-formed, but the parser looks for the number of its bandwidth at the
    colon. -/
theorem parse_encode_limited :
    limited.WellFormed ∧ parse (.v4 ⟨10, 0, 0, 1⟩) limited.encode =
      .error (.error (.parseSdpError (.scannerError ⟨.invalidNumber, ⟨4, 5⟩⟩))) := by
  refine ⟨?_, by decide +kernel⟩
  constructor
  case origin => exact ⟨by decide, trivial⟩
  case sessionName => decide
  case connectionInformation => exact fun c hc => absurd hc (Option.not_mem_none c)
  case bandwidthInformation => exact List.forall_mem_singleton.mpr trivial
  case time => exact List.forall_mem_nil _
  case attributes => exact List.forall_mem_nil _
  case media => exact List.forall_mem_nil _
  all_goals exact fun v hv => absurd hv (Option.not_mem_none v)

end SdpParser

end Rssip.Media
