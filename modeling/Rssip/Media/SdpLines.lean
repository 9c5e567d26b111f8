import Rssip.Lib.Yields
import Rssip.Media.SdpRoundTrip
import Rssip.Utils.Scans

namespace Rssip.Media

open Lib

/-!
# The lines of a description

What the parser reads, apart from where it is stored.

* `SdpLine` — what a line says, and `SdpLine.store`, what becomes of a description by it;
* `parseValue` — what reads a line, behind its letter and the equals sign;
* `Scans` — a parser whose value has the bytes of its text, with one lemma for each parser.
-/

/-- What a line says. -/
inductive SdpLine where
  | attr (a : Attribute)
  | version
  | origin (o : Origin)
  | sessionName (s : String)
  | connection (c : ConnectionInformation)
  | information (s : String)
  | uri (s : String)
  | emailAddress (s : String)
  | phoneNumber (s : String)
  | bandwidth (b : BandwidthInformation)
  | time (t : TimeDescription)
  | repeatTimes (r : RepeatTimes)
  | media (m : MediaDescription)
  /-- A line that is not read. -/
  | skipped
deriving DecidableEq

/-- What a line does to the description. -/
def SdpLine.store : SdpLine → SessionDescription → Except Error SessionDescription
  | .attr a, sdp => .ok (sdp.setAttr a)
  | .version, sdp => .ok sdp
  | .origin o, sdp => .ok (sdp.setOrigin o)
  | .sessionName s, sdp => .ok (sdp.setName s)
  | .connection c, sdp => .ok (sdp.setConnection c)
  | .information s, sdp => .ok (sdp.setInformation s)
  | .uri s, sdp => .ok (sdp.setUri s)
  | .emailAddress s, sdp => .ok (sdp.setEmailAddr s)
  | .phoneNumber s, sdp => .ok (sdp.setPhone s)
  | .bandwidth b, sdp => .ok (sdp.setBandwidthInformation b)
  | .time t, sdp => .ok (sdp.setTimeDesc t)
  | .repeatTimes r, sdp => sdp.setRepeatTimes r
  | .media m, sdp => .ok (sdp.setMediaDescription m)
  | .skipped, sdp => .ok sdp

/-- The letter of what a line says. -/
def SdpLine.letter : SdpLine → Option SdpField
  | .attr _ => some SdpField.attributeLine
  | .version => some SdpField.protocolVersion
  | .origin _ => some SdpField.origin
  | .sessionName _ => some SdpField.sessionName
  | .connection _ => some SdpField.connectionInformation
  | .information _ => some SdpField.sessionInformation
  | .uri _ => some SdpField.uri
  | .emailAddress _ => some SdpField.emailAddress
  | .phoneNumber _ => some SdpField.phoneNumber
  | .bandwidth _ => some SdpField.bandwidthInformation
  | .time _ => some SdpField.timeActive
  | .repeatTimes _ => some SdpField.repeatTime
  | .media _ => some SdpField.mediaDescription
  | .skipped => none

/-- What some lines do, one after the other. -/
def storeLines (lines : List SdpLine) (sdp : SessionDescription) :
    Except Error SessionDescription :=
  lines.foldlM (fun sdp line => line.store sdp) sdp

/-- A property of all elements and of one more is a property of the list with that one at its end.
    -/
theorem forall_mem_concat {α : Type} {p : α → Prop} {as : List α} {a : α} (has : ∀ b ∈ as, p b)
    (ha : p a) : ∀ b ∈ as ++ [a], p b :=
  List.forall_mem_append.mpr ⟨has, List.forall_mem_singleton.mpr ha⟩

/-- A property of a value is one of all that `some` of it contains. -/
theorem forall_mem_some {α : Type} {p : α → Prop} {a : α} (ha : p a) : ∀ b ∈ some a, p b := by
  rintro b ⟨⟩
  exact ha

namespace SdpParser

/-- What stands behind the equals sign. -/
def parseValue (field : SdpField) : Parse SdpLine :=
  if field = SdpField.attributeLine then .attr <$> parseAttribute
  else if field = SdpField.protocolVersion then do
    parseVersion
    return .version
  else if field = SdpField.origin then .origin <$> parseOrigin
  else if field = SdpField.sessionName then .sessionName <$> readLine
  else if field = SdpField.connectionInformation then .connection <$> parseConnectionInfo
  else if field = SdpField.sessionInformation then .information <$> readLine
  else if field = SdpField.uri then .uri <$> readLine
  else if field = SdpField.emailAddress then .emailAddress <$> readLine
  else if field = SdpField.phoneNumber then .phoneNumber <$> readLine
  else if field = SdpField.bandwidthInformation then .bandwidth <$> parseBandwidth
  else if field = SdpField.timeActive then .time <$> parseTime
  else if field = SdpField.repeatTime then .repeatTimes <$> parseRepeatTimes
  else if field = SdpField.timeZoneOffset then return .skipped
  else if field = SdpField.mediaDescription then .media <$> parseMediaDescription
  else return .skipped

/-- The letters that the parser has a rule for. -/
def letters : List SdpField :=
  [SdpField.attributeLine, SdpField.protocolVersion, SdpField.origin, SdpField.sessionName,
    SdpField.connectionInformation, SdpField.sessionInformation, SdpField.uri,
    SdpField.emailAddress, SdpField.phoneNumber, SdpField.bandwidthInformation,
    SdpField.timeActive, SdpField.repeatTime, SdpField.mediaDescription]

/-- A time zone, or a letter without rule. -/
def uninterpreted (field : SdpField) : Bool := !letters.contains field

/-- A line without rule is skipped: nothing of it is read as a value. -/
theorem parseValue_uninterpreted {field : SdpField} (h : uninterpreted field) :
    parseValue field = return .skipped := by
  simp only [uninterpreted, letters, List.contains_cons, List.contains_nil, Bool.or_false,
    Bool.not_eq_true', Bool.or_eq_false_iff, beq_eq_false_iff_ne] at h
  obtain ⟨ha, hv, ho, hs, hc, hi, hu, he, hp, hb, ht, hr, hm⟩ := h
  rw [parseValue, if_neg ha, if_neg hv, if_neg ho, if_neg hs, if_neg hc, if_neg hi, if_neg hu,
    if_neg he, if_neg hp, if_neg hb, if_neg ht, if_neg hr, if_neg hm, ite_self]

/-- A line is stored, if it can be. -/
def storeLine (sdp : SessionDescription) (line : SdpLine) : Parse SessionDescription :=
  match line.store sdp with
  | .ok sdp => return sdp
  | .error e => fail e

/-- A line that can always be stored is stored as soon as it is read. -/
theorem map_storeLine {α : Type} {sdp : SessionDescription} {line : α → SdpLine}
    {store : α → SessionDescription} (h : ∀ a, (line a).store sdp = .ok (store a))
    (parse : Parse α) : (line <$> parse >>= storeLine sdp) = do return store (← parse) := by
  rw [map_eq_pure_bind, bind_assoc]
  refine congrArg (parse >>= ·) (funext fun a => ?_)
  rw [pure_bind, storeLine, h]

/-- **A line is read, and then stored.** -/
theorem parseField_eq (field : SdpField) (sdp : SessionDescription) :
    parseField field sdp = parseValue field >>= storeLine sdp := by
  unfold parseField parseValue
  simp only [apply_ite (· >>= storeLine sdp)]
  repeat' refine ite_congr rfl (fun _ => ?_) fun _ => ?_
  -- most lines are stored as they are read
  all_goals first
    | exact (map_storeLine (fun _ => rfl) _).symm
    | rfl
    | rw [map_eq_pure_bind, bind_assoc]; rfl

/-! ### What the lines of a parsed text look like -/

/-- The scanner is not behind the end of its buffer, and every byte that remains is in `Q`. -/
structure InBuffer (Q : UInt8 → Prop) (s : Scanner) : Prop where
  index : s.index ≤ s.buffer.length
  bytes : ∀ b ∈ s.remaining, Q b

variable {Q : UInt8 → Prop}

/-- A new scanner is at the start of its buffer, with every byte of it still to come. -/
theorem InBuffer.new {text : Bytes} (h : ∀ b ∈ text, Q b) : InBuffer Q (Scanner.new text) :=
  ⟨Nat.zero_le _, h⟩

/-- To go over a text in front of the scanner stays in the buffer. -/
theorem InBuffer.advance {s : Scanner} (h : InBuffer Q s) {text rest : Bytes}
    (hs : s.remaining = text ++ rest) : InBuffer Q (Lib.advance s text) := by
  have hlength : s.remaining.length = s.buffer.length - s.index := List.length_drop
  have hindex := h.index
  have hrem : (Lib.advance s text).remaining = rest := remaining_advance (σ := Scanner) hs
  rw [hs, List.length_append] at hlength
  constructor
  · rw [Scanner.index_advance, Scanner.buffer_advance]
    omega
  · intro b hb
    rw [hrem] at hb
    exact h.bytes b (hs ▸ List.mem_append_right text hb)

/-- To go over one byte in front of the scanner stays in the buffer. -/
theorem InBuffer.advance_one {s : Scanner} (h : InBuffer Q s) {b : UInt8} {bs : Bytes}
    (hs : s.remaining = b :: bs) : InBuffer Q (s.bump b) :=
  h.advance (show s.remaining = [b] ++ bs from hs)

/-- In its buffer, a scanner is at the end exactly when nothing remains. -/
theorem InBuffer.isEof_iff {s : Scanner} (h : InBuffer Q s) : s.isEof ↔ s.remaining = [] := by
  have hdrop : s.remaining = [] ↔ s.buffer.length ≤ s.index := List.drop_eq_nil_iff
  have hindex := h.index
  rw [hdrop, Scanner.isEof, Scanner.len, beq_iff_eq]
  omega

/-- From a scanner in its buffer, every value has the property, and leaves one. -/
abbrev Scans (Q : UInt8 → Prop) {ε α : Type} (P : α → Prop) (r : EStateM ε Scanner α) : Prop :=
  Yields (InBuffer Q) P r

section Scan

variable {ε : Type} {predicate : UInt8 → Bool}

/-- A scan gives bytes that the predicate admits. -/
theorem scans_scanWhile (predicate : UInt8 → Bool) :
    Scans Q (fun text : Bytes => ∀ b ∈ text, predicate b)
      (modifyGet (Scanner.scanWhile predicate) : EStateM ε Scanner Bytes) := by
  intro c text c' hc h
  obtain ⟨rfl, rfl⟩ := scanWhile_eq_ok_iff.mp h
  exact ⟨fun _ => of_mem_takeWhile, hc.advance List.takeWhile_append_dropWhile.symm⟩

/-- A decoded scan gives a text of bytes that the predicate admits. -/
theorem scans_scanWhileAsStrUnchecked (predicate : UInt8 → Bool) :
    Scans Q (fun s : String => ∀ b ∈ asBytes s, predicate b)
      (modifyGet (Scanner.scanWhileAsStrUnchecked predicate) : EStateM ε Scanner String) := by
  rw [scanWhileAsStrUnchecked_eq]
  refine (scans_scanWhile predicate).map fun text htext => ?_
  rw [fromUtf8Unchecked]
  cases hs : fromUtf8 text with
  | none => simp
  | some s => exact (fromUtf8_eq_some_iff.mp hs) ▸ htext

/-- A scan of one byte stays in the buffer. -/
theorem scans_scanIf (predicate : UInt8 → Bool) :
    Scans Q (fun _ => True)
      (modifyGet (Scanner.scanIf predicate) : EStateM ε Scanner (Option UInt8)) := by
  intro c o c' hc h
  have hrun : EStateM.Result.ok (c.scanIf predicate).1 (c.scanIf predicate).2 = .ok o c' := h
  rw [Scanner.scanIf, Scanner.peek_eq_head?] at hrun
  refine ⟨trivial, ?_⟩
  cases hrem : c.remaining with
  | nil =>
    rw [hrem] at hrun
    injection hrun with _ hc'
    exact hc' ▸ hc
  | cons b bs =>
    rw [hrem, List.head?_cons] at hrun
    dsimp only at hrun
    split at hrun
    · injection hrun with _ hc'
      exact hc' ▸ hc.advance_one hrem
    · injection hrun with _ hc'
      exact hc' ▸ hc

/-- A scan that fails gives nothing, so every property holds of what it gives. -/
theorem scans_scanError {α : Type} {P : α → Prop} (kind : ScannerErrorKind) :
    Scans Q P (Scan.scanError kind : Scan α) :=
  Yields.get_bind fun _ => Yields.throw _

/-- The checked decoding of a scan gives a text of bytes that the predicate admits. -/
theorem scans_scanWhileAsStr (predicate : UInt8 → Bool) :
    Scans Q (fun s : String => ∀ b ∈ asBytes s, predicate b) (Scan.scanWhileAsStr predicate) := by
  apply Yields.bind (scans_scanWhile predicate)
  intro text htext
  split
  · rename_i s hs
    exact Yields.pure (fromUtf8_eq_some_iff.mp hs ▸ htext)
  · exact scans_scanError _

/-- A number that is scanned is below its bound: a larger one is refused. -/
theorem scans_scanUnsigned (bound : Nat) : Scans Q (· < bound) (Scan.scanUnsigned bound) := by
  apply Yields.bind (scans_scanWhileAsStrUnchecked _)
  intro digits _
  split
  · rename_i n hn
    exact Yields.pure (parseUnsigned_lt hn)
  · exact scans_scanError _

/-- To take the next byte stays in the buffer. -/
theorem scans_nextByte : Scans Q (fun _ => True) Scan.nextByte := by
  intro c b c' hc h
  have hrem : c.remaining = [b] ++ Cursor.remaining c' := gives_nextByte.mp ⟨c', h, rfl⟩
  rw [Scan.reads_nextByte c hrem] at h
  injection h with _ hc'
  exact ⟨trivial, hc' ▸ hc.advance hrem⟩

/-- To require a byte stays in the buffer. -/
theorem scans_mustRead (b : UInt8) : Scans Q (fun _ => True) (Scan.mustRead b) := by
  intro c _ c' hc h
  have hrem : c.remaining = [b] ++ Cursor.remaining c' := gives_mustRead.mp ⟨c', h, rfl⟩
  rw [Scan.reads_mustRead c hrem] at h
  injection h with _ hc'
  exact ⟨trivial, hc' ▸ hc.advance hrem⟩

end Scan

variable {α : Type}

/-- The parser's use of a scan succeeds with what the scan succeeds with. -/
theorem ofScan_eq_ok_iff {scan : Scan α} {c c' : Scanner} {a : α} :
    ofScan scan c = .ok a c' ↔ scan c = .ok a c' := by
  rw [ofScan]
  cases scan c <;> simp

/-- The parser's use of a scan gives what the scan gives. -/
theorem scans_ofScan {P : α → Prop} {scan : Scan α} (h : Scans Q P scan) : Scans Q P (ofScan scan) :=
  fun c a c' hc hrun => h c a c' hc (ofScan_eq_ok_iff.mp hrun)

/-- A parser that fails gives nothing, so every property holds of what it gives. -/
theorem scans_fail {P : α → Prop} (e : Error) : Scans Q P (fail e : Parse α) := Yields.throw _

/-- To skip blanks stays in the buffer. -/
theorem scans_handleWs : Scans Q (fun _ => True) handleWs :=
  Yields.bind (scans_scanWhile _) fun _ _ => Yields.pure trivial

/-- To skip line ends stays in the buffer. -/
theorem scans_handleNewLine : Scans Q (fun _ => True) handleNewLine :=
  Yields.bind (scans_scanWhile _) fun _ _ => Yields.pure trivial

/-- What is read as a token is one, though it may be empty. -/
theorem scans_readToken : Scans Q Token readToken := scans_scanWhileAsStrUnchecked _

/-- What is read as a line has no line end in it. -/
theorem scans_readLine : Scans Q OneLine readLine :=
  scans_ofScan ((scans_scanWhileAsStr _).imp fun s hs b hb => by simpa using hs b hb)

/-- To make an address of a text leaves the scanner where it is. -/
theorem scans_ipAddr (context text : String) : Scans Q (fun _ => True) (ipAddr context text) := by
  unfold ipAddr
  split
  · exact Yields.pure trivial
  · exact scans_fail _

/-- To look at the next byte leaves the scanner where it is. -/
theorem scans_peek : Scans Q (fun _ => True) peek := Yields.get_bind fun _ => Yields.pure trivial

/-- To read the letter of a line and the equals sign stays in the buffer. -/
theorem scans_readField : Scans Q (fun _ => True) readField := by
  apply Yields.bind (scans_ofScan scans_nextByte)
  intro field _
  apply Yields.bind (scans_ofScan (scans_mustRead _))
  intro _ _
  exact Yields.pure trivial

/-- A text that does not start with `p` does not start with it when it is cut. -/
theorem stops_takeWhile {p q : UInt8 → Bool} {xs : Bytes} (h : Stops p xs) :
    Stops p (xs.takeWhile q) := by
  cases xs with
  | nil => exact h
  | cons b bs =>
    by_cases hb : q b
    · rw [List.takeWhile_cons_of_pos hb]
      exact h
    · rw [List.takeWhile_cons_of_neg hb]
      exact stops_nil _

/-- Behind blanks there is something in front of the next one, or nothing at all. -/
theorem eq_nil_of_takeWhile {xs : Bytes} (hstops : Stops isSpace xs)
    (h : xs.takeWhile (· != 32) = []) : xs = [] := by
  cases xs with
  | nil => rfl
  | cons b bs =>
    have hb : b = 32 := by
      by_contra hb
      rw [List.takeWhile_cons_of_pos (by simpa using hb)] at h
      cases h
    rw [hb] at hstops
    exact absurd (stops_cons.mp hstops) (by decide)

/-- Behind the blanks that are skipped there is no further one. -/
theorem stops_handleWs {c c' : Scanner} (h : handleWs c = .ok () c') :
    Stops isSpace c'.remaining := by
  obtain ⟨ws, c₁, hws, hpure⟩ := bind_eq_ok_iff.mp h
  injection hpure with _ hc
  obtain ⟨-, hrem⟩ := gives_scanWhile.mp ⟨c₁, hws, rfl⟩
  rw [← hc, show c₁.remaining = c.remaining.dropWhile isSpace from hrem]
  exact stops_dropWhile _ _

/-- A text up to a blank, behind which the next reader needs something. -/
theorem scans_untilBlank {β : Type} {P : β → Prop} {f : String → α} {k : α → Parse β}
    (hk : ∀ s, asBytes s ≠ [] → 32 ∉ asBytes s → Stops isSpace (asBytes s) →
      (∀ b ∈ asBytes s, Q b) → Scans Q P (k (f s)))
    (hend : ∀ a, Fails (k a) []) :
    Scans Q P (do
      handleWs
      let a ← f <$> ofScan (Scan.scanUntilAsStr 32)
      k a) := by
  intro c b c' hc h
  obtain ⟨_, c₁, hws, h⟩ := bind_eq_ok_iff.mp h
  obtain ⟨a, c₂, hmap, h⟩ := bind_eq_ok_iff.mp h
  rw [map_eq_pure_bind] at hmap
  obtain ⟨s, c₃, hread, hpure⟩ := bind_eq_ok_iff.mp hmap
  injection hpure with ha hc₃
  subst ha hc₃
  obtain ⟨-, hc₁⟩ := scans_handleWs _ _ _ hc hws
  obtain ⟨hs, hc₂⟩ := scans_ofScan (scans_scanWhileAsStr _) _ _ _ hc₁ hread
  obtain ⟨htake, hadvance⟩ := scanWhileAsStr_eq_ok_iff.mp (ofScan_eq_ok_iff.mp hread)
  have hstops := stops_handleWs hws
  have hblank : 32 ∉ asBytes s := fun hmem => absurd (hs 32 hmem) (by decide)
  have hbytes : ∀ b ∈ asBytes s, Q b := by
    intro b hb
    rw [htake] at hb
    exact hc₁.bytes b ((List.takeWhile_sublist _).subset hb)
  refine hk s (fun hnil => ?_) hblank (htake ▸ stops_takeWhile hstops) hbytes _ _ _ hc₂ h
  -- without a byte in front of the blank there is no blank either
  have hrem : c₁.remaining = [] := eq_nil_of_takeWhile hstops (htake.symm.trans hnil)
  rw [hnil] at hadvance
  obtain ⟨e, t, he⟩ := hend (f s) c₁ hrem
  rw [← hadvance] at h
  rw [show k (f s) (Lib.advance c₁ []) = _ from he] at h
  cases h

/-- Every element of a list has what an element has. -/
theorem scans_parseElements {P : α → Prop} {elem : Parse α} (h : Scans Q P elem) :
    Scans Q (fun elems : List α => ∀ e ∈ elems, P e) (parseElements elem) := by
  apply Yields.loop (P := fun elems : List α => ∀ e ∈ elems, P e)
  · intro elems helems
    apply Yields.bind (scans_scanIf _)
    intro blank _
    apply Yields.ite (Yields.pure helems)
    apply Yields.bind h
    intro e he
    have hconcat : ∀ e' ∈ elems ++ [e], P e' :=
      List.forall_mem_append.mpr ⟨helems, List.forall_mem_singleton.mpr he⟩
    apply Yields.bind scans_peek
    intro next _
    exact (Yields.pure hconcat).ite (Yields.pure hconcat)
  · exact List.forall_mem_nil _

/-! ### What stands in the lines of a parsed text -/

end SdpParser

/-- The network type has been read from an origin, with bytes in `Q`. -/
def NetType.ScannedInOrigin (Q : UInt8 → Prop) : NetType → Prop
  | .internet => True
  | .other name => name ≠ "IN" ∧ asBytes name ≠ [] ∧ 32 ∉ asBytes name ∧
    Stops isSpace (asBytes name) ∧ ∀ b ∈ asBytes name, Q b

/-- The network type has been read in front of a connection address. -/
def NetType.Scanned (Q : UInt8 → Prop) : NetType → Prop
  | .internet => True
  | .other name => ¬ asBytes "IN" <+: asBytes name ∧
    ∀ b ∈ asBytes name, isSpace b = false ∧ Q b

/-- What the parser says of the texts of an origin that it has read. -/
structure Origin.Scanned (Q : UInt8 → Prop) (o : Origin) : Prop where
  user : ∀ b ∈ asBytes o.user, SdpParser.isAsciiWhitespace b = false
  nettype : o.nettype.ScannedInOrigin Q

/-- A media description as its line leaves it. -/
structure MediaDescription.Scanned (m : MediaDescription) : Prop where
  mediaType : m.mediaType ≠ .application
  formats : ∀ fmt ∈ m.mediaFormats, Token fmt
  others : m = { mediaType := m.mediaType, proto := m.proto, port := m.port,
                 mediaFormats := m.mediaFormats }

/-- What a line says has been read, from bytes in `Q`. -/
def SdpLine.Scanned (Q : UInt8 → Prop) : SdpLine → Prop
  | .attr a => a.WellFormed
  | .origin o => o.Scanned Q
  | .sessionName s | .information s | .uri s | .emailAddress s | .phoneNumber s => OneLine s
  | .connection c => c.nettype.Scanned Q
  | .bandwidth _ => False
  | .time t => t.repeatTimes = []
  | .repeatTimes r => r.WellFormed
  | .media m => m.Scanned
  | .version | .skipped => True

namespace SdpParser

variable {α : Type} {Q : UInt8 → Prop}

/-- An attribute that is read has a token for its name and one line for its value. -/
theorem scans_parseAttribute : Scans Q Attribute.WellFormed parseAttribute := by
  apply Yields.bind scans_readToken
  intro name hname
  apply Yields.bind (scans_scanIf _)
  intro colon _
  apply Yields.ite
  · apply Yields.bind scans_readLine
    intro value hvalue
    refine Yields.pure ⟨hname, ?_⟩
    rintro v ⟨⟩
    exact hvalue
  · exact Yields.pure ⟨hname, fun v hv => absurd hv (Option.not_mem_none v)⟩

/-- A 64-bit number stays in the buffer. -/
theorem scans_scanU64 : Scans Q (fun _ => True) (ofScan Scan.scanU64) :=
  scans_ofScan ((scans_scanUnsigned _).map fun _ _ => trivial)

/-- A 16-bit number stays in the buffer. -/
theorem scans_scanU16 : Scans Q (fun _ => True) (ofScan Scan.scanU16) :=
  scans_ofScan ((scans_scanUnsigned _).map fun _ _ => trivial)

/-- An integer is read from its digits, and so it is not negative. -/
theorem scans_scanI64 : Scans Q (0 ≤ ·) (ofScan Scan.scanI64) := by
  refine scans_ofScan ((scans_scanUnsigned _).map fun n hn => ?_)
  rw [Int64.le_iff_toInt_le, Int64.toInt_ofNat_of_lt hn]
  exact Int.natCast_nonneg n

/-- At the end an empty text is read. -/
theorem fails_untilBlank {k : String → Parse α} (h : ∀ s, ∃ e t, k "" s = .error e t) :
    Fails (do
      handleWs
      let a ← ofScan (Scan.scanUntilAsStr 32)
      k a) [] := by
  have hnone : asBytes "" ++ [] = ([] : Bytes) := by decide
  have hread : Reads (ofScan (Scan.scanUntilAsStr 32)) (asBytes "") [] "" :=
    reads_ofScan (Scan.reads_scanWhileAsStr (by decide) (stops_nil _))
  rw [← hnone]
  apply Fails.reads_bind (reads_handleWs (by decide) (stops_nil _))
  rw [← hnone]
  exact Fails.reads_bind hread fun s _ => h s

/-- The texts of an origin are the ones that the parser's scans can give. -/
theorem scans_parseOrigin : Scans Q (Origin.Scanned Q) parseOrigin := by
  apply Yields.bind (scans_ofScan (scans_scanWhileAsStr _))
  intro user huser
  apply Yields.bind scans_handleWs
  intro _ _
  apply Yields.bind scans_scanU64
  intro sessionId _
  apply Yields.bind scans_handleWs
  intro _ _
  apply Yields.bind scans_scanU64
  intro sessionVersion _
  apply scans_untilBlank
  · intro name hne hblank hstops hbytes
    have hnettype : (netType name).ScannedInOrigin Q := by
      unfold netType
      split
      · trivial
      · rename_i hin
        exact ⟨hin, hne, hblank, hstops, hbytes⟩
    apply Yields.bind scans_handleWs
    intro _ _
    apply Yields.bind (scans_ofScan (scans_scanWhileAsStr _))
    intro addr _
    -- what follows the address type
    have hend : ∀ addrtype : AddrType, Scans Q (Origin.Scanned Q) (do
        handleWs
        let unicastAddress ←
          ipAddr "" (← ofScan (Scan.scanUntilAnyAsStr (asBytes " \t\r\n")))
        handleWs
        return ⟨user, sessionId, sessionVersion, netType name, addrtype, unicastAddress⟩) := by
      intro addrtype
      apply Yields.bind scans_handleWs
      intro _ _
      apply Yields.bind (scans_ofScan (scans_scanWhileAsStr _))
      intro address _
      apply Yields.bind (scans_ipAddr _ _)
      intro ip _
      apply Yields.bind scans_handleWs
      intro _ _
      exact Yields.pure ⟨fun b hb => by simpa using huser b hb, hnettype⟩
    dsimp only
    split
    · exact hend _
    · exact hend _
    · exact Yields.bind (P := fun _ => True) (scans_fail _) fun _ _ => hend _
  · intro nettype
    exact fails_untilBlank fun s => ⟨_, _, rfl⟩

/-- To go over some bytes, at most to the end, stays in the buffer. -/
theorem scans_advanceN (n : Nat) :
    Scans Q (fun _ => True) (modify (Scanner.advanceN n) : Parse Unit) := by
  intro c _ c' hc h
  have hrun : EStateM.Result.ok () (Scanner.advanceN n c) = .ok () c' := h
  injection hrun with _ hc'
  refine ⟨trivial, hc' ▸ ?_⟩
  clear h hc'
  induction n generalizing c with
  | zero => exact hc
  | succ n ih =>
    rw [Scanner.advanceN, Scanner.scan, Scanner.peek_eq_head?]
    cases hrem : c.remaining with
    | nil => exact hc
    | cons b bs => exact ih (c.bump b) (hc.advance_one hrem)

/-- The network type of a connection is the internet or a text up to a blank. -/
theorem scans_connectionNetType : Scans Q (NetType.Scanned Q) connectionNetType := by
  intro c nettype c' hc h
  have h := get_bind_eq_ok_iff.mp h
  by_cases hpre : c.matchesPrefix (asBytes "IN")
  · rw [if_pos hpre] at h
    refine (Yields.bind (P := fun _ => True) (scans_advanceN 2) fun _ _ => ?_) _ _ _ hc h
    exact Yields.pure (P := NetType.Scanned Q) trivial
  · rw [if_neg hpre] at h
    obtain ⟨name, c₁, hread, hpure⟩ := bind_eq_ok_iff.mp h
    obtain ⟨hname, hc₁⟩ := scans_ofScan (scans_scanWhileAsStr _) _ _ _ hc hread
    obtain ⟨htake, -⟩ := scanWhileAsStr_eq_ok_iff.mp (ofScan_eq_ok_iff.mp hread)
    injection hpure with hnettype hc'
    subst hnettype hc'
    have hbytes : ∀ b ∈ asBytes name, isSpace b = false ∧ Q b := by
      intro b hb
      refine ⟨by simpa using hname b hb, ?_⟩
      rw [htake] at hb
      exact hc.bytes b ((List.takeWhile_sublist _).subset hb)
    refine ⟨⟨fun hin => hpre ?_, hbytes⟩, hc₁⟩
    -- what starts the name starts what remains
    rw [Scanner.matchesPrefix, List.isPrefixOf_iff_prefix]
    exact hin.trans (htake ▸ List.takeWhile_prefix _)

/-- A connection has the network type that was scanned, and an address of its type. -/
theorem scans_parseConnectionInfo :
    Scans Q (fun c : ConnectionInformation => c.nettype.Scanned Q) parseConnectionInfo := by
  apply Yields.bind scans_connectionNetType
  intro nettype hnettype
  apply Yields.bind scans_handleWs
  intro _ _
  apply Yields.get_bind
  intro c
  -- what follows the address type
  have hend : ∀ addrtype : AddrType,
      Scans Q (fun c : ConnectionInformation => c.nettype.Scanned Q) (do
        modify (Scanner.advanceN 3)
        handleWs
        let conectionAddress ← ipAddr "Invalid Connection Address: " (← readLine)
        handleWs
        return ⟨nettype, addrtype, conectionAddress⟩) := by
    intro addrtype
    apply Yields.bind (scans_advanceN 3)
    intro _ _
    apply Yields.bind scans_handleWs
    intro _ _
    apply Yields.bind scans_readLine
    intro address _
    apply Yields.bind (scans_ipAddr _ _)
    intro ip _
    apply Yields.bind scans_handleWs
    intro _ _
    exact Yields.pure hnettype
  dsimp only
  split
  · exact hend _
  · exact Yields.bind (P := fun _ => True) (scans_fail _) fun _ _ => hend _

/-- The rest of a media description, behind its type. -/
theorem scans_mediaRest {mediaType : MediaType} (hmediaType : mediaType ≠ .application) :
    Scans Q MediaDescription.Scanned (do
      handleWs
      let port ← ofScan Scan.scanU16
      handleWs
      let proto ←
        match sdpTransport (← modifyGet (Scanner.scanWhile fun b => !isSpace b)) with
        | some proto => pure proto
        | none => fail (.parseSdpError .sdpUnknowTransport)
      let mediaFormats ← parseElements readToken
      return { mediaType := mediaType, port := port, proto := proto,
               mediaFormats := mediaFormats }) := by
  apply Yields.bind scans_handleWs
  intro _ _
  apply Yields.bind scans_scanU16
  intro port _
  apply Yields.bind scans_handleWs
  intro _ _
  apply Yields.bind (scans_scanWhile _)
  intro bytes _
  have hformats : ∀ proto : SdpTransport, Scans Q MediaDescription.Scanned (do
      let mediaFormats ← parseElements readToken
      return { mediaType := mediaType, port := port, proto := proto,
               mediaFormats := mediaFormats }) := by
    intro proto
    apply Yields.bind (scans_parseElements scans_readToken)
    intro formats hformats
    exact Yields.pure ⟨hmediaType, hformats, rfl⟩
  dsimp only
  split
  · exact hformats _
  · exact Yields.bind (P := fun _ => True) (scans_fail _) fun _ _ => hformats _

/-- A media line gives a media description without the lines of its section. -/
theorem scans_parseMediaDescription : Scans Q MediaDescription.Scanned parseMediaDescription := by
  apply Yields.bind scans_readToken
  intro name _
  dsimp only
  split
  · rename_i mediaType hname
    apply scans_mediaRest
    rintro rfl
    unfold SdpParser.mediaType at hname
    split at hname <;> cases hname
  · exact Yields.bind (P := fun m => m ≠ .application) (scans_fail _) fun _ hm => scans_mediaRest hm

/-- A `t` line gives a time without repeat times, which come on lines of their own. -/
theorem scans_parseTime : Scans Q (fun t : TimeDescription => t.repeatTimes = []) parseTime := by
  apply Yields.bind scans_scanU64
  intro startTime _
  apply Yields.bind (scans_ofScan (scans_mustRead _))
  intro _ _
  apply Yields.bind scans_scanU64
  intro stopTime _
  exact Yields.pure rfl

/-- The numbers of an `r` line are not negative. -/
theorem scans_parseRepeatTimes : Scans Q RepeatTimes.WellFormed parseRepeatTimes := by
  apply Yields.bind scans_scanI64
  intro repeatInterval hinterval
  apply Yields.bind scans_handleWs
  intro _ _
  apply Yields.bind scans_scanI64
  intro activeDuration hduration
  apply Yields.bind (scans_parseElements scans_scanI64)
  intro offsets hoffsets
  exact Yields.pure ⟨hinterval, hduration, hoffsets⟩

/-- The version stays in the buffer. -/
theorem scans_parseVersion : Scans Q (fun _ => True) parseVersion := by
  intro c a c' hc h
  have hrun := (tryCatch_eq_ok_iff (E := fun _ => True) fun _ _ => ⟨_, rfl, trivial⟩).mp h
  exact scans_ofScan (scans_mustRead _) _ _ _ hc hrun

/-- **What a line says has been read.** -/
theorem scans_parseValue (field : SdpField) : Scans Q (SdpLine.Scanned Q) (parseValue field) := by
  unfold parseValue
  apply Yields.ite
  · exact scans_parseAttribute.map fun _ h => h
  apply Yields.ite
  · exact scans_parseVersion.bind fun _ _ => Yields.pure (P := SdpLine.Scanned Q) trivial
  apply Yields.ite
  · exact scans_parseOrigin.map fun _ h => h
  apply Yields.ite
  · exact scans_readLine.map fun _ h => h
  apply Yields.ite
  · exact scans_parseConnectionInfo.map fun _ h => h
  apply Yields.ite
  · exact scans_readLine.map fun _ h => h
  apply Yields.ite
  · exact scans_readLine.map fun _ h => h
  apply Yields.ite
  · exact scans_readLine.map fun _ h => h
  apply Yields.ite
  · exact scans_readLine.map fun _ h => h
  apply Yields.ite
  · -- a bandwidth is never read
    intro c line c' _ h
    obtain ⟨e, c₁, he⟩ := (fails_parseBandwidth _).map (f := SdpLine.bandwidth) c rfl
    rw [he] at h
    cases h
  apply Yields.ite
  · exact scans_parseTime.map fun _ h => h
  apply Yields.ite
  · exact scans_parseRepeatTimes.map fun _ h => h
  apply Yields.ite
  · exact Yields.pure (P := SdpLine.Scanned Q) trivial
  apply Yields.ite
  · exact scans_parseMediaDescription.map fun _ h => h
  · exact Yields.pure (P := SdpLine.Scanned Q) trivial

end SdpParser

end Rssip.Media
