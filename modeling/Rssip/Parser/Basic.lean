import Rssip.Error
import Rssip.Message.Headers

namespace Rssip

open Lib

/-!
# The SIP parser: primitives

What the parsers of this crate are made of.  A `Parse` is a computation on a scanner that
ends in a `Failure` when it gives no value.

* the lookup tables the parsers scan with;
* the scans of `SipParser`, each with one `reads_…` lemma that says what it consumes;
* `param_ref_unchecked` and the loops of `macros.rs`: parameters after semicolons, elements
  between commas.
-/

/-- A computation on the scanner of a `SipParser`. -/
abbrev Parse := EStateM Failure Scanner

/-! ### Lookup tables -/

namespace Tables

/-- Letters and digits, which may stand in all parts of a message. -/
def alphanumeric : String := "abcdefghijklmnopqrstuvwxyzABCDEFGHIJKLMNOPQRSTUVWXYZ0123456789"

/-- What may stand in a URI besides letters and digits. -/
def unreserved : String := "-_.!~*'()%"

/-- The start of an escaped byte.  The two digits behind it are not looked at. -/
def escaped : String := "%"

/-- What may stand in the name of a user besides. -/
def userUnreserved : String := "&=+$,;?/"

/-- What may stand in a token besides letters and digits. -/
def token : String := "-.!%*_`'~+"

/-- What may stand in a password besides. -/
def pass : String := "&=+$,"

/-- What may stand in a host name besides letters and digits. -/
def host : String := "_-."

end Tables

open Tables in
/-- A byte of a token. -/
def isToken : LookupTable := lookupTable [alphanumeric, token]

open Tables in
/-- A byte of the name of a user. -/
def isUser : LookupTable := lookupTable [alphanumeric, unreserved, userUnreserved, escaped]

open Tables in
/-- A byte of a password. -/
def isPass : LookupTable := lookupTable [alphanumeric, unreserved, escaped, pass]

open Tables in
/-- A byte of a host name or of an IPv4 address. -/
def isHost : LookupTable := lookupTable [alphanumeric, host]

open Tables in
/-- A byte of the name or the value of a URI parameter. -/
def isParam : LookupTable := lookupTable ["[]/:&+$", alphanumeric, unreserved, escaped]

open Tables in
/-- A byte of the name or the value of a header in a URI. -/
def isHdrUri : LookupTable := lookupTable ["[]/?:+$", alphanumeric, unreserved, escaped]

open Tables in
/-- A byte of the name or the value of a parameter of `Via`. -/
def isViaParam : LookupTable := lookupTable ["[:]", alphanumeric, token]

/-! ### Scans -/

namespace SipParser

/-- A parse error at the position reached. -/
def error {α : Type} (kind : ParseErrorKind) : Parse α := do
  let s ← get
  throw (.error (.parse ⟨kind, s.position⟩))

/-- A scan as a parse, `map_err(ParseError::from)`. -/
def ofScan {α : Type} (scan : Scan α) : Parse α := fun s =>
  match scan s with
  | .ok a s => .ok a s
  | .error e s => .error (.error (.parse (ParseError.ofScanner e))) s

/-- A parse whose failure is replaced, `or_else(|_| self.error(kind))`. -/
def orError {α : Type} (parse : Parse α) (kind : ParseErrorKind) : Parse α :=
  tryCatch parse fun _ => error kind

/-- A value that may be missing, `or_else(|_| self.error(kind))`. -/
def ofOption {α : Type} (kind : ParseErrorKind) : Option α → Parse α
  | some a => return a
  | none => error kind

/-- `str::from_utf8`. -/
def utf8 (bytes : Bytes) : Parse String :=
  match fromUtf8 bytes with
  | some str => return str
  | none => throw (.error .utf8)

/-- The next byte, which stays. -/
def peek : Parse (Option UInt8) := do
  return (← get).peek

/-- The bytes as long as the condition holds; there may be none. -/
def consumeWhile (predicate : UInt8 → Bool) : Parse Bytes :=
  modifyGet (Scanner.scanWhile predicate)

/-- The same as text, without a look at whether it is UTF-8. -/
def readWhileAsStrUnchecked (predicate : UInt8 → Bool) : Parse String :=
  modifyGet (Scanner.scanWhileAsStrUnchecked predicate)

/-- The name of a user, which may be empty. -/
def readUser : Parse String := readWhileAsStrUnchecked isUser

/-- A password, which may be empty. -/
def readPass : Parse String := readWhileAsStrUnchecked isPass

/-- A host name, which may be empty. -/
def readHost : Parse String := readWhileAsStrUnchecked isHost

/-- A token, which may be empty. -/
def readToken : Parse String := readWhileAsStrUnchecked isToken

/-- The rest of the line as text, an error if it is no UTF-8. -/
def readLine : Parse String := ofScan Scan.scanLine

/-- The next byte, whatever it is. -/
def advance : Parse UInt8 := ofScan Scan.nextByte

/-- A number of 32 bits, an error if there are no digits or too many. -/
def parseU32 : Parse UInt32 := ofScan Scan.scanU32

/-- The byte has to come next. -/
def mustRead (byte : UInt8) : Parse Unit := ofScan (Scan.mustRead byte)

/-- One line end: a carriage return, a line feed or both. -/
def scanNewline : Parse Unit := ofScan Scan.scanNewline

/-- All blanks that come are passed over. -/
def skipWs : Parse Unit := do
  let _ ← consumeWhile isSpace

/-- All line ends that come are passed over, also those of empty lines. -/
def skipNewline : Parse Unit := do
  let _ ← consumeWhile isNewline

/-- The letters that come; there may be none. -/
def takeAlphabetic : Parse Bytes := consumeWhile isAsciiAlphabetic

/-- The bytes in front of the next one that is equal, or all that are left. -/
def takeUntil (byte : UInt8) : Parse Bytes := modifyGet (Scanner.scanUntil byte)

/-- The byte, if it comes next. -/
def takeIfEq (byte : UInt8) : Parse (Option UInt8) := modifyGet (Scanner.scanIfEq byte)

/-- The version has to come next; what stands behind it is left. -/
def parseSipVersion : Parse Unit := orError (ofScan (Scan.mustScanSlice (asBytes sipV2))) .version

/-! ### Tokens and parameters -/

/-- What stands between the quote just read and the next one. -/
def quoted : Parse String := do
  let value ← consumeWhile (· != 34)
  let _ ← advance
  utf8 value

/-- A token or a quoted string. -/
def token : Parse String := do
  if (← takeIfEq 34).isSome then quoted
  else readToken

/-- A name over `func`, alone or with a value over `func` or in quotes. -/
def paramRefUnchecked (func : LookupTable) : Parse Param := do
  skipWs
  let name ← readWhileAsStrUnchecked func
  if (← takeIfEq 61).isNone then return ⟨name, none⟩
  if (← takeIfEq 34).isSome then return ⟨name, some (← quoted)⟩
  return ⟨name, some (← readWhileAsStrUnchecked func)⟩

/-- A parameter of a header. -/
def paramRef : Parse Param := paramRefUnchecked isToken

/-- A header in a URI. -/
def parseUriHeader : Parse Param := paramRefUnchecked isHdrUri

/-- A parameter of a URI. -/
def parseUriParam : Parse Param := paramRefUnchecked isParam

/-- A parameter of `Via`. -/
def viaParam : Parse Param := paramRefUnchecked isViaParam

/-- The loop of `parse_params!`: parameters read by `ref`, each after a semicolon.  The
    block of the macro is `store`, which keeps a parameter in `a` or gives it back as a
    generic one. -/
def parseParamsWith {α : Type} (ref : Parse Param) (store : α → Param → Parse (α × Option Param))
    (a : α) : Parse (α × Params) := do
  skipWs
  loop .stuck (fun (a, params) => do
    if (← takeIfEq 59).isNone then return .inr (a, ⟨params⟩)
    let (a, param) ← store a (← ref)
    skipWs
    return .inl (a, params ++ param.toList)) (a, [])

/-- `parse_params!` without a block. -/
def parseParams : Parse Params :=
  Prod.snd <$> parseParamsWith paramRef (fun _ param => return ((), some param)) ()

/-- A loop that reads elements on top of `a` as long as `sep` follows. -/
def foldSep {α : Type} (sep : UInt8) (elem : α → Parse α) (a : α) : Parse α :=
  loop .stuck (fun a => do
    let a ← elem a
    if (← takeIfEq sep).isNone then return .inr a
    return .inl a) a

/-- A loop that collects elements as long as `sep` follows. -/
def collectSep {α : Type} (sep : UInt8) (elem : Parse α) : Parse (List α) :=
  foldSep sep (fun elems => (elems ++ [·]) <$> elem) []

/-- The loop of `collect_elems_separated_by_comma!`. -/
def collectElemsSeparatedByComma {α : Type} (elem : Parse α) : Parse (List α) :=
  collectSep 44 do
    skipWs
    elem

/-! ### What the scans read -/

/-- Every byte of the text is in the table. -/
def Over (tab : LookupTable) (s : String) : Prop := ∀ b ∈ asBytes s, tab b

instance (tab : LookupTable) (s : String) : Decidable (Over tab s) :=
  inferInstanceAs (Decidable (∀ b ∈ asBytes s, tab b))

/-- A byte outside the table does not occur in a text over it. -/
theorem Over.not_mem {tab : LookupTable} {s : String} {b : UInt8} (h : Over tab s)
    (hb : tab b = false) : b ∉ asBytes s := by
  intro hmem
  have htab := h b hmem
  rw [hb] at htab
  exact Bool.noConfusion htab

variable {rest text ws : Bytes} {b : UInt8} {s : String}

/-- What the scanner reads, the parser reads: only failures are translated. -/
theorem reads_ofScan {α : Type} {scan : Scan α} {a : α} (h : Reads scan text rest a) :
    Reads (ofScan scan) text rest a := by
  intro c hc
  rw [ofScan, h c hc]

/-- To look at the next byte reads nothing, and shows nothing at the end. -/
theorem reads_peek : Reads peek [] rest rest.head? := by
  intro c hc
  show EStateM.Result.ok c.peek c = _
  rw [Scanner.peek_eq_head?, show c.remaining = rest from hc]
  rfl

/-- To take the next byte reads that byte. -/
theorem reads_advance : Reads advance [b] rest b := reads_ofScan Scan.reads_nextByte

/-- A byte that has to come is read where it comes. -/
theorem reads_mustRead : Reads (mustRead b) [b] rest () := reads_ofScan Scan.reads_mustRead

/-- A line ends with a carriage return and a line feed. -/
theorem reads_scanNewline : Reads scanNewline [13, 10] rest () := by
  apply reads_ofScan
  apply Reads.bind (reads_scanIfEq_some (b := 13))
  apply Reads.bind_nil reads_scanIfEq_some
  exact Reads.pure _ _

/-- A stretch under the condition is read up to the first byte that does not meet it. -/
theorem reads_consumeWhile {predicate : UInt8 → Bool} (htext : ∀ b ∈ text, predicate b)
    (hrest : Stops predicate rest) : Reads (consumeWhile predicate) text rest text :=
  reads_scanWhile htext hrest

/-- A text over the table is read up to the first byte outside the table. -/
theorem reads_readWhile {tab : LookupTable} (hs : Over tab s) (hrest : Stops tab rest) :
    Reads (readWhileAsStrUnchecked tab) (asBytes s) rest s :=
  reads_scanWhileAsStrUnchecked hs hrest

/-- A byte that may come is taken where it comes. -/
theorem reads_takeIfEq_some : Reads (takeIfEq b) [b] rest (some b) := reads_scanIfEq_some

/-- A byte that may come is not taken where another one comes, and nothing is read. -/
theorem reads_takeIfEq_none (hrest : Stops (· == b) rest) : Reads (takeIfEq b) [] rest none :=
  reads_scanIfEq_none hrest

/-- Blanks are passed over up to the first byte that is none. -/
theorem reads_skipWs (hws : ∀ b ∈ ws, isSpace b) (hrest : Stops isSpace rest) :
    Reads skipWs ws rest () :=
  Reads.bind_nil (reads_consumeWhile hws hrest) (Reads.pure _ _)

/-- Where no blank comes, nothing is passed over. -/
theorem reads_skipWs_nil (hrest : Stops isSpace rest) : Reads skipWs [] rest () :=
  reads_skipWs (by simp) hrest

/-- Line ends are passed over up to the first byte that is none. -/
theorem reads_skipNewline (htext : ∀ b ∈ text, isNewline b) (hrest : Stops isNewline rest) :
    Reads skipNewline text rest () :=
  Reads.bind_nil (reads_consumeWhile htext hrest) (Reads.pure _ _)

/-- The bytes of a text are UTF-8, and decode to the text. -/
theorem reads_utf8 : Reads (utf8 (asBytes s)) [] rest s := by
  rw [utf8, fromUtf8_asBytes]
  exact Reads.pure _ _

/-- A line is read up to its end. -/
theorem reads_readLine (hs : ∀ b ∈ asBytes s, isNewline b = false) :
    Reads readLine (asBytes s) (13 :: rest) s :=
  reads_ofScan (Scan.reads_scanLine hs)

/-- Compared byte by byte with itself, a text that is expected is read. -/
theorem reads_mustScanPairs (expected : Bytes) :
    Reads (Scan.mustScanPairs ((expected ++ rest).zip expected)) expected rest () := by
  induction expected with
  | nil =>
    rw [List.zip_nil_right]
    exact Reads.pure _ _
  | cons b expected ih =>
    intro c hc
    have hnext := ih (c.bump b) (Scanner.remaining_bump (show c.remaining = _ from hc))
    simp only [List.cons_append, List.zip_cons_cons, Scan.mustScanPairs]
    rw [if_neg (not_not_intro rfl)]
    exact hnext

/-- A text that has to come is read where it comes. -/
theorem reads_mustScanSlice (expected : Bytes) :
    Reads (Scan.mustScanSlice expected) expected rest () := by
  apply Reads.get_bind
  intro c hc
  rw [show c.remaining = expected ++ rest from hc]
  exact reads_mustScanPairs expected

/-- The version that is printed is the one that has to come. -/
theorem reads_parseSipVersion : Reads parseSipVersion (asBytes sipV2) rest () :=
  Reads.tryCatch (reads_ofScan (reads_mustScanSlice _))

/-- A number of 32 bits is read back from its digits. -/
theorem reads_parseU32 {n : UInt32} (hrest : Stops isAsciiDigit rest) :
    Reads parseU32 (asBytes (decimal n.toNat)) rest n :=
  reads_ofScan (Scan.reads_scanU32 hrest)

/-- A number of 16 bits is read back from its digits. -/
theorem reads_scanU16 {n : UInt16} (hrest : Stops isAsciiDigit rest) :
    Reads (ofScan Scan.scanU16) (asBytes (decimal n.toNat)) rest n :=
  reads_ofScan (Scan.reads_scanU16 hrest)

/-! ### What tokens and parameters read -/

/-- Where no byte of the table meets the condition, a text over the table does not start with one
    that does; an empty text leaves it to what follows. -/
theorem Over.stops {tab : LookupTable} {predicate : UInt8 → Bool} (h : Over tab s)
    (htab : ∀ b, tab b → predicate b = false) (hrest : asBytes s = [] → Stops predicate rest) :
    Stops predicate (asBytes s ++ rest) := by
  apply stops_append _ hrest
  intro hne
  cases htext : asBytes s with
  | nil => exact absurd htext hne
  | cons b text =>
    have hb : tab b := h b (by simp [htext])
    exact stops_cons.mpr (htab b hb)

/-- Quotes end a quoted text. -/
theorem reads_quoted (hs : 34 ∉ asBytes s) : Reads quoted (asBytes s ++ [34]) rest s := by
  have htext : ∀ b ∈ asBytes s, (b != 34) = true := by
    intro b hb
    have hne : b ≠ 34 := ne_of_mem_of_not_mem hb hs
    simpa using hne
  apply Reads.bind (reads_consumeWhile htext (by simp))
  apply Reads.bind_nil reads_advance
  exact reads_utf8

/-- A token is read back if nothing behind it continues it and no quote stands in front. -/
theorem reads_token (hs : Over isToken s) (hquote : Stops (· == 34) (asBytes s ++ rest))
    (hrest : Stops isToken rest) : Reads token (asBytes s) rest s := by
  apply Reads.nil_bind (reads_takeIfEq_none hquote)
  exact reads_readWhile hs hrest

/-- The bytes that separate parameters from each other and from what is around them. -/
def delimiters : Bytes := asBytes " \t\r\n\"=;@<>,"

/-- A table that parameters are scanned with: it has none of the delimiters. -/
def ParamTable (tab : LookupTable) : Prop := ∀ b ∈ delimiters, tab b = false

instance (tab : LookupTable) : Decidable (ParamTable tab) :=
  inferInstanceAs (Decidable (∀ b ∈ delimiters, tab b = false))

/-- The delimiters of parameters cannot stand in a token. -/
theorem isToken_table : ParamTable isToken := by decide

/-- The delimiters of parameters cannot stand in a URI parameter. -/
theorem isParam_table : ParamTable isParam := by decide

/-- The delimiters of parameters cannot stand in a header of a URI. -/
theorem isHdrUri_table : ParamTable isHdrUri := by decide

/-- The delimiters of parameters cannot stand in a parameter of `Via`. -/
theorem isViaParam_table : ParamTable isViaParam := by decide

/-- What would continue a parameter over `tab`. -/
def inParam (tab : LookupTable) (b : UInt8) : Bool := tab b || b == 61 || b == 34

/-- What does not continue a parameter does not continue its name, has no equals sign and no quote
    in front. -/
theorem stops_of_inParam {tab : LookupTable} (h : Stops (inParam tab) rest) :
    Stops tab rest ∧ Stops (· == 61) rest ∧ Stops (· == 34) rest := by
  cases rest with
  | nil => simp
  | cons b rest =>
    simp only [stops_cons, inParam, Bool.or_eq_false_iff] at h ⊢
    exact ⟨h.1.1, h.1.2, h.2⟩

/-- A delimiter other than `=` and a quote ends a parameter. -/
theorem ParamTable.inParam_eq_false {tab : LookupTable} (htab : ParamTable tab)
    (hb : b ∈ delimiters) (hne : b ≠ 61) (hquote : b ≠ 34) : inParam tab b = false := by
  simp [inParam, htab b hb, hne, hquote]

/-- A table without blanks. -/
theorem isSpace_eq_false {tab : UInt8 → Bool} (h32 : tab 32 = false) (h9 : tab 9 = false)
    (hb : tab b) : isSpace b = false := by
  by_cases hspace : isSpace b
  · rcases (by simpa [isSpace] using hspace : b = 32 ∨ b = 9) with rfl | rfl
    · exact absurd hb (by simp [h32])
    · exact absurd hb (by simp [h9])
  · simpa using hspace

/-- A blank is a delimiter, so no byte of the table is one. -/
theorem ParamTable.isSpace_eq_false {tab : LookupTable} (htab : ParamTable tab) :
    ∀ b, tab b → isSpace b = false :=
  fun _ => SipParser.isSpace_eq_false (htab 32 (by decide)) (htab 9 (by decide))

/-- A byte that is not in the table does not start a text over it. -/
theorem Over.stops_eq {tab : LookupTable} (h : Over tab s) (hb : tab b = false)
    (hrest : Stops (· == b) rest) : Stops (· == b) (asBytes s ++ rest) := by
  apply h.stops _ fun _ => hrest
  intro c hc
  by_cases hcb : c = b
  · rw [hcb, hb] at hc
    exact Bool.noConfusion hc
  · simpa using hcb

end SipParser

/-- A parameter as it stands in a list, without its separator. -/
def Param.refText (p : Param) : String := p.name ++ p.value.elim "" fun v => "=" ++ v

/-- Name and value of the parameter are over `tab`. -/
def Param.Over (tab : LookupTable) (p : Param) : Prop :=
  SipParser.Over tab p.name ∧ ∀ v ∈ p.value, SipParser.Over tab v

/-- A parameter is printed as a semicolon and its text in a list. -/
theorem Param.toText_eq (p : Param) : p.toText = ";" ++ p.refText := by
  rw [Param.toText, Param.refText, String.append_assoc]

/-- A list is printed as its parameters, each behind a semicolon. -/
theorem Params.asBytes_toText (ps : Params) :
    asBytes ps.toText = ps.inner.flatMap fun p => 59 :: asBytes p.refText := by
  rw [Params.toText]
  induction ps.inner with
  | nil => rw [List.foldr_nil, asBytes_empty, List.flatMap_nil]
  | cons p ps ih =>
    rw [List.foldr_cons, asBytes_append, ih, Param.toText_eq, asBytes_append, List.flatMap_cons,
      show asBytes ";" = [59] by decide]
    simp

namespace SipParser

variable {rest text ws : Bytes} {b : UInt8} {s : String} {tab : LookupTable}

/-- A parameter may start without blanks when it does not start with one itself. -/
theorem stops_isSpace_refText {p : Param} (htab : ParamTable tab) (hp : p.Over tab)
    (hrest : asBytes p.refText = [] → Stops isSpace rest) :
    Stops isSpace (asBytes p.refText ++ rest) := by
  obtain ⟨hname, -⟩ := hp
  obtain ⟨name, value⟩ := p
  rw [Param.refText, asBytes_append, List.append_assoc] at *
  apply hname.stops htab.isSpace_eq_false
  intro hnil
  rw [hnil] at hrest
  cases value with
  | none => simpa using hrest
  | some v =>
    rw [Option.elim_some, asBytes_append, show asBytes "=" = [61] by decide]
    exact stops_cons.mpr (by decide)

/-- **A parameter is read back**, with the blanks before it. -/
theorem reads_paramRef {p : Param} (htab : ParamTable tab) (hp : p.Over tab)
    (hws : ∀ b ∈ ws, isSpace b) (hstart : Stops isSpace (asBytes p.refText ++ rest))
    (hrest : Stops (inParam tab) rest) :
    Reads (paramRefUnchecked tab) (ws ++ asBytes p.refText) rest p := by
  obtain ⟨hname, hvalue⟩ := hp
  obtain ⟨hstop, heq, hquote⟩ := stops_of_inParam hrest
  obtain ⟨name, value⟩ := p
  apply Reads.bind (reads_skipWs hws hstart)
  cases value with
  | none =>
    simp only [Param.refText, Option.elim_none, String.append_empty]
    apply Reads.bind_nil (reads_readWhile hname hstop)
    apply Reads.bind_nil (reads_takeIfEq_none heq)
    exact Reads.pure _ _
  | some v =>
    have hv : Over tab v := hvalue v rfl
    have h61 : tab 61 = false := htab 61 (by decide)
    have h34 : tab 34 = false := htab 34 (by decide)
    have hquote' : Stops (· == 34) (asBytes v ++ rest) := hv.stops_eq h34 hquote
    simp only [Param.refText, Option.elim_some, asBytes_append]
    apply Reads.bind (reads_readWhile hname (stops_cons.mpr h61))
    apply Reads.bind (reads_takeIfEq_some (b := 61))
    apply Reads.nil_bind (reads_takeIfEq_none hquote')
    apply Reads.bind_nil (reads_readWhile hv hstop)
    exact Reads.pure _ _

/-- A parameter is read back from its text where no blank stands in front of it. -/
theorem reads_paramRef_nil {p : Param} (htab : ParamTable tab) (hp : p.Over tab)
    (hstart : Stops isSpace (asBytes p.refText ++ rest)) (hrest : Stops (inParam tab) rest) :
    Reads (paramRefUnchecked tab) (asBytes p.refText) rest p :=
  reads_paramRef htab hp (List.forall_mem_nil _) hstart hrest

/-! ### What the loops read -/

/-- `store` keeps the parameters `ps` in `a`, which makes it `b`, and gives back `qs`. -/
inductive Stores {α : Type} (store : α → Param → Parse (α × Option Param)) :
    α → List Param → α → List Param → Prop
  | nil (a) : Stores store a [] a []
  | cons {a p a' q ps b qs} (h : ∀ rest, Reads (store a p) [] rest (a', q))
      (t : Stores store a' ps b qs) : Stores store a (p :: ps) b (q.toList ++ qs)

namespace Stores

variable {α : Type} {store : α → Param → Parse (α × Option Param)} {a a' a'' : α}
  {ps ps' qs qs' : List Param}

/-- Two lists of parameters are stored one after the other, and what is given back of them is
    appended. -/
theorem append (h : Stores store a ps a' qs) (h' : Stores store a' ps' a'' qs') :
    Stores store a (ps ++ ps') a'' (qs ++ qs') := by
  induction h with
  | nil => exact h'
  | cons h _ ih =>
    rw [List.append_assoc]
    exact Stores.cons h (ih h')

/-- Generic parameters are all given back. -/
theorem generic (h : ∀ p ∈ ps, ∀ rest, Reads (store a p) [] rest (a, some p)) :
    Stores store a ps a ps := by
  induction ps with
  | nil => exact Stores.nil a
  | cons p ps ih =>
    exact Stores.cons (q := some p) (h p (by simp)) (ih fun q hq => h q (by simp [hq]))

/-- A parameter that may be missing, with a field of its own that `set` fills. -/
theorem field {β : Type} (o : Option β) (toParam : β → Param) (set : Option β → α)
    (h : ∀ v ∈ o, store (set none) (toParam v) = pure (set (some v), none)) :
    Stores store (set none) (o.map toParam).toList (set o) [] := by
  cases o with
  | none => exact Stores.nil _
  | some v =>
    refine Stores.cons (q := none) ?_ (Stores.nil _)
    intro rest
    rw [h v rfl]
    exact Reads.pure _ _

end Stores

/-- The blanks after a list of parameters are skipped before the list, if it is empty, or
    with the last parameter. -/
def headBlanks (ps : List Param) (ws : Bytes) : Bytes := if ps.isEmpty then ws else []

/-- The blanks that are skipped with the last parameter. -/
def tailBlanks (ps : List Param) (ws : Bytes) : Bytes := if ps.isEmpty then [] else ws

/-- The bytes of a list of parameters. -/
def paramsBytes (ps : List Param) : Bytes := ps.flatMap fun p => 59 :: asBytes p.refText

/-- What is skipped in front of a list of parameters is blanks. -/
theorem isSpace_of_mem_headBlanks {ps : List Param} (hws : ∀ b ∈ ws, isSpace b) :
    ∀ b ∈ headBlanks ps ws, isSpace b := by
  cases ps with
  | nil => exact hws
  | cons p ps => exact fun b hb => absurd hb List.not_mem_nil

/-- Blanks behind a list of parameters are taken up by its first parameter or left to the rest of
    the list. -/
theorem paramsBytes_cons_blanks (p : Param) (ps : List Param) (ws : Bytes) :
    paramsBytes (p :: ps) ++ tailBlanks (p :: ps) ws =
      ([59] ++ (asBytes p.refText ++ headBlanks ps ws)) ++
        (paramsBytes ps ++ tailBlanks ps ws) := by
  cases ps <;> simp [paramsBytes, headBlanks, tailBlanks]

/-- The blanks behind a list, divided between its head and its tail, are the blanks behind it. -/
theorem headBlanks_append (ps : List Param) (ws : Bytes) :
    headBlanks ps ws ++ (paramsBytes ps ++ tailBlanks ps ws) = paramsBytes ps ++ ws := by
  cases ps <;> simp [paramsBytes, headBlanks, tailBlanks]

/-- The rest of a list starts with a semicolon, or is over. -/
theorem stops_paramsBytes {ps : List Param} {predicate : UInt8 → Bool}
    (hsemi : predicate 59 = false) (hrest : Stops predicate rest) :
    Stops predicate (paramsBytes ps ++ tailBlanks ps ws ++ rest) := by
  cases ps with
  | nil => exact hrest
  | cons p ps => exact stops_cons.mpr hsemi

/-- What follows a list of parameters, or the semicolon before the first. -/
theorem stops_params {predicate : UInt8 → Bool} {ps : List Param} (hsemi : predicate 59 = false)
    (hrest : Stops predicate rest) : Stops predicate (paramsBytes ps ++ rest) := by
  cases ps with
  | nil => exact hrest
  | cons p ps => exact stops_cons.mpr hsemi

section Params

variable {α : Type} {store : α → Param → Parse (α × Option Param)} {a b : α} {β : Type}
  {ps qs : List Param}
  (htab : ParamTable tab) (hws : ∀ b ∈ ws, isSpace b) (hspace : Stops isSpace rest)
include htab hws

/-- Blanks continue no parameter; without blanks it is for what follows them not to. -/
theorem stops_inParam_append (hparam : ws = [] → Stops (inParam tab) rest) :
    Stops (inParam tab) (ws ++ rest) := by
  apply stops_append _ hparam
  intro hne
  cases ws with
  | nil => exact absurd rfl hne
  | cons b ws =>
    have hb : b = 32 ∨ b = 9 := by simpa [isSpace] using hws b (by simp)
    apply stops_cons.mpr
    rcases hb with rfl | rfl <;> exact htab.inParam_eq_false (by decide) (by decide) (by decide)

include hspace

/-- One parameter and the blanks after it, whichever of the two skips takes them. -/
theorem reads_paramRef_skipWs {p : Param} {f : α × Option Param → β} {q : α × Option Param}
    (hparam : ws = [] ∨ asBytes p.refText = [] → Stops (inParam tab) rest)
    (hp : p.Over tab) (hstore : ∀ rest, Reads (store a p) [] rest q) :
    Reads (do
      let r ← store a (← paramRefUnchecked tab)
      skipWs
      return f r) (asBytes p.refText ++ ws) rest (f q) := by
  by_cases hnil : asBytes p.refText = []
  · -- no text between the semicolon and the blanks, so that the parameter takes them
    have hstart : Stops isSpace (asBytes p.refText ++ rest) :=
      stops_isSpace_refText htab hp fun _ => hspace
    have href := reads_paramRef htab hp hws hstart (hparam (Or.inr hnil))
    rw [hnil, List.append_nil] at href
    rw [hnil, List.nil_append]
    apply Reads.bind_nil href
    apply Reads.bind_nil (hstore rest)
    apply Reads.bind_nil (reads_skipWs_nil hspace)
    exact Reads.pure _ _
  · have hstart : Stops isSpace (asBytes p.refText ++ (ws ++ rest)) :=
      stops_isSpace_refText htab hp fun h => absurd h hnil
    have hend := stops_inParam_append htab hws fun h => hparam (Or.inl h)
    apply Reads.bind (reads_paramRef_nil htab hp hstart hend)
    apply Reads.nil_bind (hstore _)
    apply Reads.bind_nil (reads_skipWs hws hspace)
    exact Reads.pure _ _

/-- Each turn of the loop reads one parameter and stores it, up to a byte that is no semicolon. The
    induction is on the parameters. -/
theorem iterates_parseParamsWith (hsemi : Stops (· == 59) rest) (h : Stores store a ps b qs)
    (hparam : (ws = [] ∨ ∃ p ∈ ps, asBytes p.refText = []) → Stops (inParam tab) rest)
    (hps : ∀ p ∈ ps, p.Over tab) (params : List Param) :
    Iterates (fun (a, params) => do
      if (← takeIfEq 59).isNone then return .inr (a, ⟨params⟩)
      let (a, param) ← store a (← paramRefUnchecked tab)
      skipWs
      return .inl (a, params ++ param.toList)) rest (a, params)
      (paramsBytes ps ++ tailBlanks ps ws) (b, (⟨params ++ qs⟩ : Params)) := by
  -- on the parameters, with those that were read before in the accumulator
  induction h generalizing params with
  | nil a =>
    apply Iterates.done
    apply Reads.bind_nil (reads_takeIfEq_none hsemi)
    rw [List.append_nil]
    exact Reads.pure _ _
  | @cons a p a' q ps b qs hstore t ih =>
    have hp : p.Over tab := hps p (by simp)
    have h59 : inParam tab 59 = false :=
      htab.inParam_eq_false (by decide) (by decide) (by decide)
    have hparam_tl : (ws = [] ∨ ∃ p ∈ ps, asBytes p.refText = []) → Stops (inParam tab) rest :=
      fun h => hparam (h.imp_right fun ⟨q, hq, hnil⟩ => ⟨q, by simp [hq], hnil⟩)
    have htl := ih hparam_tl (fun q hq => hps q (by simp [hq])) (params ++ q.toList)
    rw [List.append_assoc] at htl
    rw [paramsBytes_cons_blanks]
    refine Iterates.step ?_ (by simp) htl
    apply Reads.bind (reads_takeIfEq_some (b := 59))
    refine reads_paramRef_skipWs htab (isSpace_of_mem_headBlanks hws)
      (stops_paramsBytes (by decide) hspace) ?_ hp hstore
    intro h
    cases ps with
    | nil => exact hparam (h.imp_right fun hnil => ⟨p, by simp, hnil⟩)
    | cons p ps => exact stops_cons.mpr h59

/-- **A list of parameters is read back**, with the blanks after it. -/
theorem reads_parseParamsWith (hsemi : Stops (· == 59) rest) (h : Stores store a ps b qs)
    (hparam : (ws = [] ∨ ∃ p ∈ ps, asBytes p.refText = []) → Stops (inParam tab) rest)
    (hps : ∀ p ∈ ps, p.Over tab) :
    Reads (parseParamsWith (paramRefUnchecked tab) store a) (paramsBytes ps ++ ws) rest
      (b, ⟨qs⟩) := by
  rw [← headBlanks_append]
  apply Reads.bind
  · apply reads_skipWs (isSpace_of_mem_headBlanks hws)
    exact stops_paramsBytes (by decide) hspace
  · apply Reads.loop
    exact iterates_parseParamsWith htab hws hspace hsemi h hparam hps []

end Params

/-- A list of parameters without blanks after it. -/
theorem reads_parseParamsWith_nil {α : Type} {store : α → Param → Parse (α × Option Param)}
    {a b : α} {ps qs : List Param} (htab : ParamTable tab) (h : Stores store a ps b qs)
    (hspace : Stops isSpace rest) (hsemi : Stops (· == 59) rest)
    (hparam : Stops (inParam tab) rest) (hps : ∀ p ∈ ps, p.Over tab) :
    Reads (parseParamsWith (paramRefUnchecked tab) store a) (paramsBytes ps) rest (b, ⟨qs⟩) := by
  rw [← List.append_nil (paramsBytes ps)]
  exact reads_parseParamsWith htab (List.forall_mem_nil _) hspace hsemi h (fun _ => hparam) hps

section Elems

variable {α : Type} {sep : UInt8} {elem : Parse α}

/-- Texts with one byte between them. -/
def joinSep (sep : UInt8) : List Bytes → Bytes
  | [] => []
  | [t] => t
  | t :: ts => t ++ (sep :: joinSep sep ts)

/-- What follows an element of a list: the separator, or what follows the list. -/
def ElemEnd (sep : UInt8) (rest next : Bytes) : Prop := next.head? = some sep ∨ next = rest

/-- What follows an element does not start with `predicate` if neither the separator nor the end of
    the list does. -/
theorem ElemEnd.stops {rest next : Bytes} {predicate : UInt8 → Bool}
    (h : ElemEnd sep rest next) (hsep : predicate sep = false) (hrest : Stops predicate rest) :
    Stops predicate next := by
  rcases h with h | rfl
  · intro b hb
    rw [h, Option.mem_some_iff] at hb
    rw [← hb, hsep]
  · exact hrest

/-- Each turn of the loop reads one element and the separator behind it, the last one no separator.
    The induction is on the elements. -/
theorem iterates_foldSep {β : Type} {elem : α → Parse α} {step : α → β → α}
    (hrest : Stops (· == sep) rest) (a : α) :
    ∀ ts : List (Bytes × β), ts ≠ [] →
      (∀ a, ∀ t ∈ ts, ∀ next, ElemEnd sep rest next → Reads (elem a) t.1 next (step a t.2)) →
      Iterates (fun a => do
        let a ← elem a
        if (← takeIfEq sep).isNone then return .inr a
        return .inl a) rest a (joinSep sep (ts.map Prod.fst)) ((ts.map Prod.snd).foldl step a) := by
  intro ts hne helem
  -- on the elements, with what was made of those before in the accumulator
  induction ts generalizing a with
  | nil => exact absurd rfl hne
  | cons t ts ih =>
    have ht : ∀ next, ElemEnd sep rest next → Reads (elem a) t.1 next (step a t.2) :=
      helem a t (by simp)
    cases ts with
    | nil =>
      apply Iterates.done
      apply Reads.bind_nil (ht rest (.inr rfl))
      apply Reads.bind_nil (reads_takeIfEq_none hrest)
      exact Reads.pure _ _
    | cons u ts =>
      have htl := ih (step a t.2) (by simp) fun a v hv => helem a v (List.mem_cons_of_mem _ hv)
      show Iterates _ rest a (t.1 ++ ([sep] ++ joinSep sep ((u :: ts).map Prod.fst))) _
      rw [← List.append_assoc]
      refine Iterates.step ?_ (by simp) htl
      apply Reads.bind (ht _ (.inl rfl))
      apply Reads.bind_nil reads_takeIfEq_some
      exact Reads.pure _ _

/-- **Elements are read one on top of the other** when each is, in front of a separator or of what
    follows the last one. -/
theorem reads_foldSep {β : Type} {elem : α → Parse α} {step : α → β → α}
    (hrest : Stops (· == sep) rest) (a : α) (ts : List (Bytes × β)) (hne : ts ≠ [])
    (helem : ∀ a, ∀ t ∈ ts, ∀ next, ElemEnd sep rest next → Reads (elem a) t.1 next (step a t.2)) :
    Reads (foldSep sep elem a) (joinSep sep (ts.map Prod.fst)) rest
      ((ts.map Prod.snd).foldl step a) :=
  Reads.loop (iterates_foldSep hrest a ts hne helem)

/-- To add elements one by one at the end of a list appends them. -/
theorem foldl_concat (as : List α) (acc : List α) :
    as.foldl (fun elems a => elems ++ [a]) acc = acc ++ as := by
  induction as generalizing acc with
  | nil => rw [List.foldl_nil, List.append_nil]
  | cons a as ih => rw [List.foldl_cons, ih, List.append_assoc, List.singleton_append]

/-- **A list of elements is read back** when each is. -/
theorem reads_collectSep (hrest : Stops (· == sep) rest) (ts : List (Bytes × α)) (hne : ts ≠ [])
    (helem : ∀ t ∈ ts, ∀ next, ElemEnd sep rest next → Reads elem t.1 next t.2) :
    Reads (collectSep sep elem) (joinSep sep (ts.map Prod.fst)) rest (ts.map Prod.snd) := by
  have hread : Reads (collectSep sep elem) (joinSep sep (ts.map Prod.fst)) rest
      ((ts.map Prod.snd).foldl (fun elems a => elems ++ [a]) []) := by
    apply reads_foldSep hrest [] ts hne
    exact fun elems t ht next hnext => (helem t ht next hnext).map
  rwa [foldl_concat, List.nil_append] at hread

/-- A list of one element. -/
theorem reads_collectSep_one {a : α} (hrest : Stops (· == sep) rest) (h : Reads elem text rest a) :
    Reads (collectSep sep elem) text rest [a] := by
  apply Reads.loop
  apply Iterates.done
  apply Reads.bind_nil h.map
  apply Reads.bind_nil (reads_takeIfEq_none hrest)
  exact Reads.pure _ _

end Elems

end SipParser

end Rssip
