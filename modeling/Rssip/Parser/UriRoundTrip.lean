import Rssip.Parser.Uri

namespace Rssip

open Lib

/-!
# URIs are read back as they are printed

What the parsers of `Rssip.Parser.Uri` make of a printed URI.

* `Host.WellFormed`, `Uri.WellFormed`, … — the values whose text can be read back: every
  field over the table its parser scans it with, no generic parameter with a reserved name;
* `reads_parseHostPort`, `reads_parseUri_bracket`, `reads_parseSipUri` — the text is consumed and the
  value given back, in front of anything that ends it;
* `NoUserPart` — what the look-ahead for an at sign must not find behind a URI without user.
-/

/-! ### Texts over a table -/

namespace SipParser

variable {rest text ws : Bytes} {b : UInt8} {s : String} {tab : LookupTable}

/-- A table with all letters and digits. -/
def Alphanumeric (tab : LookupTable) : Prop := ∀ b ∈ asBytes Tables.alphanumeric, tab b

instance (tab : LookupTable) : Decidable (Alphanumeric tab) :=
  inferInstanceAs (Decidable (∀ b ∈ asBytes Tables.alphanumeric, tab b))

/-- Each table of the parser that lists the alphanumeric slice admits letters and digits. -/
theorem alphanumeric_lookupTable {slices : List String} (h : Tables.alphanumeric ∈ slices) :
    Alphanumeric (lookupTable slices) := by
  intro b hb
  rw [lookupTable, List.any_eq_true]
  exact ⟨_, h, by simpa using hb⟩

/-- The characters of host names include letters and digits. -/
theorem isHost_alphanumeric : Alphanumeric isHost := alphanumeric_lookupTable (by simp)

/-- The characters of tokens include letters and digits. -/
theorem isToken_alphanumeric : Alphanumeric isToken := alphanumeric_lookupTable (by simp)

/-- The characters of URI parameters include letters and digits. -/
theorem isParam_alphanumeric : Alphanumeric isParam := alphanumeric_lookupTable (by simp)

/-- The characters of Via parameters include letters and digits. -/
theorem isViaParam_alphanumeric : Alphanumeric isViaParam := alphanumeric_lookupTable (by simp)

/-- Digits, decimal and hexadecimal, are letters and digits. -/
theorem mem_alphanumeric (h : isDigitOf 16 b ∨ isAsciiDigit b) :
    b ∈ asBytes Tables.alphanumeric := by
  obtain ⟨n, hn, rfl⟩ : ∃ n < 256, b = UInt8.ofNat n := ⟨b.toNat, b.toNat_lt, by simp⟩
  have hall : ∀ n < 256, isDigitOf 16 (UInt8.ofNat n) ∨ isAsciiDigit (UInt8.ofNat n) →
      UInt8.ofNat n ∈ asBytes Tables.alphanumeric := by decide +kernel
  exact hall n hn h

/-- A text of hexadecimal digits and of other admitted characters lies over the table. -/
theorem over_of_isDigitOf (htab : Alphanumeric tab)
    (hs : ∀ b ∈ asBytes s, isDigitOf 16 b ∨ tab b) : Over tab s := by
  intro b hb
  rcases hs b hb with h | h
  · exact htab b (mem_alphanumeric (Or.inl h))
  · exact h

/-- A printed number lies over every table that admits the digits. -/
theorem over_decimal (htab : Alphanumeric tab) (n : Nat) : Over tab (decimal n) :=
  over_of_isDigitOf htab fun _ hb => Or.inl (isDigitOf_of_mem_decimal hb)

/-- A dotted address lies over a table that also admits the point. -/
theorem over_ipv4Addr (htab : Alphanumeric tab) (hdot : tab 46) (ip : Ipv4Addr) :
    Over tab ip.toText := by
  apply over_of_isDigitOf htab
  intro b hb
  apply (Ipv4Addr.mem_toText hb).imp_right
  rintro rfl
  exact hdot

/-- An address of either family lies over a table that admits the point and the colon. -/
theorem over_ipAddr (htab : Alphanumeric tab) (hdot : tab 46) (hcolon : tab 58) (ip : IpAddr) :
    Over tab ip.toText := by
  apply over_of_isDigitOf htab
  intro b hb
  apply (IpAddr.mem_toText hb).imp_right
  rintro (rfl | rfl)
  · exact hdot
  · exact hcolon

end SipParser

open SipParser

/-! ### Hosts -/

/-- A host that can stand in a URI or in a `Via`: an IPv4 address, or a name that is not
    empty and not an IP address. -/
def Host.WellFormed : Host → Prop
  | .hostName name => name ≠ "" ∧ Over isHost name ∧ IpAddr.parse name = none
  | .ipAddr (.v4 _) => True
  | .ipAddr (.v6 _) => False

/-- A host that can be the value of a parameter over `tab`. -/
def Host.WellFormedParam (tab : LookupTable) : Host → Prop
  | .hostName name => Over tab name ∧ IpAddr.parse name = none
  | .ipAddr _ => True

instance : DecidablePred Host.WellFormed
  | .hostName name => inferInstanceAs (Decidable (name ≠ "" ∧ Over isHost name ∧
      IpAddr.parse name = none))
  | .ipAddr (.v4 _) => inferInstanceAs (Decidable True)
  | .ipAddr (.v6 _) => inferInstanceAs (Decidable False)

instance (tab : LookupTable) : DecidablePred (Host.WellFormedParam tab)
  | .hostName name => inferInstanceAs (Decidable (Over tab name ∧ IpAddr.parse name = none))
  | .ipAddr _ => inferInstanceAs (Decidable True)

namespace Host

variable {h : Host} {tab : LookupTable}

/-- A printed address is read back as this address, never as a host name. -/
theorem fromStr_toText_ipAddr (ip : IpAddr) : Host.fromStr (Host.ipAddr ip).toText = .ipAddr ip := by
  rw [Host.fromStr, Host.toText, IpAddr.parse_toText]

/-- What is no address is a host name, as it stands. -/
theorem fromStr_of_parse_eq_none {name : String} (hname : IpAddr.parse name = none) :
    Host.fromStr name = .hostName name := by
  rw [Host.fromStr, hname]

/-- A well-formed host is read back from its text: a name is none that could be taken for an
    address. -/
theorem WellFormed.fromStr_toText (hwf : h.WellFormed) : Host.fromStr h.toText = h := by
  cases h with
  | hostName name => exact fromStr_of_parse_eq_none hwf.2.2
  | ipAddr ip => exact fromStr_toText_ipAddr ip

/-- The same for a host that is the value of a parameter, `maddr` of a URI or a Via. -/
theorem WellFormedParam.fromStr_toText (hwf : h.WellFormedParam tab) :
    Host.fromStr h.toText = h := by
  cases h with
  | hostName name => exact fromStr_of_parse_eq_none hwf.2
  | ipAddr ip => exact fromStr_toText_ipAddr ip

/-- The printed host of a parameter lies over the table of that parameter's values. -/
theorem WellFormedParam.over (htab : Alphanumeric tab) (hdot : tab 46) (hcolon : tab 58)
    (hwf : h.WellFormedParam tab) : Over tab h.toText := by
  cases h with
  | hostName name => exact hwf.1
  | ipAddr ip => exact over_ipAddr htab hdot hcolon ip

/-- The printed host lies over the host table, so that one sweep takes the whole of it. -/
theorem WellFormed.over (hwf : h.WellFormed) : Over isHost h.toText := by
  cases h with
  | hostName name => exact hwf.2.1
  | ipAddr ip =>
    cases ip with
    | v4 ip => exact over_ipv4Addr isHost_alphanumeric (by decide) ip
    | v6 ip => exact absurd hwf id

/-- A well-formed host prints at least one character; an empty name could not be read back. -/
theorem WellFormed.toText_ne_empty (hwf : h.WellFormed) : h.toText ≠ "" := by
  cases h with
  | hostName name => exact hwf.1
  | ipAddr ip =>
    intro hempty
    have hparse := IpAddr.parse_toText ip
    rw [show ip.toText = "" from hempty, show IpAddr.parse "" = none by decide] at hparse
    exact absurd hparse (by simp)

end Host

namespace SipParser

variable {rest text ws : Bytes} {b : UInt8} {s : String} {tab : LookupTable}

/-- What would continue a host and its port. -/
def inHostPort (b : UInt8) : Bool := isHost b || b == 58

/-- A byte of a host or of its port. -/
def inAuthority (b : UInt8) : Bool := inHostPort b || b == 91 || b == 93

/-- What follows a `host:port` continues neither the host nor the port. -/
theorem stops_of_inHostPort (h : Stops inHostPort rest) :
    Stops isHost rest ∧ Stops (· == 58) rest ∧ Stops isAsciiDigit rest := by
  cases rest with
  | nil => simp
  | cons b rest =>
    simp only [stops_cons, inHostPort, Bool.or_eq_false_iff] at h ⊢
    refine ⟨h.1, h.2, ?_⟩
    by_cases hdigit : isAsciiDigit b
    · -- every digit is a host byte
      rw [isHost_alphanumeric b (mem_alphanumeric (Or.inr hdigit))] at h
      exact absurd h.1 (by simp)
    · simpa using hdigit

/-- The host parser reads a printed host back and stops in front of what follows. -/
theorem reads_parseHost {h : Host} (hwf : h.WellFormed) (hrest : Stops isHost rest) :
    Reads parseHost (asBytes h.toText) rest h := by
  have hover := hwf.over
  have hne := hwf.toText_ne_empty
  have hbracket : (asBytes h.toText ++ rest).head? ≠ some 91 := by
    -- the text is not empty, and a bracket is no host byte
    cases htext : asBytes h.toText with
    | nil => exact absurd (asBytes_injective (htext.trans asBytes_empty.symm)) hne
    | cons b text =>
      have hb : isHost b := hover b (by simp [htext])
      rw [List.cons_append, List.head?_cons, Ne, Option.some.injEq]
      rintro rfl
      exact absurd hb (by decide)
  apply Reads.nil_bind reads_peek
  rw [if_neg hbracket]
  apply Reads.bind_nil (reads_readWhile hover hrest)
  rw [if_neg hne, hwf.fromStr_toText]
  exact Reads.pure _ _

/-- The check on ports never refuses one: every 16-bit number passes it. -/
theorem isValidPort_eq_true (port : UInt16) : isValidPort port = true := by
  have hlt := port.toNat_lt
  simp only [isValidPort, decide_eq_true_eq]
  omega

/-- The port parser reads back the port with its colon, or its absence. -/
theorem reads_parsePort (port : Option UInt16) (hrest : Stops inHostPort rest) :
    Reads parsePort (asBytes (port.elim "" fun port => ":" ++ decimal port.toNat)) rest port := by
  obtain ⟨-, hcolon, hdigit⟩ := stops_of_inHostPort hrest
  cases port with
  | none =>
    rw [Option.elim_none, asBytes_empty]
    apply Reads.bind_nil (reads_takeIfEq_none hcolon)
    exact Reads.pure _ _
  | some port =>
    rw [Option.elim_some, asBytes_append, show asBytes ":" = [58] by decide]
    apply Reads.bind (reads_takeIfEq_some (b := 58))
    apply Reads.bind_nil (Reads.tryCatch (reads_scanU16 hdigit))
    rw [if_pos (isValidPort_eq_true port)]
    exact Reads.pure _ _

/-- **A host and its port are read back.** -/
theorem reads_parseHostPort {h : HostPort} (hwf : h.host.WellFormed)
    (hrest : Stops inHostPort rest) : Reads parseHostPort (asBytes h.toText) rest h := by
  obtain ⟨hhost, -, -⟩ := stops_of_inHostPort hrest
  have hcolon : isHost 58 = false := by decide
  rw [HostPort.toText, asBytes_append]
  apply Reads.bind
  · apply reads_parseHost hwf
    apply stops_append _ fun _ => hhost
    intro hne
    cases hport : h.port with
    | none => rw [hport] at hne; exact absurd asBytes_empty hne
    | some port =>
      rw [Option.elim_some, asBytes_append, show asBytes ":" = [58] by decide]
      exact stops_cons.mpr hcolon
  · apply Reads.bind_nil (reads_parsePort _ hrest)
    exact Reads.pure _ _

/-! ### Scheme and user -/

/-- Looking ahead shows the longest stretch of the text that the predicate allows. -/
theorem peekWhile_of_remaining {predicate : UInt8 → Bool} {taken : Bytes} (next : Bytes)
    {c : Scanner}
    (h : c.remaining = taken ++ next) (hall : ∀ b ∈ taken, predicate b)
    (hstop : Stops predicate next) : c.peekWhile predicate = taken := by
  rw [Scanner.peekWhile_eq, h, takeWhile_append_stops hall hstop]

/-- The two schemes and how they are spelled. -/
theorem scheme_bytes (scheme : Scheme) :
    asBytes scheme.toText = sip ∨ asBytes scheme.toText = sips := by
  cases scheme
  · exact Or.inl rfl
  · exact Or.inr rfl

/-- The scheme parser reads back either scheme together with the colon behind it. -/
theorem reads_parseScheme (scheme : Scheme) :
    Reads parseScheme (asBytes scheme.toText ++ [58]) rest scheme := by
  have hover : ∀ b ∈ asBytes scheme.toText, isToken b := by cases scheme <;> decide
  apply Reads.get_bind
  intro c hc
  have htoken : c.peekWhile isToken = asBytes scheme.toText := by
    apply peekWhile_of_remaining ([58] ++ rest) _ hover (stops_cons.mpr (by decide))
    rw [← List.append_assoc]
    exact hc
  rw [htoken]
  have hscheme : schemeOf (asBytes scheme.toText) = pure scheme := by cases scheme <;> rfl
  dsimp only
  rw [hscheme]
  apply Reads.nil_bind (Reads.pure _ _)
  apply Reads.bind (reads_advanceN _)
  apply Reads.bind_nil reads_mustRead
  exact Reads.pure _ _

/-- No at sign comes before the end of the URI. -/
def NoUserPart (rest : Bytes) : Prop := 64 ∉ rest.takeWhile inUri

/-- A text that starts with a character outside URIs announces no user part. -/
theorem noUserPart_of_stop {b : UInt8} (hb : inUri b = false) (bs : Bytes) :
    NoUserPart (b :: bs) := by
  rw [NoUserPart, List.takeWhile_cons_of_neg (by simp [hb])]
  exact List.not_mem_nil

/-- Text without an `@` in front does not change whether a user part is announced. -/
theorem NoUserPart.append (htext : 64 ∉ text) (hrest : NoUserPart rest) :
    NoUserPart (text ++ rest) := by
  induction text with
  | nil => exact hrest
  | cons b text ih =>
    rw [List.mem_cons, not_or] at htext
    by_cases hb : inUri b
    · rw [NoUserPart, List.cons_append, List.takeWhile_cons_of_pos hb, List.mem_cons, not_or]
      exact ⟨htext.1, ih htext.2⟩
    · exact noUserPart_of_stop (by simpa using hb) _

/-- The look-ahead for an `@` consumes nothing and answers by the stretch of URI characters. -/
theorem reads_existsUserPartInUri :
    Reads existsUserPartInUri [] rest ((rest.takeWhile inUri).any (· == 64)) := by
  intro c hc
  show EStateM.Result.ok ((c.remaining.takeWhile inUri).any (· == 64)) c = _
  rw [show c.remaining = rest from hc]
  rfl

end SipParser

/-- A user and a password over the tables they are scanned with. -/
def UserInfo.WellFormed (u : UserInfo) : Prop :=
  Over isUser u.user ∧ ∀ pass ∈ u.pass, Over isPass pass

instance : DecidablePred UserInfo.WellFormed := fun u =>
  inferInstanceAs (Decidable (Over isUser u.user ∧ ∀ pass ∈ u.pass, Over isPass pass))

namespace SipParser

variable {rest text ws : Bytes} {b : UInt8} {s : String} {tab : LookupTable}

/-- The password behind its colon is read back, or its absence; the `@` stays for the caller. -/
theorem reads_parsePass {pass : Option String} (hpass : ∀ p ∈ pass, Over isPass p) :
    Reads parsePass (asBytes (pass.elim "" fun pass => ":" ++ pass)) (64 :: rest) pass := by
  cases pass with
  | none =>
    rw [Option.elim_none, asBytes_empty]
    apply Reads.bind_nil (reads_takeIfEq_none (stops_cons.mpr (by decide)))
    exact Reads.pure _ _
  | some p =>
    rw [Option.elim_some, asBytes_append, show asBytes ":" = [58] by decide]
    apply Reads.bind (reads_takeIfEq_some (b := 58))
    apply Reads.bind_nil (reads_readWhile (hpass p rfl) (stops_cons.mpr (by decide)))
    exact Reads.pure _ _

/-- How a user part is spelled: the user, the password with its colon, the `@`. -/
theorem asBytes_userInfo (u : UserInfo) :
    asBytes u.toText =
      asBytes u.user ++ (asBytes (u.pass.elim "" fun pass => ":" ++ pass) ++ [64]) := by
  rw [UserInfo.toText, asBytes_append, asBytes_append, show asBytes "@" = [64] by decide,
    List.append_assoc]

/-- A table without the bytes that end a URI. -/
theorem inUri_of_tab (htab : ∀ b ∈ asBytes " \t\r\n>", tab b = false) (hb : tab b) :
    inUri b := by
  by_cases huri : inUri b
  · exact huri
  · have hmem : b ∈ asBytes " \t\r\n>" := by
      rw [show asBytes " \t\r\n>" = [32, 9, 13, 10, 62] by decide]
      simp only [inUri, isSpace, isNewline, Bool.and_eq_true, Bool.not_eq_true', bne_iff_ne,
        Bool.or_eq_false_iff, beq_eq_false_iff_ne, not_and, not_not] at huri
      simp only [List.mem_cons, List.not_mem_nil, or_false]
      grind
    rw [htab b hmem] at hb
    exact Bool.noConfusion hb

/-- The look-ahead finds the at sign behind the user. -/
theorem any_at_userInfo {u : UserInfo} (hwf : u.WellFormed) :
    ((asBytes u.toText ++ rest).takeWhile inUri).any (· == 64) = true := by
  have huri : ∀ b ∈ asBytes u.toText, inUri b := by
    intro b hb
    rw [asBytes_userInfo, List.mem_append, List.mem_append] at hb
    rcases hb with hb | hb | hb
    · exact inUri_of_tab (by decide) (hwf.1 b hb)
    · cases hpass : u.pass with
      | none => simp [hpass] at hb
      | some pass =>
        rw [hpass, Option.elim_some, asBytes_append, List.mem_append,
          show asBytes ":" = [58] by decide, List.mem_singleton] at hb
        rcases hb with rfl | hb
        · decide
        · exact inUri_of_tab (by decide) (hwf.2 pass hpass b hb)
    · rw [List.mem_singleton] at hb
      rw [hb]
      decide
  rw [List.takeWhile_append_of_pos huri, List.any_eq_true]
  refine ⟨64, ?_, by decide⟩
  rw [asBytes_userInfo]
  simp

/-- **A user is read back**, and the absence of one is recognised. -/
theorem reads_parseUserInfo {user : Option UserInfo} (hwf : ∀ u ∈ user, u.WellFormed)
    (hrest : user = none → NoUserPart rest) :
    Reads parseUserInfo (asBytes (user.elim "" UserInfo.toText)) rest user := by
  cases user with
  | none =>
    have hnone : (rest.takeWhile inUri).any (· == 64) = false := by
      rw [List.any_eq_false]
      intro b hb
      simpa using ne_of_mem_of_not_mem hb (hrest rfl)
    rw [Option.elim_none, asBytes_empty]
    apply Reads.nil_bind reads_existsUserPartInUri
    rw [List.nil_append, hnone]
    exact Reads.pure _ _
  | some u =>
    have hu := hwf u rfl
    rw [Option.elim_some]
    apply Reads.nil_bind reads_existsUserPartInUri
    rw [any_at_userInfo hu, if_pos rfl, asBytes_userInfo]
    apply Reads.bind
    · apply reads_readWhile hu.1
      -- a colon or the at sign comes next
      cases u.pass with
      | none =>
        rw [Option.elim_none, asBytes_empty]
        exact stops_cons.mpr (by decide)
      | some pass =>
        rw [Option.elim_some, asBytes_append, show asBytes ":" = [58] by decide]
        exact stops_cons.mpr (by decide)
    · apply Reads.bind
      · exact reads_parsePass hu.2
      · apply Reads.bind_nil (Reads.tryCatch reads_mustRead)
        exact Reads.pure _ _

end SipParser

/-! ### Well-formed URIs -/

/-- A parameter over `tab` whose name is not one of `reserved`. -/
def Param.Generic (tab : LookupTable) (reserved : List String) (p : Param) : Prop :=
  p.Over tab ∧ p.name ∉ reserved

/-- The parameters of a URI that have a field of their own. -/
def Uri.reserved : List String :=
  [Params.user, Params.method, Params.transport, Params.ttl, Params.lr, Params.maddr]

/-- At least one header, each with a value. -/
def UriHeaders.WellFormed (h : UriHeaders) : Prop :=
  h.params.inner ≠ [] ∧ ∀ p ∈ h.params.inner, p.Over isHdrUri ∧ p.value.isSome

/-- A URI whose text can be read back. -/
structure Uri.WellFormed (u : Uri) : Prop where
  user : ∀ i ∈ u.user, i.WellFormed
  host : u.hostPort.host.WellFormed
  userParam : ∀ v ∈ u.userParam, Over isParam v
  maddrParam : ∀ h ∈ u.maddrParam, h.WellFormedParam isParam
  params : ∀ p ∈ u.params.inner, p.Generic isParam Uri.reserved
  headers : ∀ h ∈ u.headers, h.WellFormed

instance (tab : LookupTable) : DecidablePred (Param.Over tab) := fun p =>
  inferInstanceAs (Decidable (Over tab p.name ∧ ∀ v ∈ p.value, Over tab v))

instance (tab : LookupTable) (reserved : List String) : DecidablePred (Param.Generic tab reserved) :=
  fun p => inferInstanceAs (Decidable (p.Over tab ∧ p.name ∉ reserved))

instance : DecidablePred UriHeaders.WellFormed := fun h =>
  inferInstanceAs (Decidable (h.params.inner ≠ [] ∧
    ∀ p ∈ h.params.inner, p.Over isHdrUri ∧ p.value.isSome))

instance : DecidablePred Uri.WellFormed := fun u =>
  decidable_of_iff ((∀ i ∈ u.user, i.WellFormed) ∧ u.hostPort.host.WellFormed ∧
    (∀ v ∈ u.userParam, Over isParam v) ∧
    (∀ h ∈ u.maddrParam, h.WellFormedParam isParam) ∧
    (∀ p ∈ u.params.inner, p.Generic isParam Uri.reserved) ∧ ∀ h ∈ u.headers, h.WellFormed)
    ⟨fun ⟨h₁, h₂, h₃, h₄, h₅, h₆⟩ => ⟨h₁, h₂, h₃, h₄, h₅, h₆⟩,
      fun ⟨h₁, h₂, h₃, h₄, h₅, h₆⟩ => ⟨h₁, h₂, h₃, h₄, h₅, h₆⟩⟩

/-! ### The parameters of a URI -/

/-- A URI without parameters and headers. -/
def Uri.base (u : Uri) : Uri := { scheme := u.scheme, user := u.user, hostPort := u.hostPort }

/-- The parameters with a field of their own, in the order they are printed. -/
def Uri.fieldParams (u : Uri) : List Param :=
  (u.userParam.map fun v => ⟨Params.user, some v⟩).toList ++
  (u.methodParam.map fun m => ⟨Params.method, some m.asStr⟩).toList ++
  (u.maddrParam.map fun h => ⟨Params.maddr, some h.toText⟩).toList ++
  (u.transportParam.map fun t => ⟨Params.transport, some t.asLowerCase⟩).toList ++
  (u.ttlParam.map fun n => ⟨Params.ttl, some (decimal n.toNat)⟩).toList ++
  (if u.lrParam then [⟨Params.lr, none⟩] else [])

namespace SipParser

variable {rest text ws : Bytes} {b : UInt8} {s : String} {tab : LookupTable}

/-- The text of two parameter lists in a row is the one text behind the other. -/
theorem paramsBytes_append (ps qs : List Param) :
    paramsBytes (ps ++ qs) = paramsBytes ps ++ paramsBytes qs := List.flatMap_append

/-- The text of a field that may be missing. -/
theorem asBytes_field {α : Type} (o : Option α) (start name : String) (toText : α → String)
    (hstart : start = ";" ++ (name ++ "=")) :
    asBytes (o.elim "" fun v => start ++ toText v) =
      paramsBytes (o.map fun v => ⟨name, some (toText v)⟩).toList := by
  cases o with
  | none => exact asBytes_empty
  | some v =>
    rw [hstart]
    simp only [Option.elim_some, Option.map_some, Option.toList_some, paramsBytes,
      List.flatMap_cons, List.flatMap_nil, List.append_nil, Param.refText, asBytes_append,
      show asBytes ";" = [59] by decide, List.append_assoc]
    rfl

/-- The parameters that a URI keeps in fields are printed like the ones of its list. -/
theorem asBytes_uriParamsText (u : Uri) : asBytes u.paramsText = paramsBytes u.fieldParams := by
  have hlr : asBytes (if u.lrParam then ";lr" else "") =
      paramsBytes (if u.lrParam then [⟨Params.lr, none⟩] else []) := by
    cases u.lrParam <;> decide
  simp only [Uri.paramsText, Uri.fieldParams, asBytes_append, paramsBytes_append, hlr,
    asBytes_field u.userParam ";user=" Params.user (fun v => v) (by decide),
    asBytes_field u.methodParam ";method=" Params.method SipMethod.asStr (by decide),
    asBytes_field u.maddrParam ";maddr=" Params.maddr Host.toText (by decide),
    asBytes_field u.transportParam ";transport=" Params.transport
      TransportProtocol.asLowerCase (by decide),
    asBytes_field u.ttlParam ";ttl=" Params.ttl (fun n => decimal n.toNat) (by decide)]

/-- A value that is present and of the right kind is stored. -/
theorem parseValue_some {α : Type} {kind : ParseErrorKind} {fromStr : String → Option α}
    {v : String} {a : α} (h : fromStr v = some a) :
    parseValue kind fromStr (some v) = pure (some a) := by
  rw [parseValue, h]
  rfl

section Store

variable (a : Uri)

/-- The parameter `user` becomes a field of the URI. -/
theorem storeUriParam_user (v : String) :
    storeUriParam a ⟨Params.user, some v⟩ = pure ({ a with userParam := some v }, none) := rfl

/-- The parameter `method` becomes a field; the name of every method reads back, the unknown one
    included. -/
theorem storeUriParam_method (m : SipMethod) :
    storeUriParam a ⟨Params.method, some m.asStr⟩ =
      pure ({ a with methodParam := some m }, none) := by
  show pure ({ a with methodParam := some (SipMethod.fromBytes (asBytes m.asStr)) }, none) = _
  rw [SipMethod.fromBytes_asStr]

/-- The parameter `transport` becomes a field, from its lower-case spelling. -/
theorem storeUriParam_transport (t : TransportProtocol) :
    storeUriParam a ⟨Params.transport, some t.asLowerCase⟩ =
      pure ({ a with transportParam := some t }, none) := by
  show (do
    let transport ← parseValue .transport TransportProtocol.fromStr (some t.asLowerCase)
    return ({ a with transportParam := transport }, none)) = _
  rw [parseValue_some (TransportProtocol.fromStr_asLowerCase t)]
  rfl

/-- The parameter `ttl` becomes a field, a number of eight bits. -/
theorem storeUriParam_ttl (n : UInt8) :
    storeUriParam a ⟨Params.ttl, some (decimal n.toNat)⟩ =
      pure ({ a with ttlParam := some n }, none) := by
  show (do
    let ttl ← parseValue .param u8FromStr (some (decimal n.toNat))
    return ({ a with ttlParam := ttl }, none)) = _
  rw [parseValue_some (u8FromStr_decimal n)]
  rfl

/-- The parameter `lr`, which has no value, becomes a flag. -/
theorem storeUriParam_lr :
    storeUriParam a ⟨Params.lr, none⟩ = pure ({ a with lrParam := true }, none) := rfl

/-- The parameter `maddr` becomes a field if its host reads back. -/
theorem storeUriParam_maddr {h : Host} (hwf : Host.fromStr h.toText = h) :
    storeUriParam a ⟨Params.maddr, some h.toText⟩ =
      pure ({ a with maddrParam := some h }, none) := by
  show pure ({ a with maddrParam := some (Host.fromStr h.toText) }, none) = _
  rw [hwf]

/-- A parameter under any other name is handed back and goes into the list. -/
theorem storeUriParam_generic {p : Param} (hp : p.name ∉ Uri.reserved) :
    storeUriParam a p = pure (a, some p) := by
  simp only [Uri.reserved, List.mem_cons, List.not_mem_nil, or_false, not_or] at hp
  obtain ⟨huser, hmethod, htransport, httl, hlr, hmaddr⟩ := hp
  rw [storeUriParam, if_neg huser, if_neg hmethod, if_neg htransport, if_neg httl, if_neg hlr,
    if_neg hmaddr]

end Store

/-- The fields of a URI are filled one after the other. -/
theorem stores_uriFieldParams {u : Uri} (hwf : u.WellFormed) :
    Stores storeUriParam u.base u.fieldParams { u with params := {}, headers := none } [] := by
  -- the record as it fills up, one parameter after the other
  let a₁ : Uri := { u.base with userParam := u.userParam }
  let a₂ : Uri := { a₁ with methodParam := u.methodParam }
  let a₃ : Uri := { a₂ with maddrParam := u.maddrParam }
  let a₄ : Uri := { a₃ with transportParam := u.transportParam }
  let a₅ : Uri := { a₄ with ttlParam := u.ttlParam }
  have huser : Stores storeUriParam u.base _ a₁ [] :=
    Stores.field u.userParam _ (fun o => { u.base with userParam := o })
      fun v _ => storeUriParam_user _ v
  have hmethod : Stores storeUriParam a₁ _ a₂ [] :=
    Stores.field u.methodParam _ (fun o => { a₁ with methodParam := o })
      fun m _ => storeUriParam_method _ m
  have hmaddr : Stores storeUriParam a₂ _ a₃ [] :=
    Stores.field u.maddrParam _ (fun o => { a₂ with maddrParam := o })
      fun h hh => storeUriParam_maddr _ (hwf.maddrParam h hh).fromStr_toText
  have htransport : Stores storeUriParam a₃ _ a₄ [] :=
    Stores.field u.transportParam _ (fun o => { a₃ with transportParam := o })
      fun t _ => storeUriParam_transport _ t
  have httl : Stores storeUriParam a₄ _ a₅ [] :=
    Stores.field u.ttlParam _ (fun o => { a₄ with ttlParam := o })
      fun n _ => storeUriParam_ttl _ n
  have hlr : Stores storeUriParam a₅ (if u.lrParam then [⟨Params.lr, none⟩] else [])
      { a₅ with lrParam := u.lrParam } [] := by
    cases u.lrParam with
    | false => exact Stores.nil _
    | true =>
      refine Stores.cons (q := none) ?_ (Stores.nil _)
      intro rest
      rw [storeUriParam_lr]
      exact Reads.pure _ _
  exact ((((huser.append hmethod).append hmaddr).append htransport).append httl).append hlr

/-- Stored one after the other, the parameters of the list come back in their order and change no
    field. -/
theorem stores_uriParams {u : Uri} (hwf : u.WellFormed) (a : Uri) :
    Stores storeUriParam a u.params.inner a u.params.inner := by
  apply Stores.generic
  intro p hp rest
  rw [storeUriParam_generic a (hwf.params p hp).2]
  exact Reads.pure _ _

/-- A parameter that can be read back whatever comes next. -/
def Printable (tab : LookupTable) (p : Param) : Prop := p.Over tab ∧ asBytes p.refText ≠ []

/-- A parameter with a name over the table can be printed and read back. -/
theorem printable_of_name {p : Param} (hover : p.Over tab) (hname : asBytes p.name ≠ []) :
    Printable tab p := by
  refine ⟨hover, ?_⟩
  rw [Param.refText, asBytes_append]
  exact fun h => hname (List.append_eq_nil_iff.mp h).1

/-- A field that may be missing prints a readable parameter. -/
theorem printable_field {α : Type} {o : Option α} {name : String} {toText : α → String}
    (hname : Over tab name) (hne : asBytes name ≠ []) (h : ∀ v ∈ o, Over tab (toText v)) :
    ∀ p ∈ (o.map fun v => (⟨name, some (toText v)⟩ : Param)).toList, Printable tab p := by
  intro p hp
  rw [Option.mem_toList, Option.map_eq_some_iff] at hp
  obtain ⟨v, hv, rfl⟩ := hp
  refine printable_of_name ⟨hname, ?_⟩ hne
  intro w hw
  rw [Option.mem_some_iff] at hw
  exact hw ▸ h v hv

/-- The parameters that a URI prints from its fields can all be read back. -/
theorem printable_uriFieldParams {u : Uri} (hwf : u.WellFormed) :
    ∀ p ∈ u.fieldParams, Printable isParam p := by
  have hmethod : ∀ m : SipMethod, Over isParam m.asStr := by intro m; cases m <;> decide
  have htransport : ∀ t : TransportProtocol, Over isParam t.asLowerCase := by
    intro t; cases t <;> decide
  have hlr : ∀ p ∈ (if u.lrParam then [⟨Params.lr, none⟩] else [] : List Param),
      Printable isParam p := by
    cases u.lrParam with
    | false => exact fun p hp => absurd hp List.not_mem_nil
    | true =>
      intro p hp
      rw [List.mem_singleton.mp hp]
      exact printable_of_name ⟨by decide, by simp⟩ (by decide)
  simp only [Uri.fieldParams, List.forall_mem_append]
  refine ⟨⟨⟨⟨⟨?_, ?_⟩, ?_⟩, ?_⟩, ?_⟩, hlr⟩
  · exact printable_field (by decide) (by decide) hwf.userParam
  · exact printable_field (by decide) (by decide) fun m _ => hmethod m
  · exact printable_field (by decide) (by decide) fun h hh =>
      (hwf.maddrParam h hh).over isParam_alphanumeric (by decide) (by decide)
  · exact printable_field (by decide) (by decide) fun t _ => htransport t
  · exact printable_field (by decide) (by decide) fun n _ =>
      over_decimal isParam_alphanumeric n.toNat

/-! ### The bytes of a URI -/

/-- Every character of a printed `host:port` is one that the host-port stretch admits. -/
theorem inHostPort_of_mem {h : HostPort} (hwf : h.host.WellFormed) :
    ∀ b ∈ asBytes h.toText, inHostPort b := by
  intro b hb
  rw [HostPort.toText, asBytes_append, List.mem_append] at hb
  rcases hb with hb | hb
  · simp [inHostPort, hwf.over b hb]
  · cases hport : h.port with
    | none => simp [hport] at hb
    | some port =>
      rw [hport, Option.elim_some, asBytes_append, List.mem_append,
        show asBytes ":" = [58] by decide, List.mem_singleton] at hb
      rcases hb with rfl | hb
      · decide
      · have hdigit := over_decimal isHost_alphanumeric port.toNat b hb
        simp [inHostPort, hdigit]

/-- A character outside the table, other than the equals sign, does not occur in a printed
    parameter. -/
theorem not_mem_refText {p : Param} (hp : p.Over tab) (htab : tab b = false) (heq : b ≠ 61) :
    b ∉ asBytes p.refText := by
  rw [Param.refText, asBytes_append, List.mem_append, not_or]
  refine ⟨hp.1.not_mem htab, ?_⟩
  cases hvalue : p.value with
  | none => simp
  | some v =>
    rw [Option.elim_some, asBytes_append, List.mem_append, not_or,
      show asBytes "=" = [61] by decide, List.mem_singleton]
    exact ⟨heq, (hp.2 v hvalue).not_mem htab⟩

/-- The same for a whole list, whose separator is the semicolon. -/
theorem not_mem_paramsBytes {ps : List Param} (hps : ∀ p ∈ ps, p.Over tab) (htab : tab b = false)
    (hsemi : b ≠ 59) (heq : b ≠ 61) : b ∉ paramsBytes ps := by
  rw [paramsBytes, List.mem_flatMap]
  rintro ⟨p, hp, hb⟩
  rw [List.mem_cons] at hb
  rcases hb with hb | hb
  · exact hsemi hb
  · exact not_mem_refText (hps p hp) htab heq hb

/-- How a URI is spelled, part by part in the order in which the parser reads them. -/
theorem asBytes_uri (u : Uri) :
    asBytes u.toText = (asBytes u.scheme.toText ++ [58]) ++
      (asBytes (u.user.elim "" UserInfo.toText) ++ (asBytes u.hostPort.toText ++
        (paramsBytes (u.fieldParams ++ u.params.inner) ++
          asBytes (u.headers.elim "" fun headers => "?" ++ headers.toText)))) := by
  rw [Uri.toText]
  simp only [asBytes_append, asBytes_uriParamsText, Params.asBytes_toText, paramsBytes_append,
    List.append_assoc, show asBytes ":" = [58] by decide]
  rfl

/-- The first fields of a URI, and then what `tail` reads. -/
theorem reads_parseUri_of {u : Uri} {tail : Bytes} (hwf : u.WellFormed)
    (htail : Reads (do
      let (uri, params) ← parseParamsWith parseUriParam storeUriParam u.base
      let headers ← parseUriHeaderPart
      return { uri with params := params, headers := headers }) tail rest u)
    (hhost : Stops inHostPort (tail ++ rest)) (huser : u.user = none → NoUserPart (tail ++ rest)) :
    Reads (parseUri true) ((asBytes u.scheme.toText ++ [58]) ++
      (asBytes (u.user.elim "" UserInfo.toText) ++ (asBytes u.hostPort.toText ++ tail))) rest u := by
  have hat : 64 ∉ asBytes u.hostPort.toText := by
    intro hmem
    exact absurd (inHostPort_of_mem hwf.host 64 hmem) (by decide)
  apply Reads.bind (reads_parseScheme _)
  apply Reads.bind
  · apply reads_parseUserInfo hwf.user
    intro hnone
    rw [List.append_assoc]
    exact NoUserPart.append hat (huser hnone)
  · apply Reads.bind (reads_parseHostPort hwf.host hhost)
    exact htail

/-! ### Whole URIs -/

/-- A list printed with a one-byte separator is the join of the printed values. -/
theorem asBytes_formatSep {sep : String} (hsep : asBytes sep = [b]) (ss : List String) :
    asBytes (formatSep sep ss) = joinSep b (ss.map asBytes) := by
  induction ss with
  | nil => exact asBytes_empty
  | cons s ss ih =>
    cases ss with
    | nil => rfl
    | cons t ss =>
      have htail : formatSep sep (s :: t :: ss) = s ++ sep ++ formatSep sep (t :: ss) := rfl
      rw [htail, asBytes_append, asBytes_append, ih, hsep, List.append_assoc]
      rfl

/-- A URI header with a value prints like a parameter. -/
theorem uriHeaderText_eq {p : Param} (hp : p.value.isSome) : uriHeaderText p = p.refText := by
  obtain ⟨v, hv⟩ := Option.isSome_iff_exists.mp hp
  rw [uriHeaderText, Param.refText, hv]
  exact String.append_assoc

/-- The printed headers of a URI are the join of their texts at ampersands. -/
theorem asBytes_uriHeaders {h : UriHeaders} (hwf : h.WellFormed) :
    asBytes h.toText = joinSep 38 (h.params.inner.map fun p => asBytes p.refText) := by
  rw [UriHeaders.toText, asBytes_formatSep (b := 38) (by decide), List.map_map]
  congr 1
  apply List.map_congr_left
  intro p hp
  show asBytes (uriHeaderText p) = asBytes p.refText
  rw [uriHeaderText_eq (hwf.2 p hp).2]

/-- **The headers of a URI are read back.** -/
theorem reads_parseUriHeaders {h : UriHeaders} (hwf : h.WellFormed)
    (hparam : Stops (inParam isHdrUri) rest) (hamp : Stops (· == 38) rest) :
    Reads parseUriHeaders (asBytes h.toText) rest h := by
  let ts : List (Bytes × Param) := h.params.inner.map fun p => (asBytes p.refText, p)
  have hne : ts ≠ [] := by simpa [ts] using hwf.1
  have htext : asBytes h.toText = joinSep 38 (ts.map Prod.fst) := by
    rw [asBytes_uriHeaders hwf, List.map_map]
    rfl
  have hvals : ts.map Prod.snd = h.params.inner := by
    rw [List.map_map]
    exact List.map_id _
  -- every header has a value, so that none of them is empty
  have helems : ∀ t ∈ ts, ∀ next, ElemEnd 38 rest next → Reads parseUriHeader t.1 next t.2 := by
    intro t ht next hnext
    obtain ⟨p, hp, rfl⟩ := List.mem_map.mp ht
    obtain ⟨hover, hsome⟩ := hwf.2 p hp
    obtain ⟨v, hv⟩ := Option.isSome_iff_exists.mp hsome
    apply reads_paramRef_nil isHdrUri_table hover
    · apply stops_isSpace_refText isHdrUri_table hover
      intro hnil
      simp [Param.refText, hv, show asBytes "=" = [61] by decide] at hnil
    · exact hnext.stops (by decide) hparam
  rw [htext]
  apply Reads.bind_nil (reads_collectSep hamp ts hne helems)
  rw [hvals]
  exact Reads.pure _ _

/-- A byte of a join is the separator or belongs to one of the texts. -/
theorem mem_joinSep {sep : UInt8} {ts : List Bytes} (hb : b ∈ joinSep sep ts) :
    b = sep ∨ ∃ t ∈ ts, b ∈ t := by
  induction ts with
  | nil => exact absurd hb List.not_mem_nil
  | cons t ts ih =>
    cases ts with
    | nil => exact Or.inr ⟨t, by simp, hb⟩
    | cons u ts =>
      have hmem : b ∈ t ∨ b = sep ∨ b ∈ joinSep sep (u :: ts) := by
        simpa [joinSep] using hb
      rcases hmem with hb | hb | hb
      · exact Or.inr ⟨t, by simp, hb⟩
      · exact Or.inl hb
      · exact (ih hb).imp_right fun ⟨v, hv, hmem⟩ => ⟨v, by simp [hv], hmem⟩

/-- The printed headers of a URI hold no `@`, so they cannot be taken for a user part. -/
theorem at_not_mem_uriHeaders {h : UriHeaders} (hwf : h.WellFormed) :
    64 ∉ asBytes h.toText := by
  rw [asBytes_uriHeaders hwf]
  intro hmem
  rcases mem_joinSep hmem with h64 | ⟨t, ht, hmem⟩
  · exact absurd h64 (by decide)
  · obtain ⟨p, hp, rfl⟩ := List.mem_map.mp ht
    exact not_mem_refText (hwf.2 p hp).1 (by decide) (by decide) hmem

/-- Without a question mark there are no headers and nothing is read. -/
theorem reads_parseUriHeaderPart_none (hquestion : Stops (· == 63) rest) :
    Reads parseUriHeaderPart [] rest none := by
  apply Reads.bind_nil (reads_takeIfEq_none hquestion)
  exact Reads.pure _ _

/-- Behind a question mark the headers are read back, up to a text that continues none of them. -/
theorem reads_parseUriHeaderPart_some {h : UriHeaders} (hwf : h.WellFormed)
    (hparam : Stops (inParam isHdrUri) rest) (hamp : Stops (· == 38) rest) :
    Reads parseUriHeaderPart ([63] ++ asBytes h.toText) rest (some h) := by
  apply Reads.bind reads_takeIfEq_some
  apply Reads.bind_nil (reads_parseUriHeaders hwf hparam hamp)
  exact Reads.pure _ _

/-- All parameters of a well-formed URI, from fields and from the list, lie over the parameter
    table. -/
theorem over_uriParams {u : Uri} (hwf : u.WellFormed) :
    ∀ p ∈ u.fieldParams ++ u.params.inner, p.Over isParam :=
  List.forall_mem_append.mpr ⟨fun p hp => (printable_uriFieldParams hwf p hp).1,
    fun p hp => (hwf.params p hp).1⟩

/-- What a URI without headers ends before: `ws` blanks, and then `rest`. -/
structure UriEnd (u : Uri) (ws rest : Bytes) : Prop where
  blank : ∀ b ∈ ws, isSpace b
  space : Stops isSpace rest
  semi : Stops (· == 59) rest
  question : Stops (· == 63) rest
  param : (ws = [] ∨ ∃ p ∈ u.params.inner, asBytes p.refText = []) → Stops (inParam isParam) rest

/-- What would continue a host and its port would continue a parameter. -/
theorem inHostPort_eq_false (hb : inParam isParam b = false) : inHostPort b = false := by
  by_cases h : inHostPort b
  · have hparam : isParam b := by
      simp only [inHostPort, isHost, lookupTable, List.any_cons, List.any_nil, Bool.or_false,
        Bool.or_eq_true, List.contains_iff_mem, beq_iff_eq] at h
      rcases h with (h | h) | rfl
      · exact isParam_alphanumeric b h
      · exact List.all_eq_true.mp (show (asBytes Tables.host).all isParam by decide) b h
      · decide
    simp [inParam, hparam] at hb
  · simpa using h

/-- Parameters do not continue the `host:port` in front of them, since they start with a semicolon.
    -/
theorem stops_inHostPort_paramsBytes {ps : List Param} (hrest : Stops inHostPort rest) :
    Stops inHostPort (paramsBytes ps ++ rest) := stops_params (by decide) hrest

/-- What may follow a URI does not continue its `host:port`. -/
theorem UriEnd.stops_inHostPort {u : Uri} (hend : UriEnd u ws rest) :
    Stops inHostPort (ws ++ rest) := by
  have hparam := stops_inParam_append isParam_table hend.blank fun h => hend.param (Or.inl h)
  cases hws : ws ++ rest with
  | nil => exact stops_nil _
  | cons b bs =>
    rw [hws] at hparam
    exact stops_cons.mpr (inHostPort_eq_false (stops_cons.mp hparam))

/-- The parameters of a URI announce no user part: their table has no `@`. -/
theorem noUserPart_uriParams {u : Uri} (hwf : u.WellFormed) (hrest : NoUserPart rest) :
    NoUserPart (paramsBytes (u.fieldParams ++ u.params.inner) ++ rest) :=
  NoUserPart.append (not_mem_paramsBytes (over_uriParams hwf) (by decide) (by decide) (by decide))
    hrest

/-- From the bare URI, storing what it prints gives all of its fields and leaves its list. -/
theorem stores_uri {u : Uri} (hwf : u.WellFormed) :
    Stores storeUriParam u.base (u.fieldParams ++ u.params.inner)
      { u with params := {}, headers := none } u.params.inner :=
  (stores_uriFieldParams hwf).append (stores_uriParams hwf _)

/-- **A URI without headers is read back**, with the blanks after it. -/
theorem reads_parseUri_params {u : Uri} (hwf : u.WellFormed) (hnone : u.headers = none)
    (hend : UriEnd u ws rest) (huser : u.user = none → NoUserPart (ws ++ rest)) :
    Reads (parseUri true) (asBytes u.toText ++ ws) rest u := by
  have hempty : (ws = [] ∨ ∃ p ∈ u.fieldParams ++ u.params.inner, asBytes p.refText = []) →
      Stops (inParam isParam) rest := by
    rintro (h | ⟨p, hp, hnil⟩)
    · exact hend.param (Or.inl h)
    · rcases List.mem_append.mp hp with hp | hp
      · exact absurd hnil (printable_uriFieldParams hwf p hp).2
      · exact hend.param (Or.inr ⟨p, hp, hnil⟩)
  rw [asBytes_uri, hnone, Option.elim_none, asBytes_empty, List.append_nil]
  simp only [List.append_assoc]
  rw [← List.append_assoc]
  -- without headers, the parameters are the last part
  apply reads_parseUri_of hwf
  · apply Reads.bind_nil
    · exact reads_parseParamsWith isParam_table hend.blank hend.space hend.semi (stores_uri hwf)
        hempty (over_uriParams hwf)
    · apply Reads.bind_nil (reads_parseUriHeaderPart_none hend.question)
      rw [← hnone]
      exact Reads.pure _ _
  · rw [List.append_assoc]
    exact stops_inHostPort_paramsBytes hend.stops_inHostPort
  · intro h
    rw [List.append_assoc]
    exact noUserPart_uriParams hwf (huser h)

/-- **A URI with headers is read back.** -/
theorem reads_parseUri_headers {u : Uri} {h : UriHeaders} (hwf : u.WellFormed)
    (hsome : u.headers = some h) (hparam : Stops (inParam isHdrUri) rest)
    (hamp : Stops (· == 38) rest) (huser : u.user = none → NoUserPart rest) :
    Reads (parseUri true) (asBytes u.toText) rest u := by
  have hh : h.WellFormed := hwf.headers h hsome
  have hheaders : asBytes (u.headers.elim "" fun headers => "?" ++ headers.toText) =
      [63] ++ asBytes h.toText := by
    rw [hsome, Option.elim_some, asBytes_append, show asBytes "?" = [63] by decide]
  have hat : 64 ∉ [63] ++ asBytes h.toText := by
    rw [List.mem_append, not_or]
    exact ⟨by decide, at_not_mem_uriHeaders hh⟩
  rw [asBytes_uri, hheaders]
  apply reads_parseUri_of hwf
  · apply Reads.bind
    · exact reads_parseParamsWith_nil isParam_table (stores_uri hwf) (stops_cons.mpr (by decide))
        (stops_cons.mpr (by decide)) (stops_cons.mpr (by decide)) (over_uriParams hwf)
    · apply Reads.bind_nil (reads_parseUriHeaderPart_some hh hparam hamp)
      rw [← hsome]
      exact Reads.pure _ _
  · rw [List.append_assoc]
    exact stops_inHostPort_paramsBytes (stops_cons.mpr (by decide))
  · intro hnone
    rw [List.append_assoc]
    exact noUserPart_uriParams hwf (NoUserPart.append hat (huser hnone))

/-- **A URI without parameters is read back** where parameters do not belong to it. -/
theorem reads_parseUri_bare {u : Uri} (hwf : u.WellFormed) (hbare : u = u.base)
    (hhost : Stops inHostPort rest) (huser : u.user = none → NoUserPart rest) :
    Reads (parseUri false) (asBytes u.toText) rest u := by
  have hat : 64 ∉ asBytes u.hostPort.toText := by
    intro hmem
    exact absurd (inHostPort_of_mem hwf.host 64 hmem) (by decide)
  have htext : asBytes u.toText = (asBytes u.scheme.toText ++ [58]) ++
      (asBytes (u.user.elim "" UserInfo.toText) ++ asBytes u.hostPort.toText) := by
    rw [hbare, asBytes_uri]
    simp [Uri.base, Uri.fieldParams, paramsBytes]
  rw [htext]
  apply Reads.bind (reads_parseScheme _)
  apply Reads.bind
  · apply reads_parseUserInfo hwf.user
    intro hnone
    exact NoUserPart.append hat (huser hnone)
  · apply Reads.bind_nil (reads_parseHostPort hwf.host hhost)
    show Reads (Pure.pure u.base) [] rest u
    rw [← hbare]
    exact Reads.pure _ _

end SipParser

/-! ### Addresses -/

/-- A URI between angle brackets, with a display name that has no quotes. -/
def NameAddr.WellFormed (a : NameAddr) : Prop :=
  (∀ d ∈ a.display, 34 ∉ asBytes d) ∧ a.uri.WellFormed

/-- A name-addr, or a URI alone that leaves no parameter and no header to be taken for those of
    the header it stands in. -/
def SipUri.WellFormed : SipUri → Prop
  | .uri u => u.WellFormed ∧ u = u.base
  | .nameAddr a => a.WellFormed

instance : DecidablePred NameAddr.WellFormed := fun a =>
  inferInstanceAs (Decidable ((∀ d ∈ a.display, 34 ∉ asBytes d) ∧ a.uri.WellFormed))

instance : DecidablePred SipUri.WellFormed
  | .uri u => inferInstanceAs (Decidable (u.WellFormed ∧ u = u.base))
  | .nameAddr a => inferInstanceAs (Decidable a.WellFormed)

namespace SipParser

variable {rest text ws : Bytes} {b : UInt8} {s : String} {tab : LookupTable}

/-- The display name of a name-addr and the blank after it. -/
def displayBytes : Option String → Bytes
  | some d => [34] ++ (asBytes d ++ [34]) ++ [32]
  | none => []

/-- How a name-addr is spelled: the display name, and the URI in angle brackets. -/
theorem asBytes_nameAddr (a : NameAddr) :
    asBytes a.toText = displayBytes a.display ++ ([60] ++ (asBytes a.uri.toText ++ [62])) := by
  cases h : a.display <;>
    simp [NameAddr.toText, h, displayBytes, show asBytes "<" = [60] by decide,
      show asBytes ">" = [62] by decide, show asBytes "\"" = [34] by decide,
      show asBytes "\" " = [34, 32] by decide]

/-- A URI between angle brackets ends at the closing one. -/
theorem reads_parseUri_bracket {u : Uri} (hwf : u.WellFormed) :
    Reads (parseUri true) (asBytes u.toText) (62 :: rest) u := by
  have huser : NoUserPart (62 :: rest) := noUserPart_of_stop (by decide) rest
  cases h : u.headers with
  | none =>
    have hend : UriEnd u [] (62 :: rest) :=
      { blank := by simp
        space := stops_cons.mpr (by decide)
        semi := stops_cons.mpr (by decide)
        question := stops_cons.mpr (by decide)
        param := fun _ => stops_cons.mpr (by decide) }
    have hread := reads_parseUri_params hwf h hend fun _ => huser
    rwa [List.append_nil] at hread
  | some hs =>
    exact reads_parseUri_headers hwf h (stops_cons.mpr (by decide)) (stops_cons.mpr (by decide))
      fun _ => huser

/-- A quoted display name without a quote in it is read back. -/
theorem reads_parseDisplayName_some {d : String} (hd : 34 ∉ asBytes d) :
    Reads parseDisplayName ([34] ++ (asBytes d ++ [34])) rest (some d) := by
  have hhead : ([34] ++ (asBytes d ++ [34]) ++ rest).head? = some 34 := rfl
  apply Reads.nil_bind reads_peek
  rw [if_pos hhead]
  apply Reads.bind reads_advance
  apply Reads.bind_nil (reads_quoted hd)
  exact Reads.pure _ _

/-- In front of an angle bracket there is no display name, and nothing is read. -/
theorem reads_parseDisplayName_none : Reads parseDisplayName [] (60 :: rest) none := by
  have hhead : ([] ++ 60 :: rest : Bytes).head? = some 60 := rfl
  apply Reads.nil_bind reads_peek
  rw [hhead, if_neg (by decide)]
  apply Reads.nil_bind reads_peek
  rw [hhead, if_pos rfl]
  exact Reads.pure _ _

/-- **A name-addr is read back**, whatever follows. -/
theorem reads_parseNameAddr {a : NameAddr} (hwf : a.WellFormed) :
    Reads parseNameAddr (asBytes a.toText) rest a := by
  have hbracket : Reads (do
      mustRead 60
      let uri ← parseUri true
      mustRead 62
      return (⟨a.display, uri⟩ : NameAddr)) ([60] ++ (asBytes a.uri.toText ++ [62])) rest a := by
    apply Reads.bind reads_mustRead
    apply Reads.bind (reads_parseUri_bracket hwf.2)
    apply Reads.bind_nil reads_mustRead
    exact Reads.pure _ _
  rw [asBytes_nameAddr]
  cases hdisplay : a.display with
  | none =>
    rw [hdisplay] at hbracket
    apply Reads.nil_bind (reads_skipWs_nil (stops_cons.mpr (by decide)))
    apply Reads.nil_bind reads_parseDisplayName_none
    apply Reads.nil_bind (reads_skipWs_nil (stops_cons.mpr (by decide)))
    exact hbracket
  | some d =>
    rw [hdisplay] at hbracket
    apply Reads.nil_bind (reads_skipWs_nil (stops_cons.mpr (by decide)))
    rw [displayBytes, List.append_assoc]
    apply Reads.bind (reads_parseDisplayName_some (hwf.1 d hdisplay))
    apply Reads.bind (reads_skipWs (by decide) (stops_cons.mpr (by decide)))
    exact hbracket

/-- A printed name-addr starts with a quote or an angle bracket, by which the parser knows it. -/
theorem head?_nameAddr (a : NameAddr) (rest : Bytes) :
    (asBytes a.toText ++ rest).head? = some 34 ∨ (asBytes a.toText ++ rest).head? = some 60 := by
  rw [asBytes_nameAddr]
  cases a.display
  · exact Or.inr rfl
  · exact Or.inl rfl

/-- A printed URI starts with the `s` of its scheme, by which the parser tells it from a name-addr.
    -/
theorem head?_uri (u : Uri) (rest : Bytes) : (asBytes u.toText ++ rest).head? = some 115 := by
  rw [asBytes_uri]
  cases u.scheme <;> rfl

/-- In front of a URI its scheme is in sight. -/
theorem peekWhile_uri {u : Uri} {c : Scanner} (hc : c.remaining = asBytes u.toText ++ rest) :
    c.peekWhile inSchemeOrDisplay = asBytes u.scheme.toText := by
  obtain ⟨tail, htail⟩ : ∃ tail, asBytes u.toText = asBytes u.scheme.toText ++ (58 :: tail) := by
    rw [asBytes_uri, List.append_assoc]
    exact ⟨_, rfl⟩
  have hscheme : ∀ b ∈ asBytes u.scheme.toText, inSchemeOrDisplay b := by
    cases u.scheme <;> decide
  apply peekWhile_of_remaining (58 :: tail ++ rest) _ hscheme (stops_cons.mpr (by decide))
  rw [← List.append_assoc, ← htail]
  exact hc

/-- No address starts with a blank. -/
theorem stops_isSpace_sipUri (a : SipUri) (rest : Bytes) :
    Stops isSpace (asBytes a.toText ++ rest) := by
  have hhead : (asBytes a.toText ++ rest).head? = some 34 ∨
      (asBytes a.toText ++ rest).head? = some 60 ∨
        (asBytes a.toText ++ rest).head? = some 115 := by
    cases a with
    | nameAddr a => exact (head?_nameAddr a rest).imp_right Or.inl
    | uri u => exact Or.inr (Or.inr (head?_uri u rest))
  intro b hb
  rcases hhead with h | h | h <;>
  · rw [h, Option.mem_some_iff] at hb
    rw [← hb]
    decide

/-- **An address in brackets is read back**, whatever follows. -/
theorem reads_parseSipUri_nameAddr {a : NameAddr} (hwf : a.WellFormed) (params : Bool) :
    Reads (parseSipUri params) (asBytes a.toText) rest (.nameAddr a) := by
  apply Reads.nil_bind (reads_skipWs_nil (stops_isSpace_sipUri (.nameAddr a) rest))
  apply Reads.nil_bind reads_peek
  rw [SipUri.toText, if_pos (head?_nameAddr a rest)]
  apply Reads.bind_nil (reads_parseNameAddr hwf)
  exact Reads.pure _ _

/-- **An address is read back** where the parameters after it belong to the header. -/
theorem reads_parseSipUri {a : SipUri} (hwf : a.WellFormed) (hhost : Stops inHostPort rest)
    (huser : NoUserPart rest) : Reads (parseSipUri false) (asBytes a.toText) rest a := by
  cases a with
  | nameAddr a => exact reads_parseSipUri_nameAddr hwf false
  | uri u =>
    obtain ⟨hu, hbare⟩ := hwf
    apply Reads.nil_bind (reads_skipWs_nil (stops_isSpace_sipUri (.uri u) rest))
    apply Reads.nil_bind reads_peek
    rw [SipUri.toText, head?_uri, if_neg (by decide)]
    apply Reads.get_bind
    intro c hc
    -- the scheme is in sight, so this is no display name
    rw [peekWhile_uri hc]
    dsimp only
    rw [if_pos (scheme_bytes u.scheme)]
    apply Reads.bind_nil (reads_parseUri_bare hu hbare hhost fun _ => huser)
    exact Reads.pure _ _

end SipParser

end Rssip
