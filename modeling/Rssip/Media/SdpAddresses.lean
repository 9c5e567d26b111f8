import Rssip.Media.SdpLineEnds

namespace Rssip.Media

open Lib

/-!
# Addresses of origins and connections

The lines with an address that RFC 4566 allows, and what the parser takes of them.

* `AddressLine` — an `o=` or `c=` line by its parts, with `Valid` for the grammar;
* `kept_iff` — the line is accepted, and its address kept, if the address is an IP address, the ids
  of an origin fit into 64 bits and the network type of a connection does not start with `IN` unless
  it is `IN`.  A host name is never accepted.
-/

/-- A line with an address, by its parts. -/
inductive AddressLine where
  | origin (username sessId sessVersion : Bytes) (nettype : String) (addrtype : AddrType)
      (unicastAddress : String)
  | connection (nettype : String) (addrtype : AddrType) (connectionAddress : String)
deriving DecidableEq

namespace AddressLine

/-- The address that stands at the end of the line. -/
def address : AddressLine → String
  | .origin _ _ _ _ _ unicastAddress => unicastAddress
  | .connection _ _ connectionAddress => connectionAddress

/-- What stands behind the network type. -/
def typedAddress (addrtype : AddrType) (address : String) : Bytes :=
  asBytes addrtype.toText ++ ([32] ++ asBytes address)

/-- What stands behind the equals sign. -/
def value : AddressLine → Bytes
  | .origin username sessId sessVersion nettype addrtype unicastAddress =>
    username ++ ([32] ++ (sessId ++ ([32] ++ (sessVersion ++ ([32] ++
      (asBytes nettype ++ ([32] ++ typedAddress addrtype unicastAddress)))))))
  | .connection nettype addrtype connectionAddress =>
    asBytes nettype ++ ([32] ++ typedAddress addrtype connectionAddress)

/-- The letter of the line. -/
def field : AddressLine → SdpField
  | .origin .. => SdpField.origin
  | .connection .. => SdpField.connectionInformation

/-- The line with its end. -/
def toBytes (l : AddressLine) : Bytes := [l.field, 61] ++ (l.value ++ asBytes "\r\n")

/-! ### The grammar -/

/-- `non-ws-string`: visible characters, and all bytes that are not ASCII. -/
def NonWsString (text : Bytes) : Prop := text ≠ [] ∧ ∀ b ∈ text, (32 < b ∧ b < 127) ∨ 127 < b

/-- `1*DIGIT`. -/
def DigitString (text : Bytes) : Prop := text ≠ [] ∧ ∀ b ∈ text, isAsciiDigit b

/-- `token`; the separators are left out. -/
def TokenText (text : String) : Prop := asBytes text ≠ [] ∧ ∀ b ∈ asBytes text, SdpParser.isToken b

/-- A byte of a domain name. -/
def isFqdnByte (b : UInt8) : Bool := isAsciiAlphabetic b || isAsciiDigit b || b == 45 || b == 46

/-- `FQDN`. -/
def Fqdn (text : String) : Prop :=
  4 ≤ (asBytes text).length ∧ ∀ b ∈ asBytes text, isFqdnByte b

/-- `unicast-address`: an IPv4 or IPv6 address, or a domain name. -/
def UnicastAddress (text : String) : Prop := (IpAddr.parse text).isSome ∨ Fqdn text

/-- `multicast-address`: an IP address with a time to live or a number of addresses, or with
    both. -/
def MulticastAddress (text : String) : Prop :=
  ∃ ip number, (IpAddr.parse ip).isSome ∧ DigitString (asBytes number) ∧
    (text = ip ++ "/" ++ number ∨
      ∃ count, DigitString (asBytes count) ∧ text = ip ++ "/" ++ number ++ "/" ++ count)

/-- The line is one of the grammar of session descriptions. -/
def Valid : AddressLine → Prop
  | .origin username sessId sessVersion nettype _ unicastAddress =>
    NonWsString username ∧ DigitString sessId ∧ DigitString sessVersion ∧ TokenText nettype ∧
      UnicastAddress unicastAddress
  | .connection nettype _ connectionAddress =>
    TokenText nettype ∧ (UnicastAddress connectionAddress ∨ MulticastAddress connectionAddress)

/-! ### What is kept -/

/-- What the line adds to a description, if it is the address of the line. -/
def KeptIn (sdp sdp' : SessionDescription) : AddressLine → Prop
  | .origin _ _ _ _ _ unicastAddress =>
    ∃ o : Origin, sdp' = sdp.setOrigin o ∧ IpAddr.parse unicastAddress = some o.unicastAddress
  | .connection _ _ connectionAddress =>
    ∃ conn : ConnectionInformation, sdp' = sdp.setConnection conn ∧
      IpAddr.parse connectionAddress = some conn.conectionAddress

/-- Wherever the line stands, it is accepted, and its address is kept. -/
def Kept (l : AddressLine) : Prop :=
  ∀ (sdp : SessionDescription) (s : Scanner) (rest : Bytes), s.remaining = l.toBytes ++ rest →
    Stops isNewline rest →
    ∃ sdp', Gives (SdpParser.parseLine sdp) s (.inl sdp') rest ∧ l.KeptIn sdp sdp'

/-- The network type of a connection, as it is read: `IN` is looked for without what follows. -/
def readsNetType (nettype : String) : Bool :=
  nettype = "IN" ∨ ¬ (asBytes "IN").isPrefixOf (asBytes nettype)

/-- The line has what the parser can read, with an IP address. -/
def literal : AddressLine → Bool
  | .origin username sessId sessVersion _ _ unicastAddress =>
    (fromUtf8 username).isSome && (parseUnsigned (2 ^ 64) sessId).isSome &&
      (parseUnsigned (2 ^ 64) sessVersion).isSome && (IpAddr.parse unicastAddress).isSome
  | .connection nettype _ connectionAddress =>
    readsNetType nettype && (IpAddr.parse connectionAddress).isSome

/-! ### Visible texts -/

/-- No character is a blank or a line end. -/
def Visible (text : Bytes) : Prop := ∀ b ∈ text, 32 < b

/-- Blanks and line ends stand below the visible characters. -/
theorem visible_of_byte (b : UInt8) : 32 < b →
    isSpace b = false ∧ isNewline b = false ∧ SdpParser.isAsciiWhitespace b = false ∧ b ≠ 32 :=
  forall_byte_of_lt (p := fun b => 32 < b → isSpace b = false ∧ isNewline b = false ∧
    SdpParser.isAsciiWhitespace b = false ∧ b ≠ 32) (by decide +kernel) b

/-- Two texts of visible characters make one. -/
theorem Visible.append {xs ys : Bytes} (hxs : Visible xs) (hys : Visible ys) : Visible (xs ++ ys) :=
  List.forall_mem_append.mpr ⟨hxs, hys⟩

/-- Among visible characters there is no blank. -/
theorem Visible.not_mem {text : Bytes} (h : Visible text) : 32 ∉ text :=
  fun hb => (visible_of_byte 32 (h 32 hb)).2.2.2 rfl

/-- In front of a visible text there is no blank to skip. -/
theorem Visible.stops {text : Bytes} (h : Visible text) (hne : text ≠ []) (rest : Bytes) :
    Stops isSpace (text ++ rest) :=
  stops_append (fun _ b hb => (visible_of_byte b (h b (List.mem_of_mem_head? hb))).1)
    fun hnil => absurd hnil hne

/-- A user name of the grammar has no blank and no line end in it. -/
theorem visible_nonWsString {text : Bytes} (h : NonWsString text) : Visible text := by
  intro b hb
  rcases h.2 b hb with h | h
  · exact h.1
  · exact UInt8.lt_trans (by decide) h

/-- Digits are visible. -/
theorem visible_digitString {text : Bytes} (h : DigitString text) : Visible text := fun b hb =>
  forall_byte_of_lt (p := fun b => isAsciiDigit b → 32 < b) (by decide +kernel) b (h.2 b hb)

/-- The characters of a token of the grammar are visible. -/
theorem visible_tokenText {text : String} (h : TokenText text) : Visible (asBytes text) := by
  have htable : ∀ slice ∈ [SdpParser.alphanumeric, SdpParser.token], ∀ b ∈ asBytes slice, 32 < b := by
    decide +kernel
  intro b hb
  obtain ⟨slice, hslice, hmem⟩ := List.any_eq_true.mp (h.2 b hb)
  exact htable slice hslice b (List.contains_iff_mem.mp hmem)

/-- The address type is visible. -/
theorem visible_addrType (addrtype : AddrType) : Visible (asBytes addrtype.toText) := by
  cases addrtype <;> exact show ∀ b ∈ _, _ by decide

/-- Whatever is read as an IP address is visible. -/
theorem visible_ipAddr {text : String} (h : (IpAddr.parse text).isSome) : Visible (asBytes text) := by
  obtain ⟨ip, hip⟩ := Option.isSome_iff_exists.mp h
  intro b hb
  exact forall_byte_of_lt (p := fun b => inIpAddr b → 32 < b) (by decide +kernel) b
    (IpAddr.mem_of_parse hip b hb)

/-- A unicast address is visible, be it a number or a name. -/
theorem visible_unicastAddress {text : String} (h : UnicastAddress text) : Visible (asBytes text) := by
  rcases h with hip | hfqdn
  · exact visible_ipAddr hip
  · intro b hb
    exact forall_byte_of_lt (p := fun b => isFqdnByte b → 32 < b) (by decide +kernel) b (hfqdn.2 b hb)

/-- A multicast address is visible, with its time to live and its number. -/
theorem visible_multicastAddress {text : String} (h : MulticastAddress text) :
    Visible (asBytes text) := by
  obtain ⟨ip, number, hip, hnumber, htext⟩ := h
  have hslash : Visible (asBytes "/") := show ∀ b ∈ _, _ by decide
  rcases htext with rfl | ⟨count, hcount, rfl⟩
  · rw [asBytes_append, asBytes_append]
    exact ((visible_ipAddr hip).append hslash).append (visible_digitString hnumber)
  · rw [asBytes_append, asBytes_append, asBytes_append, asBytes_append]
    exact ((((visible_ipAddr hip).append hslash).append (visible_digitString hnumber)).append
      hslash).append (visible_digitString hcount)

/-- The address of a line is visible, and is not the end of a scan. -/
theorem visible_address {l : AddressLine} (h : l.Valid) : Visible (asBytes l.address) := by
  cases l with
  | origin username sessId sessVersion nettype addrtype unicastAddress =>
    exact visible_unicastAddress h.2.2.2.2
  | connection nettype addrtype connectionAddress =>
    exact h.2.elim visible_unicastAddress visible_multicastAddress

end AddressLine

namespace SdpParser

open AddressLine

variable {α β : Type} {c : Scanner} {b : β} {text rest left : Bytes}

/-! ### One step -/

/-- A reader that reads a text in front leaves it to the next one to decide what is given. -/
theorem gives_reads_bind {r : Parse α} {f : α → Parse β} {a : α} (h : Reads r text rest a)
    (hc : c.remaining = text ++ rest) :
    Gives (r >>= f) c b left ↔ Gives (f a) (Lib.advance c text) b left := by
  rw [Gives, h.bind_run hc]
  rfl

/-- A text up to a blank, if it is UTF-8. -/
theorem gives_user_bind {f : String → Parse β} (htext : Visible text)
    (hc : c.remaining = text ++ 32 :: rest) :
    Gives (ofScan (Scan.scanWhileAsStr fun b => !isAsciiWhitespace b) >>= f) c b left ↔
      ∃ user, fromUtf8 text = some user ∧ Gives (f user) (Lib.advance c text) b left := by
  have hvisible : ∀ b ∈ text, !isAsciiWhitespace b :=
    fun b hb => by rw [(visible_of_byte b (htext b hb)).2.2.1]; rfl
  have hstops : Stops (fun b => !isAsciiWhitespace b) (32 :: rest) := stops_cons.mpr rfl
  constructor
  · intro h
    obtain ⟨user, c', hread, -⟩ := gives_bind.mp h
    obtain ⟨htake, -⟩ := gives_scanWhile.mp (gives_scanWhileAsStr.mp (gives_ofScan.mp ⟨c', hread, rfl⟩))
    rw [hc, takeWhile_append_stops hvisible hstops] at htake
    subst htake
    refine ⟨user, fromUtf8_asBytes user, ?_⟩
    exact (gives_reads_bind (reads_ofScan (Scan.reads_scanWhileAsStr hvisible hstops)) hc).mp h
  · rintro ⟨user, huser, h⟩
    obtain rfl := fromUtf8_eq_some_iff.mp huser
    exact (gives_reads_bind (reads_ofScan (Scan.reads_scanWhileAsStr hvisible hstops)) hc).mpr h

/-- A number up to a blank, if it fits. -/
theorem gives_u64_bind {f : UInt64 → Parse β} (htext : DigitString text)
    (hc : c.remaining = text ++ 32 :: rest) :
    Gives (ofScan Scan.scanU64 >>= f) c b left ↔
      ∃ n, parseUnsigned (2 ^ 64) text = some n ∧
        Gives (f (UInt64.ofNat n)) (Lib.advance c text) b left := by
  have hstops : Stops isAsciiDigit (32 :: rest) := stops_cons.mpr rfl
  have hreads : ∀ n, parseUnsigned (2 ^ 64) text = some n →
      Reads (ofScan Scan.scanU64) text (32 :: rest) (UInt64.ofNat n) := by
    intro n hn
    obtain ⟨digits, rfl⟩ : ∃ s, asBytes s = text := exists_asBytes_of_ascii fun b hb =>
      forall_byte_of_lt (p := fun b => isAsciiDigit b → b < 0x80) (by decide +kernel) b (htext.2 b hb)
    exact reads_ofScan (Scan.reads_scanUnsigned_of htext.2 hn hstops).map
  constructor
  · intro h
    obtain ⟨id, c', hread, -⟩ := gives_bind.mp h
    obtain ⟨n, -, hn⟩ := gives_map.mp (gives_ofScan.mp ⟨c', hread, rfl⟩)
    have hn := (gives_scanUnsigned.mp hn).1
    rw [hc, takeWhile_append_stops htext.2 hstops] at hn
    exact ⟨n, hn, (gives_reads_bind (hreads n hn) hc).mp h⟩
  · rintro ⟨n, hn, h⟩
    exact (gives_reads_bind (hreads n hn) hc).mpr h

/-- Where an address is made of a text, something is given exactly if the text is one. -/
theorem gives_ipAddr_bind {f : IpAddr → Parse β} {context address : String} :
    Gives (ipAddr context address >>= f) c b left ↔
      ∃ ip, IpAddr.parse address = some ip ∧ Gives (f ip) c b left := by
  rw [ipAddr]
  cases hparse : IpAddr.parse address with
  | none =>
    refine iff_of_false ?_ (by simp)
    rintro ⟨c', h, -⟩
    cases h
  | some ip =>
    constructor
    · exact fun h => ⟨ip, rfl, h⟩
    · rintro ⟨ip', hip, h⟩
      obtain rfl := Option.some.inj hip
      exact h

/-- A blank in front of a visible text. -/
theorem gives_blank_bind {f : Unit → Parse β} (htext : Visible text) (hne : text ≠ [])
    (hc : c.remaining = [32] ++ (text ++ rest)) :
    Gives (handleWs >>= f) c b left ↔ Gives (f ()) (Lib.advance c [32]) b left :=
  gives_reads_bind (reads_blank (htext.stops hne rest)) hc

/-! ### Whole lines -/

/-- The address type has a name that is not empty. -/
theorem addrType_ne_nil (addrtype : AddrType) : asBytes addrtype.toText ≠ [] := by
  cases addrtype <;> decide

/-- The address at the end of a line. -/
theorem stops_address {address : String} (h : Visible (asBytes address)) :
    Stops isSpace (asBytes address ++ 13 :: rest) :=
  stops_append (fun hne => by simpa using h.stops hne []) fun _ => stops_cons.mpr rfl

/-- The address that ends a line, after it has been read as a text. -/
theorem gives_endAddress {context address : String} {k : IpAddr → β} (hc : c.remaining = 13 :: rest) :
    Gives (do
      let ip ← ipAddr context address
      handleWs
      return k ip) c b left ↔
      ∃ ip, IpAddr.parse address = some ip ∧ b = k ip ∧ left = 13 :: rest := by
  refine gives_ipAddr_bind.trans (exists_congr fun ip => and_congr_right fun _ => ?_)
  have hc : c.remaining = [] ++ 13 :: rest := hc
  refine (gives_reads_bind (reads_handleWs (List.forall_mem_nil _) (stops_cons.mpr rfl)) hc).trans ?_
  rw [gives_pure, eq_comm]
  exact and_congr_right' (Eq.congr_right (remaining_advance (σ := Scanner) hc))

/-- The address of an origin, behind its type. -/
theorem gives_originAddress {address : String} {k : IpAddr → β} (haddress : Visible (asBytes address))
    (hc : c.remaining = [32] ++ (asBytes address ++ 13 :: rest)) :
    Gives (do
      handleWs
      let unicastAddress ← ipAddr "" (← ofScan (Scan.scanUntilAnyAsStr (asBytes " \t\r\n")))
      handleWs
      return k unicastAddress) c b left ↔
      ∃ ip, IpAddr.parse address = some ip ∧ b = k ip ∧ left = 13 :: rest := by
  refine (gives_reads_bind (reads_blank (stops_address haddress)) hc).trans ?_
  have hc := remaining_advance (σ := Scanner) hc
  have hreads : Reads (ofScan (Scan.scanUntilAnyAsStr (asBytes " \t\r\n"))) (asBytes address)
      (13 :: rest) address := by
    refine reads_ofScan (Scan.reads_scanWhileAsStr (fun b hb => ?_) (stops_cons.mpr (by decide)))
    exact forall_byte_of_lt (p := fun b => 32 < b → !(asBytes " \t\r\n").contains b)
      (by decide +kernel) b (haddress b hb)
  exact (gives_reads_bind hreads hc).trans (gives_endAddress (remaining_advance (σ := Scanner) hc))

/-- **What is read from an origin** that the grammar allows. -/
theorem gives_parseOrigin_iff {username sessId sessVersion : Bytes} {nettype address : String}
    {addrtype : AddrType} {o : Origin} (husername : NonWsString username) (hid : DigitString sessId)
    (hversion : DigitString sessVersion) (hnettype : TokenText nettype) (haddress : Visible (asBytes address))
    (hc : c.remaining =
      (AddressLine.origin username sessId sessVersion nettype addrtype address).value ++ 13 :: rest) :
    Gives parseOrigin c o left ↔
      ∃ user, fromUtf8 username = some user ∧
        ∃ id, parseUnsigned (2 ^ 64) sessId = some id ∧
          ∃ version, parseUnsigned (2 ^ 64) sessVersion = some version ∧
            ∃ ip, IpAddr.parse address = some ip ∧
              o = ⟨user, .ofNat id, .ofNat version, netType nettype, addrtype, ip⟩ ∧
              left = 13 :: rest := by
  simp only [AddressLine.value, typedAddress, List.append_assoc] at hc
  refine (gives_user_bind (visible_nonWsString husername) hc).trans ?_
  refine exists_congr fun user => and_congr_right fun _ => ?_
  have hc := remaining_advance (σ := Scanner) hc
  refine (gives_blank_bind (visible_digitString hid) hid.1 hc).trans ?_
  have hc := remaining_advance (σ := Scanner) hc
  refine (gives_u64_bind hid hc).trans (exists_congr fun id => and_congr_right fun _ => ?_)
  have hc := remaining_advance (σ := Scanner) hc
  refine (gives_blank_bind (visible_digitString hversion) hversion.1 hc).trans ?_
  have hc := remaining_advance (σ := Scanner) hc
  refine (gives_u64_bind hversion hc).trans (exists_congr fun version => and_congr_right fun _ => ?_)
  have hc := remaining_advance (σ := Scanner) hc
  have hvisible := visible_tokenText hnettype
  refine (gives_blank_bind hvisible hnettype.1 hc).trans ?_
  have hc := remaining_advance (σ := Scanner) hc
  refine (gives_reads_bind (reads_untilBlank hvisible.not_mem).map hc).trans ?_
  have hc := remaining_advance (σ := Scanner) hc
  refine (gives_blank_bind (visible_addrType addrtype) (addrType_ne_nil addrtype) hc).trans ?_
  have hc := remaining_advance (σ := Scanner) hc
  refine (gives_reads_bind (reads_untilBlank (visible_addrType addrtype).not_mem) hc).trans ?_
  have hc := remaining_advance (σ := Scanner) hc
  cases addrtype with
  | ip4 => exact gives_originAddress haddress hc
  | ip6 => exact gives_originAddress haddress hc

/-- The address of a connection, behind its type. -/
theorem gives_connectionAddress {address : String} {k : IpAddr → β}
    (haddress : Visible (asBytes address))
    (hc : c.remaining = [32] ++ (asBytes address ++ 13 :: rest)) :
    Gives (do
      handleWs
      let conectionAddress ← ipAddr "Invalid Connection Address: " (← readLine)
      handleWs
      return k conectionAddress) c b left ↔
      ∃ ip, IpAddr.parse address = some ip ∧ b = k ip ∧ left = 13 :: rest := by
  refine (gives_reads_bind (reads_blank (stops_address haddress)) hc).trans ?_
  have hc := remaining_advance (σ := Scanner) hc
  have hreads : Reads readLine (asBytes address) (13 :: rest) address :=
    reads_readLine fun b hb => (visible_of_byte b (haddress b hb)).2.1
  exact (gives_reads_bind hreads hc).trans (gives_endAddress (remaining_advance (σ := Scanner) hc))

/-- What is read as the address of a connection has no blanks. -/
theorem not_gives_connectionAddress {k : IpAddr → β} {more addrtype : Bytes}
    (hmore : Visible more) (haddrtype : Visible addrtype) (hne : addrtype ≠ [])
    (hc : c.remaining = more ++ ([32] ++ (addrtype ++ ([32] ++ rest)))) :
    ¬ Gives (do
      handleWs
      let conectionAddress ← ipAddr "Invalid Connection Address: " (← readLine)
      handleWs
      return k conectionAddress) c b left := by
  intro h
  obtain ⟨_, c₁, hws, h⟩ := gives_bind.mp h
  obtain ⟨line, c₂, hline, h⟩ := gives_bind.mp h
  obtain ⟨ip, hip, -⟩ := gives_ipAddr_bind.mp h
  have hrem : c₁.remaining =
      (more ++ [32]).dropWhile isSpace ++ (addrtype ++ ([32] ++ rest)) := by
    have hdrop : c₁.remaining = c.remaining.dropWhile isSpace :=
      leaves_handleWs c _ _ ⟨c₁, hws, rfl⟩
    rw [hdrop, hc, ← List.append_assoc, dropWhile_append_of_stops (haddrtype.stops hne _)]
  obtain ⟨htake, -⟩ := gives_scanWhile.mp (gives_scanWhileAsStr.mp (gives_ofScan.mp ⟨c₂, hline, rfl⟩))
  -- the line goes on behind the blank
  have hfront : ∀ b ∈ (more ++ [32]).dropWhile isSpace ++ (addrtype ++ [32]), !isNewline b := by
    intro b hb
    have hmem : b ∈ more ∨ b = 32 ∨ b ∈ addrtype := by
      simp only [List.mem_append, List.mem_singleton] at hb
      rcases hb with hb | hb | hb
      · have hb := (List.dropWhile_suffix _).subset hb
        simp only [List.mem_append, List.mem_singleton] at hb
        exact hb.imp_right Or.inl
      · exact .inr (.inr hb)
      · exact .inr (.inl hb)
    rcases hmem with hb | rfl | hb
    · rw [(visible_of_byte b (hmore b hb)).2.1]; rfl
    · rfl
    · rw [(visible_of_byte b (haddrtype b hb)).2.1]; rfl
  have hblank : (32 : UInt8) ∈ asBytes line := by
    rw [htake, hrem, ← List.append_assoc addrtype, ← List.append_assoc,
      List.takeWhile_append_of_pos hfront]
    simp
  exact absurd (IpAddr.mem_of_parse hip 32 hblank) (by decide)

/-- What stands behind the network type of a connection. -/
theorem gives_afterNetType {address : String} {addrtype : AddrType} {nettype : NetType}
    {conn : ConnectionInformation} (haddress : Visible (asBytes address))
    (hc : c.remaining = [32] ++ (typedAddress addrtype address ++ 13 :: rest)) :
    Gives (do
      handleWs
      let addrtype ←
        match addrType ((← get).peekN 3) with
        | some addrtype => pure addrtype
        | none => fail (.parseSdpError (.syntaxError "Invalid Addr Type"))
      modify (Scanner.advanceN 3)
      handleWs
      let conectionAddress ← ipAddr "Invalid Connection Address: " (← readLine)
      handleWs
      return (⟨nettype, addrtype, conectionAddress⟩ : ConnectionInformation)) c conn left ↔
      ∃ ip, IpAddr.parse address = some ip ∧ conn = ⟨nettype, addrtype, ip⟩ ∧ left = 13 :: rest := by
  rw [typedAddress, List.append_assoc, List.append_assoc] at hc
  refine (gives_blank_bind (visible_addrType addrtype) (addrType_ne_nil addrtype) hc).trans ?_
  have hc := remaining_advance (σ := Scanner) hc
  -- both address types are three bytes long
  have hlength : (asBytes addrtype.toText).length = 3 := by cases addrtype <;> decide
  have hpeek : addrType ((Lib.advance c [32]).peekN 3) = some addrtype := by
    rw [← hlength, peekN_eq hc]
    cases addrtype <;> decide
  have hget : ∀ f : Scanner → Parse ConnectionInformation,
      Gives (MonadState.get >>= f) (Lib.advance c [32]) conn left ↔
        Gives (f (Lib.advance c [32])) (Lib.advance c [32]) conn left := fun _ => Iff.rfl
  refine (hget _).trans ?_
  rw [hpeek]
  have hadvance : Gives (modify (Scanner.advanceN (asBytes addrtype.toText).length) >>= fun _ => do
      handleWs
      let conectionAddress ← ipAddr "Invalid Connection Address: " (← readLine)
      handleWs
      return (⟨nettype, addrtype, conectionAddress⟩ : ConnectionInformation))
      (Lib.advance c [32]) conn left ↔ _ :=
    (gives_advanceN hc).trans (gives_connectionAddress haddress (remaining_advance (σ := Scanner) hc))
  rw [hlength] at hadvance
  exact hadvance

/-- A visible text without blanks is looked for in front of the blank. -/
theorem exists_of_prefix_append {more sought : Bytes} (hsought : Visible sought)
    (h : sought <+: more ++ 32 :: rest) : ∃ left, more = sought ++ left := by
  rcases List.prefix_or_prefix_of_prefix h (List.prefix_append more (32 :: rest)) with h' | h'
  · exact h'.imp fun _ => Eq.symm
  · obtain ⟨left, rfl⟩ := h'
    rw [List.prefix_append_right_inj] at h
    cases left with
    | nil => exact ⟨[], by simp⟩
    | cons b left =>
      obtain ⟨tail, htail⟩ := h
      obtain ⟨rfl, -⟩ := List.cons.inj htail
      exact absurd (by simp) hsought.not_mem

/-- Behind `IN` there is no address type, if the network type goes on. -/
theorem not_gives_afterNetType {more addrtype : Bytes} {nettype : NetType}
    {conn : ConnectionInformation} (hmore : Visible more) (hne : more ≠ [])
    (haddrtype : Visible addrtype) (haddrne : addrtype ≠ [])
    (hc : c.remaining = more ++ ([32] ++ (addrtype ++ ([32] ++ rest)))) :
    ¬ Gives (do
      handleWs
      let addrtype ←
        match addrType ((← get).peekN 3) with
        | some addrtype => pure addrtype
        | none => fail (.parseSdpError (.syntaxError "Invalid Addr Type"))
      modify (Scanner.advanceN 3)
      handleWs
      let conectionAddress ← ipAddr "Invalid Connection Address: " (← readLine)
      handleWs
      return (⟨nettype, addrtype, conectionAddress⟩ : ConnectionInformation)) c conn left := by
  intro h
  have hws : Reads handleWs [] (more ++ ([32] ++ (addrtype ++ ([32] ++ rest)))) () :=
    reads_handleWs (List.forall_mem_nil _) (hmore.stops hne _)
  have h := (gives_reads_bind hws hc).mp h
  -- what is found in front of the blank is followed by the rest of the network type
  have hfound : ∀ (sought : Bytes) (kind : AddrType), Visible sought → sought.length = 3 →
      sought <+: c.remaining → ¬ Gives (modify (Scanner.advanceN 3) >>= fun _ => do
        handleWs
        let conectionAddress ← ipAddr "Invalid Connection Address: " (← readLine)
        handleWs
        return (⟨nettype, kind, conectionAddress⟩ : ConnectionInformation)) c conn left := by
    intro sought kind hsought hlength hpre
    rw [hc] at hpre
    obtain ⟨rest', rfl⟩ := exists_of_prefix_append hsought hpre
    rw [List.append_assoc] at hc
    rw [← hlength, gives_advanceN hc]
    refine not_gives_connectionAddress (fun b hb => hmore b ?_) haddrtype haddrne
      (remaining_advance (σ := Scanner) hc)
    exact List.mem_append_right _ hb
  have h : Gives (match addrType (c.peekN 3) with
      | some addrtype => _
      | none => _) c conn left := h
  rw [addrType_peekN] at h
  split_ifs at h with h4 h6
  · exact hfound _ _ (by exact show ∀ b ∈ _, _ by decide) (by decide) (List.isPrefixOf_iff_prefix.mp h4) h
  · exact hfound _ _ (by exact show ∀ b ∈ _, _ by decide) (by decide) (List.isPrefixOf_iff_prefix.mp h6) h
  · obtain ⟨c', h, -⟩ := h
    cases h

/-- **What is read from a connection** that the grammar allows. -/
theorem gives_parseConnectionInfo_iff {nettype address : String} {addrtype : AddrType}
    {conn : ConnectionInformation} (hnettype : TokenText nettype) (haddress : Visible (asBytes address))
    (hc : c.remaining = (AddressLine.connection nettype addrtype address).value ++ 13 :: rest) :
    Gives parseConnectionInfo c conn left ↔
      readsNetType nettype ∧ ∃ ip, IpAddr.parse address = some ip ∧
        conn = ⟨netType nettype, addrtype, ip⟩ ∧ left = 13 :: rest := by
  simp only [AddressLine.value, List.append_assoc] at hc
  have hvisible := visible_tokenText hnettype
  by_cases hpre : asBytes "IN" <+: asBytes nettype
  · obtain ⟨more, hmore⟩ := hpre
    rw [← hmore, List.append_assoc] at hc
    refine (gives_reads_bind reads_connectionNetType hc).trans ?_
    have hc := remaining_advance (σ := Scanner) hc
    cases more with
    | nil =>
      obtain rfl : nettype = "IN" := asBytes_injective (by simpa using hmore.symm)
      exact (gives_afterNetType haddress hc).trans (and_iff_right rfl).symm
    | cons b more =>
      rw [typedAddress, List.append_assoc, List.append_assoc] at hc
      refine iff_of_false ?_ ?_
      · refine not_gives_afterNetType (fun x hx => ?_) (List.cons_ne_nil _ _)
          (visible_addrType addrtype) (addrType_ne_nil addrtype) hc
        exact hvisible x (hmore ▸ List.mem_append_right _ hx)
      · rintro ⟨hreads, -⟩
        rw [readsNetType, decide_eq_true_eq, List.isPrefixOf_iff_prefix] at hreads
        rcases hreads with rfl | hreads
        · have hlength := congrArg List.length hmore
          simp at hlength
        · exact hreads ⟨_, hmore⟩
  · have hin : nettype ≠ "IN" := by
      rintro rfl
      exact hpre List.prefix_rfl
    have hother : netType nettype = .other nettype := if_neg hin
    have hreads : Reads connectionNetType (asBytes nettype)
        ([32] ++ (typedAddress addrtype address ++ 13 :: rest)) (.other nettype) := by
      apply Reads.get_bind
      intro s hs
      have hnot : ¬ s.matchesPrefix (asBytes "IN") = true := by
        rw [Scanner.matchesPrefix, show s.remaining = _ from hs, List.isPrefixOf_iff_prefix]
        intro h
        obtain ⟨more, hmore⟩ := exists_of_prefix_append (show ∀ b ∈ _, _ by decide) h
        exact hpre ⟨more, hmore.symm⟩
      rw [if_neg hnot]
      refine Reads.bind_nil (reads_ofScan (Scan.reads_scanWhileAsStr (fun b hb => ?_) ?_))
        (Reads.pure _ _)
      · rw [(visible_of_byte b (hvisible b hb)).1]; rfl
      · exact stops_cons.mpr rfl
    refine (gives_reads_bind hreads hc).trans ?_
    refine (gives_afterNetType haddress (remaining_advance (σ := Scanner) hc)).trans ?_
    rw [hother]
    refine (and_iff_right ?_).symm
    rw [readsNetType, decide_eq_true_eq, List.isPrefixOf_iff_prefix]
    exact .inr hpre

/-- A line whose value is stored, if it is read up to its end. -/
theorem gives_parseLine_stored {read : Parse α} {store : α → SessionDescription} {field : SdpField}
    {sdp sdp' : SessionDescription} (hfield : parseField field sdp = do return store (← read))
    (hc : c.remaining = [field, 61] ++ (text ++ asBytes "\r\n" ++ rest)) (hrest : Stops isNewline rest)
    (hread : ∀ {a left}, Gives read (Lib.advance c [field, 61]) a left → left = asBytes "\r\n" ++ rest) :
    Gives (parseLine sdp) c (.inl sdp') left ↔
      ∃ a, Gives read (Lib.advance c [field, 61]) a (asBytes "\r\n" ++ rest) ∧
        sdp' = store a ∧ left = rest := by
  let next (sdp : SessionDescription) : Parse (SessionDescription ⊕ SessionDescription) := do
    handleNewLine
    return .inl sdp
  have hget : Gives (parseLine sdp) c (.inl sdp') left ↔
      Gives (readField >>= fun field => parseField field sdp >>= next) c (.inl sdp') left := by
    show Gives (if c.isEof then _ else _) c _ _ ↔ _
    rw [isEof_eq_false hc]
    rfl
  refine hget.trans ((gives_reads_bind reads_readField hc).trans ?_)
  rw [hfield, bind_assoc, gives_bind]
  -- the line end is what is left
  have hends : ∀ {c' : Scanner} {a : α}, c'.remaining = asBytes "\r\n" ++ rest →
      (Gives (next (store a)) c' (.inl sdp') left ↔ sdp' = store a ∧ left = rest) := by
    intro c' a hc'
    refine (gives_reads_bind (reads_handleNewLine (by decide) hrest) hc').trans ?_
    rw [gives_pure, remaining_advance (σ := Scanner) hc', Sum.inl.injEq, eq_comm]
  constructor
  · rintro ⟨a, c', hrun, h⟩
    have hleft : c'.remaining = _ := hread ⟨c', hrun, rfl⟩
    exact ⟨a, ⟨c', hrun, hleft⟩, (hends hleft).mp h⟩
  · rintro ⟨a, ⟨c', hrun, hleft⟩, h⟩
    exact ⟨a, c', hrun, (hends hleft).mpr h⟩

end SdpParser

namespace AddressLine

open SdpParser

/-- What a line adds to a description. -/
def adds (sdp : SessionDescription) : AddressLine → Option SessionDescription
  | .origin username sessId sessVersion nettype addrtype unicastAddress => do
    let user ← fromUtf8 username
    let id ← parseUnsigned (2 ^ 64) sessId
    let version ← parseUnsigned (2 ^ 64) sessVersion
    let ip ← IpAddr.parse unicastAddress
    return sdp.setOrigin ⟨user, .ofNat id, .ofNat version, netType nettype, addrtype, ip⟩
  | .connection nettype addrtype connectionAddress => do
    let ip ← if readsNetType nettype then IpAddr.parse connectionAddress else none
    return sdp.setConnection ⟨netType nettype, addrtype, ip⟩

/-- A connection line adds something exactly if its network type can be read and its address is an
    IP address. -/
theorem adds_connection_iff {nettype address : String} {addrtype : AddrType}
    {sdp sdp' : SessionDescription} :
    (AddressLine.connection nettype addrtype address).adds sdp = some sdp' ↔
      readsNetType nettype ∧ ∃ ip, IpAddr.parse address = some ip ∧
        sdp.setConnection ⟨netType nettype, addrtype, ip⟩ = sdp' := by
  simp only [adds, Option.bind_eq_bind, Option.pure_def]
  by_cases hreads : readsNetType nettype
  · rw [if_pos hreads, Option.bind_eq_some_iff, and_iff_right hreads]
    simp only [Option.some.injEq]
  · rw [if_neg hreads]
    exact iff_of_false (by simp) fun h => hreads h.1

/-- An origin line adds something exactly if its user is UTF-8, its numbers are in range and its
    address is an IP address. -/
theorem adds_origin_iff {username sessId sessVersion : Bytes} {nettype address : String}
    {addrtype : AddrType} {sdp sdp' : SessionDescription} :
    (AddressLine.origin username sessId sessVersion nettype addrtype address).adds sdp = some sdp' ↔
      ∃ user, fromUtf8 username = some user ∧
        ∃ id, parseUnsigned (2 ^ 64) sessId = some id ∧
          ∃ version, parseUnsigned (2 ^ 64) sessVersion = some version ∧
            ∃ ip, IpAddr.parse address = some ip ∧
              sdp.setOrigin ⟨user, .ofNat id, .ofNat version, netType nettype, addrtype, ip⟩ =
                sdp' := by
  simp only [adds, Option.bind_eq_bind, Option.bind_eq_some_iff, Option.pure_def,
    Option.some.injEq]

/-- Whether a line adds something depends on the line only, not on the description so far. -/
theorem isSome_adds (sdp : SessionDescription) (l : AddressLine) :
    (l.adds sdp).isSome ↔ l.literal := by
  cases l with
  | origin username sessId sessVersion nettype addrtype address =>
    simp only [literal, Bool.and_eq_true, Option.isSome_iff_exists, adds_origin_iff]
    constructor
    · rintro ⟨_, user, huser, id, hid, version, hversion, ip, hip, -⟩
      exact ⟨⟨⟨⟨user, huser⟩, id, hid⟩, version, hversion⟩, ip, hip⟩
    · rintro ⟨⟨⟨⟨user, huser⟩, id, hid⟩, version, hversion⟩, ip, hip⟩
      exact ⟨_, user, huser, id, hid, version, hversion, ip, hip, rfl⟩
  | connection nettype addrtype address =>
    simp only [literal, Bool.and_eq_true, Option.isSome_iff_exists, adds_connection_iff]
    constructor
    · rintro ⟨_, hreads, ip, hip, -⟩
      exact ⟨hreads, ip, hip⟩
    · rintro ⟨hreads, ip, hip⟩
      exact ⟨_, hreads, ip, hip, rfl⟩

/-- What a line adds has the address of the line. -/
theorem keptIn_adds {sdp sdp' : SessionDescription} {l : AddressLine} (h : l.adds sdp = some sdp') :
    l.KeptIn sdp sdp' := by
  cases l with
  | origin username sessId sessVersion nettype addrtype address =>
    obtain ⟨user, -, id, -, version, -, ip, hip, rfl⟩ := adds_origin_iff.mp h
    exact ⟨_, rfl, hip⟩
  | connection nettype addrtype address =>
    obtain ⟨-, ip, hip, rfl⟩ := adds_connection_iff.mp h
    exact ⟨_, rfl, hip⟩

/-- **What a line adds** is stored, wherever the line stands. -/
theorem gives_parseLine_iff {l : AddressLine} (h : l.Valid) {sdp sdp' : SessionDescription}
    {s : Scanner} {rest left : Bytes} (hs : s.remaining = l.toBytes ++ rest)
    (hrest : Stops isNewline rest) :
    Gives (parseLine sdp) s (.inl sdp') left ↔ l.adds sdp = some sdp' ∧ left = rest := by
  rw [toBytes, List.append_assoc] at hs
  have hvalue : Cursor.remaining (Lib.advance s [l.field, 61]) = l.value ++ 13 :: (10 :: rest) := by
    rw [remaining_advance (σ := Scanner) hs, List.append_assoc]
    rfl
  have haddress := visible_address h
  cases l with
  | origin username sessId sessVersion nettype addrtype address =>
    obtain ⟨husername, hid, hversion, hnettype, -⟩ := h
    have hread := fun (o : Origin) (left : Bytes) =>
      (gives_parseOrigin_iff husername hid hversion hnettype haddress hvalue :
        Gives parseOrigin (Lib.advance s [111, 61]) o left ↔ _)
    have hfield : parseField .origin sdp = do return sdp.setOrigin (← parseOrigin) := rfl
    refine (gives_parseLine_stored hfield hs hrest fun hgives => ?_).trans ?_
    · obtain ⟨-, -, -, -, -, -, -, -, -, hleft⟩ := (hread _ _).mp hgives
      exact hleft
    · rw [adds_origin_iff]
      constructor
      · rintro ⟨o, hgives, rfl, rfl⟩
        obtain ⟨user, huser, id, hid, version, hversion, ip, hip, rfl, -⟩ := (hread _ _).mp hgives
        exact ⟨⟨user, huser, id, hid, version, hversion, ip, hip, rfl⟩, rfl⟩
      · rintro ⟨⟨user, huser, id, hid, version, hversion, ip, hip, rfl⟩, rfl⟩
        exact ⟨_, (hread _ _).mpr ⟨user, huser, id, hid, version, hversion, ip, hip, rfl, rfl⟩, rfl, rfl⟩
  | connection nettype addrtype address =>
    have hread := fun (conn : ConnectionInformation) (left : Bytes) =>
      (gives_parseConnectionInfo_iff h.1 haddress hvalue :
        Gives parseConnectionInfo (Lib.advance s [99, 61]) conn left ↔ _)
    have hfield : parseField .connectionInformation sdp = do return sdp.setConnection (← parseConnectionInfo) := rfl
    refine (gives_parseLine_stored hfield hs hrest fun hgives => ?_).trans ?_
    · obtain ⟨-, -, -, -, hleft⟩ := (hread _ _).mp hgives
      exact hleft
    · rw [adds_connection_iff]
      constructor
      · rintro ⟨conn, hgives, rfl, rfl⟩
        obtain ⟨hreads, ip, hip, rfl, -⟩ := (hread _ _).mp hgives
        exact ⟨⟨hreads, ip, hip, rfl⟩, rfl⟩
      · rintro ⟨⟨hreads, ip, hip, rfl⟩, rfl⟩
        exact ⟨_, (hread _ _).mpr ⟨hreads, ip, hip, rfl, rfl⟩, rfl, rfl⟩

/-- A line of the grammar whose address is kept has what the parser can read. -/
theorem literal_of_kept {l : AddressLine} (h : l.Valid) (hkept : l.Kept) : l.literal := by
  let sdp := SessionDescription.default (.v4 ⟨0, 0, 0, 0⟩)
  have hs : (Scanner.new l.toBytes).remaining = l.toBytes ++ [] := by
    simp [Scanner.remaining, Scanner.new]
  obtain ⟨sdp', hgives, -⟩ := hkept sdp (Scanner.new l.toBytes) [] hs (stops_nil _)
  have hadds := ((gives_parseLine_iff h hs (stops_nil _)).mp hgives).1
  exact (isSome_adds sdp l).mp (hadds ▸ rfl)

/-- **Only an IP address is kept.**  A line that RFC 4566 allows is accepted with its address if the
    address is an IP address, the user of an origin is UTF-8 and its ids fit into 64 bits, and the
    network type of a connection is `IN` or does not start with it. -/
theorem kept_iff {l : AddressLine} (h : l.Valid) : l.Kept ↔ l.literal := by
  refine ⟨literal_of_kept h, fun hliteral sdp s rest hs hrest => ?_⟩
  obtain ⟨sdp', hadds⟩ := Option.isSome_iff_exists.mp ((isSome_adds sdp l).mpr hliteral)
  exact ⟨sdp', (gives_parseLine_iff h hs hrest).mpr ⟨hadds, rfl⟩, keptIn_adds hadds⟩

/-- The connection of the offer. -/
def inLan : AddressLine := .connection "IN" .ip4 "100.101.102.103"

/-- The connection of the offer is one of the grammar. -/
theorem valid_inLan : inLan.Valid :=
  ⟨⟨by decide, by decide⟩, .inl (.inl (by decide +kernel))⟩

/-- The condition at the connection of the offer. -/
theorem kept_iff_inLan : inLan.Valid ∧ (inLan.Kept ↔ inLan.literal) := ⟨valid_inLan, kept_iff valid_inLan⟩

/-- The origin of the offer, at a host with a name. -/
def tesla : AddressLine :=
  .origin (asBytes "Tesla") (asBytes "2890844526") (asBytes "2890844526") "IN" .ip4
    "lab.high-voltage.org"

/-- An offer whose `o` line has a domain name, as the negotiator's test has it. -/
def offer : Bytes :=
  asBytes "v=0\r\n" ++ tesla.toBytes ++ asBytes "s=-\r\n" ++ inLan.toBytes ++
    asBytes "t=0 0\r\nm=audio 49170 RTP/AVP 0 8\r\na=rtpmap:0 PCMU/8000\r\na=rtpmap:8 PCMA/8000\r\n"

/-- The origin of the offer is one of the grammar, though its host has a name. -/
theorem valid_tesla : tesla.Valid := by
  refine ⟨⟨by decide, ?_⟩, ⟨by decide, by decide⟩, ⟨by decide, by decide⟩, ⟨by decide, by decide⟩,
    .inr ⟨by decide, by decide⟩⟩
  decide

/-- A host name is not accepted as the address of an origin, and neither is the offer around it. -/
theorem not_kept : tesla.Valid ∧ ¬ tesla.Kept ∧ (parse (.v4 ⟨127, 0, 0, 1⟩) offer).isOk = false := by
  refine ⟨valid_tesla, fun hkept => ?_, by decide +kernel⟩
  exact absurd (literal_of_kept valid_tesla hkept) (by decide +kernel)

end AddressLine

end Rssip.Media
