import Rssip.Lib.Numeral
import Rssip.Lib.Reader

namespace Lib

/-!
# IP addresses and their text

The standard textual forms of IPv4 and IPv6 addresses: the printer (dotted decimal;
lowercase hexadecimal groups with the longest run of zero groups shortened to `::`,
and an embedded dotted quad for IPv4-mapped addresses) and the parser.

* `IpAddr.toText` / `IpAddr.parse` — the two directions;
* `IpAddr.parse_toText` — parsing a printed address gives it back.
-/

/-- An IPv4 address, by its four octets. -/
structure Ipv4Addr where
  a : UInt8
  b : UInt8
  c : UInt8
  d : UInt8
deriving DecidableEq

/-- An IPv6 address, by its eight 16-bit segments. -/
structure Ipv6Addr where
  segments : List UInt16
  length_eq : segments.length = 8
deriving DecidableEq

/-- An IP address. -/
inductive IpAddr where
  | v4 (addr : Ipv4Addr)
  | v6 (addr : Ipv6Addr)
deriving DecidableEq

/-- The address with the given leading segments, the remaining ones zero. -/
def Ipv6Addr.ofSegments (l : List UInt16) : Ipv6Addr where
  segments := (l ++ List.replicate 8 0).take 8
  length_eq := by simp

/-- An address is made again of its eight segments. -/
theorem Ipv6Addr.ofSegments_segments (ip : Ipv6Addr) : Ipv6Addr.ofSegments ip.segments = ip := by
  obtain ⟨l, hl⟩ := ip
  simp [Ipv6Addr.ofSegments, ← hl]

/-- The 16-bit value of two bytes, high byte first. -/
def fromBeBytes (hi lo : UInt8) : UInt16 := UInt16.ofNat (hi.toNat * 256 + lo.toNat)

/-! ### Printing -/

/-- A dotted quad. -/
def Ipv4Addr.toText (ip : Ipv4Addr) : String :=
  decimal ip.a.toNat ++ "." ++ decimal ip.b.toNat ++ "." ++ decimal ip.c.toNat ++ "." ++
    decimal ip.d.toNat

/-- The IPv4 address an IPv6 address `::ffff:a.b.c.d` maps. -/
def Ipv6Addr.toIpv4Mapped (ip : Ipv6Addr) : Option Ipv4Addr :=
  match ip.segments with
  | [0, 0, 0, 0, 0, 0xffff, ab, cd] =>
    some ⟨(ab >>> 8).toUInt8, ab.toUInt8, (cd >>> 8).toUInt8, cd.toUInt8⟩
  | _ => none

/-- A run of segments. -/
structure Span where
  start : Nat
  len : Nat
deriving DecidableEq

/-- The longest run of zero segments, the first one if there are several: the scan from
    segment `i` on, with the longest run so far and the run that ends here. -/
def zeroesFrom : Nat → Span → Span → List UInt16 → Span
  | _, longest, _, [] => longest
  | i, longest, current, segment :: rest =>
    if segment = 0 then
      let current : Span :=
        if current.len = 0 then ⟨i, 1⟩ else ⟨current.start, current.len + 1⟩
      zeroesFrom (i + 1) (if longest.len < current.len then current else longest) current rest
    else zeroesFrom (i + 1) longest ⟨0, 0⟩ rest

/-- Segments, each after a colon. -/
def fmtTail : List UInt16 → String
  | [] => ""
  | segment :: tail => ":" ++ numeral 16 segment.toNat ++ fmtTail tail

/-- Segments separated by colons. -/
def fmtSubslice : List UInt16 → String
  | [] => ""
  | first :: tail => numeral 16 first.toNat ++ fmtTail tail

/-- An IPv6 address in its short form: a mapped IPv4 address keeps its points, and the longest run
    of zeros is left out. -/
def Ipv6Addr.toText (ip : Ipv6Addr) : String :=
  match ip.toIpv4Mapped with
  | some v4 => "::ffff:" ++ v4.toText
  | none =>
    let zeroes := zeroesFrom 0 ⟨0, 0⟩ ⟨0, 0⟩ ip.segments
    if 1 < zeroes.len then
      fmtSubslice (ip.segments.take zeroes.start) ++ "::" ++
        fmtSubslice (ip.segments.drop (zeroes.start + zeroes.len))
    else fmtSubslice ip.segments

/-- An address of either version. -/
def IpAddr.toText : IpAddr → String
  | .v4 ip => ip.toText
  | .v6 ip => ip.toText

/-! ### Parsing -/

/-- A digit of base `radix`. -/
def isDigitOf (radix : Nat) (b : UInt8) : Bool := (digitVal radix b).isSome

/-- Reads a number below `bound` of at most `maxDigits` digits. -/
def readNumber (radix maxDigits : Nat) (allowZeroPrefix : Bool) (bound : Nat) (bs : Bytes) :
    Option (Nat × Bytes) :=
  let digits := bs.takeWhile (isDigitOf radix)
  if maxDigits < digits.length then none
  else if digits.length = 0 then none
  else if !allowZeroPrefix && bs.head? == some 48 && 1 < digits.length then none
  else ((readDigits radix 0 digits).filter (· < bound)).map (·, bs.drop digits.length)

/-- Reads `sep` before every element but the first. -/
def readSeparator {α : Type} (sep : UInt8) (index : Nat) (inner : Bytes → Option (α × Bytes))
    (bs : Bytes) : Option (α × Bytes) :=
  if 0 < index then
    match bs with
    | b :: rest => if b = sep then inner rest else none
    | [] => none
  else inner bs

/-- An octet: at most three digits, no leading zero. -/
def readOctet : Bytes → Option (Nat × Bytes) := readNumber 10 3 false 256

/-- A group of an IPv6 address: at most four hexadecimal digits. -/
def readGroup : Bytes → Option (Nat × Bytes) := readNumber 16 4 true 65536

/-- Four octets with points between them. -/
def readIpv4Addr (bs : Bytes) : Option (Ipv4Addr × Bytes) := do
  let (a, bs) ← readSeparator 46 0 readOctet bs
  let (b, bs) ← readSeparator 46 1 readOctet bs
  let (c, bs) ← readSeparator 46 2 readOctet bs
  let (d, bs) ← readSeparator 46 3 readOctet bs
  return (⟨UInt8.ofNat a, UInt8.ofNat b, UInt8.ofNat c, UInt8.ofNat d⟩, bs)

/-- Reads colon-separated groups, at most `n` of them from index `i` on, with an optional
    trailing IPv4 address where two groups are left.  Gives the groups and whether they end
    in an IPv4 address. -/
def readGroups : Nat → Nat → Bytes → List UInt16 × Bool × Bytes
  | _, 0, bs => ([], false, bs)
  | i, n + 1, bs =>
    match (if 0 < n then readSeparator 58 i readIpv4Addr bs else none) with
    | some (v4, rest) => ([fromBeBytes v4.a v4.b, fromBeBytes v4.c v4.d], true, rest)
    | none =>
      match readSeparator 58 i readGroup bs with
      | some (g, rest) =>
        let (gs, ipv4, rest) := readGroups (i + 1) n rest
        (UInt16.ofNat g :: gs, ipv4, rest)
      | none => ([], false, bs)

/-- Eight groups, or fewer with one `::` for those that are left out. -/
def readIpv6Addr (bs : Bytes) : Option (Ipv6Addr × Bytes) :=
  -- either the whole address, or up to the first `::`
  let (head, headIpv4, rest) := readGroups 0 8 bs
  if head.length = 8 then some (Ipv6Addr.ofSegments head, rest)
  else if headIpv4 then none
  else
    match rest with
    | 58 :: 58 :: rest =>
      let limit := 8 - (head.length + 1)
      let (tail, _, rest) := readGroups 0 limit rest
      let zeros := List.replicate (8 - head.length - tail.length) 0
      some (Ipv6Addr.ofSegments (head ++ zeros ++ tail), rest)
    | _ => none

/-- An address of either version, the older one first. -/
def readIpAddr (bs : Bytes) : Option (IpAddr × Bytes) :=
  match readIpv4Addr bs with
  | some (ip, rest) => some (.v4 ip, rest)
  | none => (readIpv6Addr bs).map fun (ip, rest) => (.v6 ip, rest)

/-- An IP address that takes up all of the text. -/
def IpAddr.parse (s : String) : Option IpAddr :=
  match readIpAddr (asBytes s) with
  | some (ip, []) => some ip
  | _ => none

/-! ### Reading one printed number -/

/-- A numeral has digits of its base only. -/
theorem isDigitOf_of_mem_numeral {radix n : Nat} (hlo : 1 < radix) (hhi : radix ≤ 16) {b : UInt8}
    (hb : b ∈ asBytes (numeral radix n)) : isDigitOf radix b :=
  (digit_of_mem_numeral hlo hhi hb).2

/-- A number in range is read back from its numeral, up to a symbol that is no digit. -/
theorem readNumber_numeral {radix maxDigits bound n : Nat} {allowZeroPrefix : Bool}
    {rest : Bytes} (hlo : 1 < radix) (hhi : radix ≤ 16) (hmax : 0 < maxDigits)
    (hn : n < radix ^ maxDigits) (hbound : n < bound) (hrest : Stops (isDigitOf radix) rest) :
    readNumber radix maxDigits allowZeroPrefix bound (asBytes (numeral radix n) ++ rest) =
      some (n, rest) := by
  have hdigits : (asBytes (numeral radix n) ++ rest).takeWhile (isDigitOf radix) =
      asBytes (numeral radix n) :=
    takeWhile_append_stops (fun _ hb => isDigitOf_of_mem_numeral hlo hhi hb) hrest
  have hne := asBytes_numeral_ne_nil radix n
  have hlen := length_numeral_le hlo hhi hmax hn
  have hpos : (asBytes (numeral radix n)).length ≠ 0 := by simpa using hne
  have hzero : ¬ ((!allowZeroPrefix && (asBytes (numeral radix n) ++ rest).head? == some 48 &&
      decide (1 < (asBytes (numeral radix n)).length)) = true) := by
    rw [List.head?_append_of_ne_nil _ hne]
    by_cases h0 : n = 0
    · subst h0
      rw [show asBytes (numeral radix 0) = [48] by
        rw [asBytes_numeral, Nat.toDigits_zero]; rfl]
      simp
    · have hhead := numeral_head_ne_zero hlo hhi h0
      simp [hhead]
  unfold readNumber
  simp only [hdigits]
  rw [if_neg (by omega), if_neg hpos, if_neg hzero, readDigits_numeral hlo hhi]
  simp [Option.filter, hbound]

/-- An octet is read back from its decimal digits. -/
theorem readOctet_decimal (b : UInt8) {rest : Bytes} (hrest : Stops (isDigitOf 10) rest) :
    readOctet (asBytes (decimal b.toNat) ++ rest) = some (b.toNat, rest) := by
  have hb := b.toNat_lt
  rw [decimal_eq_numeral]
  exact readNumber_numeral (by decide) (by decide) (by decide) (by omega) (by omega) hrest

/-- A group is read back from its hexadecimal digits. -/
theorem readGroup_numeral (g : UInt16) {rest : Bytes} (hrest : Stops (isDigitOf 16) rest) :
    readGroup (asBytes (numeral 16 g.toNat) ++ rest) = some (g.toNat, rest) := by
  have hg := g.toNat_lt
  exact readNumber_numeral (by decide) (by decide) (by decide) (by omega) (by omega) hrest

/-- A number is only read in front of a digit. -/
theorem readNumber_eq_none {radix maxDigits bound : Nat} {allowZeroPrefix : Bool} {bs : Bytes}
    (h : Stops (isDigitOf radix) bs) : readNumber radix maxDigits allowZeroPrefix bound bs = none := by
  have hdigits : bs.takeWhile (isDigitOf radix) = [] :=
    takeWhile_append_stops (by simp : ∀ x ∈ ([] : Bytes), isDigitOf radix x) h
  simp [readNumber, hdigits]

/-- What is left after a number is what follows its digits. -/
theorem readNumber_rest {radix maxDigits bound : Nat} {allowZeroPrefix : Bool} {bs rest : Bytes}
    {n : Nat} (h : readNumber radix maxDigits allowZeroPrefix bound bs = some (n, rest)) :
    rest = bs.dropWhile (isDigitOf radix) := by
  unfold readNumber at h
  dsimp only at h
  split_ifs at h
  rw [Option.map_eq_some_iff] at h
  obtain ⟨m, -, hm⟩ := h
  rw [Prod.mk.injEq] at hm
  rw [← hm.2]
  have hsplit : bs = bs.takeWhile (isDigitOf radix) ++ bs.dropWhile (isDigitOf radix) :=
    List.takeWhile_append_dropWhile.symm
  exact (congrArg (List.drop (bs.takeWhile (isDigitOf radix)).length) hsplit).trans
    List.drop_left

/-! ### IPv4 -/

/-- The point, as a byte. -/
private theorem asBytes_dot : asBytes "." = [46] := by decide

/-- The colon, as a byte. -/
private theorem asBytes_colon : asBytes ":" = [58] := by decide

/-- The sign for the groups left out, as bytes. -/
private theorem asBytes_colons : asBytes "::" = [58, 58] := by decide

/-- **Reading a printed dotted quad.** -/
theorem readIpv4Addr_toText (ip : Ipv4Addr) (rest : Bytes) (hrest : Stops (isDigitOf 10) rest) :
    readIpv4Addr (asBytes ip.toText ++ rest) = some (ip, rest) := by
  have hoctet : ∀ (b : UInt8) (r : Bytes),
      readOctet (asBytes (decimal b.toNat) ++ 46 :: r) = some (b.toNat, 46 :: r) :=
    fun b r => readOctet_decimal b (stops_cons.mpr (by decide))
  simp [Ipv4Addr.toText, asBytes_append, asBytes_dot, readIpv4Addr, readSeparator, hoctet,
    readOctet_decimal _ hrest]

/-- No dotted quad is read when the leading digits are not followed by a dot. -/
theorem readIpv4Addr_eq_none {bs : Bytes}
    (h : (bs.dropWhile (isDigitOf 10)).head? ≠ some 46) : readIpv4Addr bs = none := by
  unfold readIpv4Addr
  simp only [readSeparator, Nat.lt_irrefl, if_false, Option.bind_eq_bind]
  cases hread : readOctet bs with
  | none => rfl
  | some p =>
    obtain ⟨a, rest⟩ := p
    have hrest : rest = bs.dropWhile (isDigitOf 10) := readNumber_rest hread
    rw [← hrest] at h
    cases rest with
    | nil => rfl
    | cons b rest =>
      have hb : b ≠ 46 := fun hb => h (by rw [hb]; rfl)
      simp [hb]

/-- A decimal digit is a hexadecimal one. -/
private theorem isDigitOf_mono {b : UInt8} (h : isDigitOf 10 b) : isDigitOf 16 b := by
  unfold isDigitOf digitVal at h ⊢
  dsimp only at h ⊢
  split_ifs at h ⊢ <;> first | rfl | omega

/-- Hexadecimal digits with no dot after them are not the start of a dotted quad. -/
theorem readIpv4Addr_hex_eq_none (xs rest : Bytes) (hxs : ∀ x ∈ xs, isDigitOf 16 x)
    (hstop : Stops (isDigitOf 16) rest) (hdot : rest.head? ≠ some 46) :
    readIpv4Addr (xs ++ rest) = none := by
  apply readIpv4Addr_eq_none
  induction xs with
  | nil =>
    cases rest with
    | nil => simp
    | cons b rest =>
      have hb : ¬ isDigitOf 10 b := fun h10 => by
        have h16 := isDigitOf_mono h10
        rw [stops_cons.mp hstop] at h16
        exact absurd h16 (by simp)
      rw [List.nil_append, List.dropWhile_cons_of_neg hb]
      exact hdot
  | cons x xs ih =>
    rw [List.cons_append, List.dropWhile_cons]
    split
    · exact ih (fun y hy => hxs y (List.mem_cons_of_mem _ hy))
    · have hx := hxs x List.mem_cons_self
      rw [List.head?_cons, Ne, Option.some.injEq]
      rintro rfl
      exact absurd hx (by decide)

/-! ### Groups of an IPv6 address -/

/-- What follows a list of groups: nothing, or the `::`. -/
def GroupsEnd (rest : Bytes) : Prop := rest = [] ∨ ∃ r, rest = 58 :: 58 :: r

/-- What follows a list of groups continues no group and starts no IPv4 address. -/
private theorem GroupsEnd.stops {rest : Bytes} (h : GroupsEnd rest) :
    Stops (isDigitOf 16) rest ∧ rest.head? ≠ some 46 := by
  rcases h with rfl | ⟨r, rfl⟩
  · simp
  · exact ⟨stops_cons.mpr (by decide), by simp⟩

/-- The text after a group. -/
private theorem fmtTail_stops (gs : List UInt16) {rest : Bytes} (h : GroupsEnd rest) :
    Stops (isDigitOf 16) (asBytes (fmtTail gs) ++ rest) ∧
      (asBytes (fmtTail gs) ++ rest).head? ≠ some 46 := by
  cases gs with
  | nil => simpa [fmtTail] using h.stops
  | cons g gs =>
    simp only [fmtTail, asBytes_append, asBytes_colon, List.append_assoc, List.cons_append,
      List.nil_append, stops_cons, List.head?_cons]
    exact ⟨by decide, by decide⟩

/-- Nothing is read in front of the end of the groups. -/
private theorem readGroups_end {i n : Nat} {rest : Bytes} (h : GroupsEnd rest) :
    readGroups i n rest = ([], false, rest) := by
  cases n with
  | zero => rfl
  | succ n =>
    have hv4 : readIpv4Addr rest = none := by
      have hnone := readIpv4Addr_hex_eq_none [] rest (by simp) h.stops.1 h.stops.2
      simpa using hnone
    have hg : readGroup rest = none := readNumber_eq_none h.stops.1
    have hsep : ∀ {α : Type} (inner : Bytes → Option (α × Bytes)), inner rest = none →
        (∀ r, inner (58 :: r) = none) → readSeparator 58 i inner rest = none := by
      intro α inner h0 hcolon
      unfold readSeparator
      split
      · rcases h with rfl | ⟨r, rfl⟩
        · rfl
        · simp [hcolon]
      · exact h0
    have hcolon : ∀ r : Bytes, Stops (isDigitOf 16) (58 :: r) := fun r => by
      rw [stops_cons]; decide
    have h1 := hsep readIpv4Addr hv4 (fun r => by
      have hnone := readIpv4Addr_hex_eq_none [] (58 :: r) (by simp) (hcolon r)
        (by simp)
      simpa using hnone)
    have h2 := hsep readGroup hg (fun r => readNumber_eq_none (hcolon r))
    simp only [readGroups, h1, ite_self, h2]

/-- One group behind its separator is read, and the reader goes on with the next index. -/
private theorem readGroups_step {i n : Nat} (g : UInt16) (gs : List UInt16) {bs rest : Bytes}
    (hend : GroupsEnd rest)
    (hsep : ∀ {α : Type} (inner : Bytes → Option (α × Bytes)), readSeparator 58 i inner bs =
      inner (asBytes (numeral 16 g.toNat) ++ (asBytes (fmtTail gs) ++ rest)))
    (htail : readGroups (i + 1) n (asBytes (fmtTail gs) ++ rest) = (gs, false, rest)) :
    readGroups i (n + 1) bs = (g :: gs, false, rest) := by
  have hstop := fmtTail_stops gs hend
  have hv4 := readIpv4Addr_hex_eq_none (asBytes (numeral 16 g.toNat)) _
    (fun x hx => isDigitOf_of_mem_numeral (by decide) (by decide) hx) hstop.1 hstop.2
  simp only [readGroups, hsep, hv4, ite_self, readGroup_numeral g hstop.1, htail]
  simp

/-- Groups behind a colon each are read back. The induction is on the groups. -/
private theorem readGroups_fmtTail (gs : List UInt16) {i n : Nat} {rest : Bytes} (hi : 0 < i)
    (hn : gs.length ≤ n) (hend : GroupsEnd rest) :
    readGroups i n (asBytes (fmtTail gs) ++ rest) = (gs, false, rest) := by
  induction gs generalizing i n with
  | nil => simpa [fmtTail] using readGroups_end hend
  | cons g gs ih =>
    obtain ⟨n, rfl⟩ : ∃ m, n = m + 1 := ⟨n - 1, by rw [List.length_cons] at hn; omega⟩
    rw [List.length_cons] at hn
    refine readGroups_step g gs hend ?_ (ih (by omega) (by omega))
    intro α inner
    simp [fmtTail, asBytes_append, asBytes_colon, readSeparator, hi]

/-- **Reading printed groups.** -/
theorem readGroups_fmtSubslice (gs : List UInt16) (n : Nat) (rest : Bytes)
    (hn : gs.length ≤ n) (hend : GroupsEnd rest) :
    readGroups 0 n (asBytes (fmtSubslice gs) ++ rest) = (gs, false, rest) := by
  cases gs with
  | nil => simpa [fmtSubslice] using readGroups_end hend
  | cons g gs =>
    obtain ⟨n, rfl⟩ : ∃ m, n = m + 1 := ⟨n - 1, by rw [List.length_cons] at hn; omega⟩
    rw [List.length_cons] at hn
    refine readGroups_step g gs hend ?_ (readGroups_fmtTail gs (by omega) (by omega) hend)
    intro α inner
    simp [fmtSubslice, asBytes_append, readSeparator]

/-! ### The shortened run of zeros -/

/-- `span` is a run of zeros of `l`. -/
def ZeroSpan (l : List UInt16) (span : Span) : Prop :=
  span.start + span.len ≤ l.length ∧
    (l.drop span.start).take span.len = List.replicate span.len 0

/-- The empty run is one of zeros. -/
private theorem zeroSpan_nil (l : List UInt16) : ZeroSpan l ⟨0, 0⟩ := by simp [ZeroSpan]

/-- A run of zeros is extended by a zero behind it. -/
private theorem zeroSpan_snoc {l : List UInt16} {start len i : Nat} (h : ZeroSpan l ⟨start, len⟩)
    (hi : start + len = i) (hlt : i < l.length) (h0 : l[i] = 0) :
    ZeroSpan l ⟨start, len + 1⟩ := by
  subst hi
  refine ⟨by dsimp only; omega, ?_⟩
  dsimp only
  rw [List.take_add_one, h.2, List.getElem?_drop, List.getElem?_eq_getElem hlt, h0,
    List.replicate_succ']
  rfl

/-- The scan keeps: both runs are runs of zeros, and the current one ends where the scan is. -/
private theorem zeroSpan_zeroesFrom {l : List UInt16} :
    ∀ {rest : List UInt16} {i : Nat} {longest current : Span}, l.drop i = rest →
      ZeroSpan l longest → ZeroSpan l current → (current.len = 0 ∨ current.start + current.len = i) →
      ZeroSpan l (zeroesFrom i longest current rest)
  | [], _, _, _, _, hl, _, _ => hl
  | segment :: rest, i, longest, current, hdrop, hl, hc, hcur => by
    have hlt : i < l.length := by
      by_contra hge
      rw [List.drop_of_length_le (by omega)] at hdrop
      exact absurd hdrop (by simp)
    have hdrop' : l.drop (i + 1) = rest := by
      rw [← List.drop_drop, hdrop]
      rfl
    have hget : l[i] = segment := by
      have h := List.drop_eq_getElem_cons hlt
      rw [hdrop] at h
      exact (List.cons.inj h).1.symm
    unfold zeroesFrom
    by_cases h0 : segment = 0
    · -- the current run grows, or starts here
      rw [if_pos h0]
      have hnext : ZeroSpan l (if current.len = 0 then ⟨i, 1⟩ else ⟨current.start, current.len + 1⟩) ∧
          (if current.len = 0 then (⟨i, 1⟩ : Span) else ⟨current.start, current.len + 1⟩).start +
            (if current.len = 0 then (⟨i, 1⟩ : Span) else ⟨current.start, current.len + 1⟩).len =
              i + 1 := by
        split
        · refine ⟨zeroSpan_snoc ⟨?_, ?_⟩ (by rfl) hlt (hget.trans h0), rfl⟩
          · dsimp only; omega
          · simp
        · next hlen =>
          have hend := hcur.resolve_left hlen
          exact ⟨zeroSpan_snoc hc hend hlt (hget.trans h0), by dsimp only; omega⟩
      dsimp only
      generalize (if current.len = 0 then (⟨i, 1⟩ : Span) else ⟨current.start, current.len + 1⟩)
        = next at hnext ⊢
      refine zeroSpan_zeroesFrom hdrop' ?_ hnext.1 (Or.inr hnext.2)
      split
      · exact hnext.1
      · exact hl
    · -- the current run is over
      rw [if_neg h0]
      exact zeroSpan_zeroesFrom hdrop' hl (zeroSpan_nil l) (Or.inl rfl)

/-- A list is its part before a run of zeros, the zeros, and its part after it. -/
private theorem ZeroSpan.split {l : List UInt16} {span : Span} (h : ZeroSpan l span) :
    l = l.take span.start ++ List.replicate span.len 0 ++ l.drop (span.start + span.len) := by
  rw [← h.2, List.append_assoc, ← List.drop_drop, List.take_append_drop, List.take_append_drop]

/-! ### IPv6 -/

/-- A segment is made again of its two bytes. -/
private theorem fromBeBytes_halves (w : UInt16) :
    fromBeBytes (w >>> 8).toUInt8 w.toUInt8 = w := by
  have hw := w.toNat_lt
  rw [← UInt16.toNat_inj]
  simp [fromBeBytes, Nat.shiftRight_eq_div_pow]
  omega

/-- The segments of an address tell which address it is. -/
private theorem Ipv6Addr.eq_ofSegments {ip : Ipv6Addr} {l : List UInt16} (h : l = ip.segments) :
    Ipv6Addr.ofSegments l = ip := h ▸ ip.ofSegments_segments

/-- Nothing may follow a list of groups. -/
private theorem groupsEnd_nil : GroupsEnd [] := Or.inl rfl

/-- A mapped address is read back from its form with points. -/
private theorem readIpv6Addr_mapped {ip : Ipv6Addr} {v4 : Ipv4Addr}
    (h : ip.toIpv4Mapped = some v4) :
    readIpv6Addr (asBytes ("::ffff:" ++ v4.toText)) = some (ip, []) := by
  have hseg : ip.segments = [0, 0, 0, 0, 0, 0xffff, fromBeBytes v4.a v4.b, fromBeBytes v4.c v4.d] := by
    unfold Ipv6Addr.toIpv4Mapped at h
    split at h
    · next ab cd heq =>
      rw [Option.some.injEq] at h
      rw [heq, ← h, fromBeBytes_halves, fromBeBytes_halves]
    · exact absurd h (by simp)
  have htext : asBytes ("::ffff:" ++ v4.toText) =
      58 :: 58 :: (asBytes (numeral 16 (0xffff : UInt16).toNat) ++ (58 :: asBytes v4.toText)) := by
    rw [asBytes_append, show asBytes "::ffff:" = 58 :: 58 :: (asBytes (numeral 16 65535) ++ [58]) by
      decide]
    simp
  have hstop : Stops (isDigitOf 16) (58 :: asBytes v4.toText) := stops_cons.mpr (by decide)
  -- nothing stands in front of the `::`
  have hhead := readGroups_end (i := 0) (n := 8)
    (Or.inr ⟨_, rfl⟩ : GroupsEnd (58 :: 58 :: (asBytes (numeral 16 (0xffff : UInt16).toNat) ++
      (58 :: asBytes v4.toText))))
  have hv4 := readIpv4Addr_hex_eq_none (asBytes (numeral 16 (0xffff : UInt16).toNat)) _
    (fun x hx => isDigitOf_of_mem_numeral (by decide) (by decide) hx) hstop (by simp)
  -- the dotted address fills the last two groups
  have htail : readGroups 1 6 (58 :: asBytes v4.toText) =
      ([fromBeBytes v4.a v4.b, fromBeBytes v4.c v4.d], true, []) := by
    have hread := readIpv4Addr_toText v4 [] (stops_nil _)
    rw [List.append_nil] at hread
    simp [readGroups, readSeparator, hread]
  have hgroups : readGroups 0 7 (asBytes (numeral 16 (0xffff : UInt16).toNat) ++
      (58 :: asBytes v4.toText)) =
      ([0xffff, fromBeBytes v4.a v4.b, fromBeBytes v4.c v4.d], true, []) := by
    rw [readGroups]
    simp only [readSeparator, Nat.lt_irrefl, if_false, hv4, ite_self,
      readGroup_numeral _ hstop, Nat.zero_add, htail]
    simp
  rw [htext]
  simp only [readIpv6Addr, hhead, List.length_nil]
  norm_num only [if_false]
  simp only [hgroups, Bool.false_eq_true, if_false]
  rw [Option.some.injEq, Prod.mk.injEq]
  exact ⟨Ipv6Addr.eq_ofSegments (by rw [hseg]; rfl), rfl⟩

/-- **Reading a printed IPv6 address.** -/
theorem readIpv6Addr_toText (ip : Ipv6Addr) :
    readIpv6Addr (asBytes ip.toText) = some (ip, []) := by
  unfold Ipv6Addr.toText
  split
  · next v4 hmapped => exact readIpv6Addr_mapped hmapped
  · have hspan : ZeroSpan ip.segments (zeroesFrom 0 ⟨0, 0⟩ ⟨0, 0⟩ ip.segments) :=
      zeroSpan_zeroesFrom (by simp) (zeroSpan_nil _) (zeroSpan_nil _) (Or.inl rfl)
    dsimp only
    generalize zeroesFrom 0 ⟨0, 0⟩ ⟨0, 0⟩ ip.segments = zeroes at hspan
    have hlen := ip.length_eq
    split
    · next hone =>
      -- a run of more than one zero is printed as `::`, between the groups before and after it
      have hbound := hspan.1
      have hhead : (ip.segments.take zeroes.start).length = zeroes.start := by
        rw [List.length_take]; omega
      have htail : (ip.segments.drop (zeroes.start + zeroes.len)).length =
          8 - (zeroes.start + zeroes.len) := by
        rw [List.length_drop]; omega
      have hgroups := readGroups_fmtSubslice (ip.segments.take zeroes.start) 8
        (58 :: 58 :: asBytes (fmtSubslice (ip.segments.drop (zeroes.start + zeroes.len))))
        (by omega) (Or.inr ⟨_, rfl⟩)
      have hrest := readGroups_fmtSubslice (ip.segments.drop (zeroes.start + zeroes.len))
        (8 - (zeroes.start + 1)) [] (by omega) groupsEnd_nil
      rw [List.append_nil] at hrest
      simp only [asBytes_append, asBytes_colons, List.append_assoc, List.cons_append,
        List.nil_append, readIpv6Addr, hgroups, hhead, hrest, htail]
      rw [if_neg (by omega), if_neg (by decide), Option.some.injEq, Prod.mk.injEq]
      refine ⟨Ipv6Addr.eq_ofSegments ?_, rfl⟩
      rw [show 8 - zeroes.start - (8 - (zeroes.start + zeroes.len)) = zeroes.len by omega,
        ← List.append_assoc, ← hspan.split]
    · have hgroups := readGroups_fmtSubslice ip.segments 8 [] (by omega)
        groupsEnd_nil
      rw [List.append_nil] at hgroups
      simp only [readIpv6Addr, hgroups, hlen, if_true, ip.ofSegments_segments]

/-- A printed IPv6 address does not start with a dotted quad. -/
theorem readIpv4Addr_toText_v6 (ip : Ipv6Addr) : readIpv4Addr (asBytes ip.toText) = none := by
  have hcolon : ∀ r : Bytes, readIpv4Addr (58 :: r) = none := fun r => by
    have hnone := readIpv4Addr_hex_eq_none [] (58 :: r) (by simp)
      (stops_cons.mpr (by decide)) (by simp)
    simpa using hnone
  have hgroups : ∀ (gs : List UInt16) (rest : Bytes), GroupsEnd rest →
      readIpv4Addr (asBytes (fmtSubslice gs) ++ rest) = none := by
    intro gs rest hend
    cases gs with
    | nil =>
      have hnone := readIpv4Addr_hex_eq_none [] rest (by simp) hend.stops.1 hend.stops.2
      simpa [fmtSubslice] using hnone
    | cons g gs =>
      have hstop := fmtTail_stops gs hend
      have hnone := readIpv4Addr_hex_eq_none (asBytes (numeral 16 g.toNat)) _
        (fun x hx => isDigitOf_of_mem_numeral (by decide) (by decide) hx) hstop.1 hstop.2
      simpa [fmtSubslice, asBytes_append] using hnone
  -- the text begins with a colon or with groups
  unfold Ipv6Addr.toText
  split
  · rw [asBytes_append, show asBytes "::ffff:" = 58 :: asBytes ":ffff:" by decide]
    exact hcolon _
  · dsimp only
    split
    · rw [asBytes_append, asBytes_append, asBytes_colons, List.append_assoc]
      exact hgroups _ _ (Or.inr ⟨_, rfl⟩)
    · have h := hgroups ip.segments [] groupsEnd_nil
      rwa [List.append_nil] at h

/-- **Parsing a printed IP address gives it back.** -/
theorem IpAddr.parse_toText (ip : IpAddr) : IpAddr.parse ip.toText = some ip := by
  cases ip with
  | v4 ip =>
    have h := readIpv4Addr_toText ip [] (stops_nil _)
    rw [List.append_nil] at h
    simp [IpAddr.parse, IpAddr.toText, readIpAddr, h]
  | v6 ip =>
    simp [IpAddr.parse, IpAddr.toText, readIpAddr, readIpv4Addr_toText_v6,
      readIpv6Addr_toText]

/-! ### The bytes of a printed address -/

/-- The digits of decimal numbers are hexadecimal digits too. -/
theorem isDigitOf_of_mem_decimal {n : Nat} {b : UInt8} (hb : b ∈ asBytes (decimal n)) :
    isDigitOf 16 b := by
  rw [decimal_eq_numeral] at hb
  exact isDigitOf_mono (isDigitOf_of_mem_numeral (by decide) (by decide) hb)

/-- A dotted quad consists of digits and points. -/
theorem Ipv4Addr.mem_toText {ip : Ipv4Addr} {b : UInt8} (hb : b ∈ asBytes ip.toText) :
    isDigitOf 16 b ∨ b = 46 := by
  have hdot : asBytes "." = [46] := by decide
  simp only [Ipv4Addr.toText, asBytes_append, List.mem_append, hdot, List.mem_singleton] at hb
  rcases hb with (((((hb | hb) | hb) | hb) | hb) | hb) | hb
  all_goals first
    | exact Or.inr hb
    | exact Or.inl (isDigitOf_of_mem_decimal hb)

/-- Groups behind colons consist of digits and colons. -/
theorem mem_fmtTail {gs : List UInt16} {b : UInt8} (hb : b ∈ asBytes (fmtTail gs)) :
    isDigitOf 16 b ∨ b = 58 := by
  have hcolon : asBytes ":" = [58] := by decide
  induction gs with
  | nil => simp [fmtTail] at hb
  | cons g gs ih =>
    simp only [fmtTail, asBytes_append, List.mem_append, hcolon, List.mem_singleton] at hb
    rcases hb with (hb | hb) | hb
    · exact Or.inr hb
    · exact Or.inl (isDigitOf_of_mem_numeral (by decide) (by decide) hb)
    · exact ih hb

/-- Groups with colons between them consist of digits and colons. -/
theorem mem_fmtSubslice {gs : List UInt16} {b : UInt8} (hb : b ∈ asBytes (fmtSubslice gs)) :
    isDigitOf 16 b ∨ b = 58 := by
  cases gs with
  | nil => simp [fmtSubslice] at hb
  | cons g gs =>
    rw [fmtSubslice, asBytes_append, List.mem_append] at hb
    rcases hb with hb | hb
    · exact Or.inl (isDigitOf_of_mem_numeral (by decide) (by decide) hb)
    · exact mem_fmtTail hb

/-- **A printed address** is made of hexadecimal digits, points and colons. -/
theorem IpAddr.mem_toText {ip : IpAddr} {b : UInt8} (hb : b ∈ asBytes ip.toText) :
    isDigitOf 16 b ∨ b = 46 ∨ b = 58 := by
  cases ip with
  | v4 ip => exact (Ipv4Addr.mem_toText hb).imp_right Or.inl
  | v6 ip =>
    rw [IpAddr.toText, Ipv6Addr.toText] at hb
    split at hb
    · rw [asBytes_append, List.mem_append] at hb
      rcases hb with hb | hb
      · have hpre := List.all_eq_true.mp
          (show (asBytes "::ffff:").all (fun b => isDigitOf 16 b || b == 46 || b == 58) by decide)
        simpa [or_assoc] using hpre b hb
      · exact (Ipv4Addr.mem_toText hb).imp_right Or.inl
    · dsimp only at hb
      split at hb
      · rw [asBytes_append, asBytes_append, asBytes_colons, List.mem_append,
          List.mem_append] at hb
        rcases hb with (hb | hb) | hb
        · exact (mem_fmtSubslice hb).imp_right Or.inr
        · exact Or.inr (Or.inr (by simpa using hb))
        · exact (mem_fmtSubslice hb).imp_right Or.inr
      · exact (mem_fmtSubslice hb).imp_right Or.inr

/-! ### The bytes of a text that is parsed -/

/-- A byte of an address. -/
def inIpAddr (b : UInt8) : Bool := isDigitOf 16 b || b == 46 || b == 58

/-- A reader takes nothing but bytes of an address. -/
def TakesIpAddr {α : Type} (inner : Bytes → Option (α × Bytes)) : Prop :=
  ∀ ⦃bs x rest⦄, inner bs = some (x, rest) → ∀ b ∈ bs, inIpAddr b ∨ b ∈ rest

/-- A number in a base of an address takes only digits. -/
theorem takesIpAddr_readNumber {radix maxDigits bound : Nat} {allowZeroPrefix : Bool}
    (hradix : ∀ b, isDigitOf radix b → isDigitOf 16 b) :
    TakesIpAddr (readNumber radix maxDigits allowZeroPrefix bound) := by
  intro bs n rest h b hb
  rw [readNumber_rest h]
  rw [← List.takeWhile_append_dropWhile (p := isDigitOf radix) (l := bs), List.mem_append] at hb
  refine hb.imp_left fun hdigit => ?_
  have hhex := hradix b (List.mem_takeWhile_imp hdigit)
  simp [inIpAddr, hhex]

/-- An octet takes only digits. -/
theorem takesIpAddr_readOctet : TakesIpAddr readOctet :=
  takesIpAddr_readNumber fun _ => isDigitOf_mono

/-- A group takes only digits. -/
theorem takesIpAddr_readGroup : TakesIpAddr readGroup := takesIpAddr_readNumber fun _ => id

/-- A reader behind a separator of addresses takes the separator and what it takes itself. -/
theorem takesIpAddr_readSeparator {α : Type} {sep : UInt8} {index : Nat}
    {inner : Bytes → Option (α × Bytes)} (hsep : inIpAddr sep) (h : TakesIpAddr inner) :
    TakesIpAddr (readSeparator sep index inner) := by
  intro bs x rest hread b hb
  unfold readSeparator at hread
  split_ifs at hread with hindex
  · cases bs with
    | nil => simp at hb
    | cons d bs =>
      dsimp only at hread
      split_ifs at hread with hd
      rcases List.mem_cons.mp hb with rfl | hb
      · rw [hd]
        exact Or.inl hsep
      · exact h hread b hb
  · exact h hread b hb

/-- The reader of a dotted quad takes only bytes of addresses. -/
theorem takesIpAddr_readIpv4Addr : TakesIpAddr readIpv4Addr := by
  have hoctet : ∀ index, TakesIpAddr (readSeparator 46 index readOctet) :=
    fun _ => takesIpAddr_readSeparator (by decide) takesIpAddr_readOctet
  intro bs ip rest h
  simp only [readIpv4Addr, Option.bind_eq_bind, Option.bind_eq_some_iff, Prod.exists] at h
  obtain ⟨a, bs₁, ha, b, bs₂, hb, c, bs₃, hc, d, bs₄, hd, hlast⟩ := h
  have hrest : bs₄ = rest := congrArg Prod.snd (Option.some.inj hlast)
  intro x hx
  rcases hoctet 0 ha x hx with hx | hx
  · exact Or.inl hx
  rcases hoctet 1 hb x hx with hx | hx
  · exact Or.inl hx
  rcases hoctet 2 hc x hx with hx | hx
  · exact Or.inl hx
  rw [← hrest]
  exact hoctet 3 hd x hx

/-- The reader of groups takes only bytes of addresses. The induction is on the number of groups. -/
theorem mem_readGroups {i n : Nat} {bs : Bytes} :
    ∀ b ∈ bs, inIpAddr b ∨ b ∈ (readGroups i n bs).2.2 := by
  induction n generalizing i bs with
  | zero => exact fun b hb => Or.inr hb
  | succ n ih =>
    intro b hb
    unfold readGroups
    split
    · -- an IPv4 address ends the groups
      rename_i v4 rest hv4
      split_ifs at hv4
      exact takesIpAddr_readSeparator (by decide) takesIpAddr_readIpv4Addr hv4 b hb
    · split
      · rename_i g rest hgroup
        have hseparator := takesIpAddr_readSeparator (by decide) takesIpAddr_readGroup hgroup b hb
        exact hseparator.elim Or.inl fun hrest => ih b hrest
      · exact Or.inr hb

/-- The reader of the longer form takes only bytes of addresses. -/
theorem takesIpAddr_readIpv6Addr : TakesIpAddr readIpv6Addr := by
  intro bs ip rest h b hb
  have hhead := mem_readGroups (i := 0) (n := 8) b hb
  simp only [readIpv6Addr] at h
  split_ifs at h with hwhole hipv4
  · rw [← (Prod.mk.inj (Option.some.inj h)).2]
    exact hhead
  · split at h
    · rename_i tail hcolons
      rw [← (Prod.mk.inj (Option.some.inj h)).2]
      rcases hhead with hb | hb
      · exact Or.inl hb
      rw [hcolons] at hb
      rcases List.mem_cons.mp hb with rfl | hb
      · exact Or.inl (by decide)
      rcases List.mem_cons.mp hb with rfl | hb
      · exact Or.inl (by decide)
      exact mem_readGroups b hb
    · injection h

/-- Whatever the version, a reader of addresses leaves every other byte. -/
theorem takesIpAddr_readIpAddr : TakesIpAddr readIpAddr := by
  intro bs ip rest h
  unfold readIpAddr at h
  split at h
  · rename_i v4 rest' hv4
    rw [← (Prod.mk.inj (Option.some.inj h)).2]
    exact takesIpAddr_readIpv4Addr hv4
  · obtain ⟨⟨v6, rest'⟩, hv6, hlast⟩ := Option.map_eq_some_iff.mp h
    rw [← (Prod.mk.inj hlast).2]
    exact takesIpAddr_readIpv6Addr hv6

/-- **The text of an address** is made of hexadecimal digits, points and colons. -/
theorem IpAddr.mem_of_parse {s : String} {ip : IpAddr} (h : IpAddr.parse s = some ip) :
    ∀ b ∈ asBytes s, inIpAddr b := by
  unfold IpAddr.parse at h
  split at h
  · rename_i ip' hread
    intro b hb
    simpa using takesIpAddr_readIpAddr hread b hb
  · injection h

/-! ### The colon of an IPv6 address -/

/-- Behind the first group there is none without a colon. -/
theorem readGroups_eq_nil {i n : Nat} {bs : Bytes} (hi : 0 < i) (hbs : bs.head? ≠ some 58) :
    readGroups i n bs = ([], false, bs) := by
  have hnone : ∀ {α : Type} (inner : Bytes → Option (α × Bytes)),
      readSeparator 58 i inner bs = none := by
    intro α inner
    unfold readSeparator
    rw [if_pos hi]
    cases bs with
    | nil => rfl
    | cons b bs => exact if_neg fun hb => hbs (by rw [hb]; rfl)
  cases n with
  | zero => rfl
  | succ n =>
    rw [readGroups, hnone, hnone, ite_self]

/-- Without a colon there is one group, or one IPv4 address. -/
theorem readGroups_of_not_mem {n : Nat} {bs : Bytes} (hbs : 58 ∉ bs) :
    (readGroups 0 n bs).1.length ≤ 2 ∧
      ((readGroups 0 n bs).2.1 = false → 58 ∉ (readGroups 0 n bs).2.2) := by
  cases n with
  | zero => exact ⟨by simp [readGroups], fun _ => hbs⟩
  | succ n =>
    unfold readGroups
    split
    · exact ⟨by simp, fun h => absurd h (by simp)⟩
    · split
      · rename_i g rest hgroup
        unfold readSeparator at hgroup
        rw [if_neg (by simp)] at hgroup
        -- what remains behind the group has no colon to go on with
        have hrest : 58 ∉ rest := by
          rw [readNumber_rest hgroup]
          exact fun hmem => hbs ((List.dropWhile_suffix _).subset hmem)
        have hhead : rest.head? ≠ some 58 := fun h => hrest (List.mem_of_mem_head? h)
        rw [readGroups_eq_nil (by simp) hhead]
        exact ⟨by simp, fun _ => hrest⟩
      · exact ⟨by simp, fun _ => hbs⟩

/-- **The text of an IPv6 address has a colon.** -/
theorem IpAddr.colon_mem_of_parse {s : String} {ip : Ipv6Addr} (h : IpAddr.parse s = some (.v6 ip)) :
    58 ∈ asBytes s := by
  by_contra hcolon
  obtain ⟨hlen, hrest⟩ := readGroups_of_not_mem (n := 8) hcolon
  have hnone : readIpv6Addr (asBytes s) = none := by
    simp only [readIpv6Addr]
    rw [if_neg (by omega)]
    split_ifs with hipv4
    · rfl
    · split
      · rename_i rest hcolons
        have hnot := hrest (by simpa using hipv4)
        rw [hcolons] at hnot
        exact absurd List.mem_cons_self hnot
      · rfl
  unfold IpAddr.parse readIpAddr at h
  rw [hnone] at h
  cases hv4 : readIpv4Addr (asBytes s) with
  | none => simp [hv4] at h
  | some r =>
    obtain ⟨v4, rest⟩ := r
    rw [hv4] at h
    cases rest <;> simp at h

example : (IpAddr.parse "::ffff:1.2.3.4").map IpAddr.toText = some "::ffff:1.2.3.4" := by decide
example : (IpAddr.parse "fe80:0:0:1::").map IpAddr.toText = some "fe80:0:0:1::" := by decide
example : IpAddr.parse "01.2.3.4" = none := by decide

end Lib
