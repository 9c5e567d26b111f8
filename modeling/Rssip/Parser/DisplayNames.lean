import Rssip.Parser.Addresses

namespace Rssip

open Lib SipParser

/-!
# Display names

What may stand in front of the angle brackets of an address, and what the parser makes of it.

* `DisplayName` — the grammar: tokens with blanks between them, or a quoted string;
* `DisplayName.bytes`, `DisplayName.meaning` — how it is written, and what it says;
* `DisplayName.read_iff` — which display names are read, with a look ahead for a scheme and without
  one.
-/

/-! ### The grammar -/

/-- A token that is not empty. -/
structure Word where
  text : String
  over_isToken : Over isToken text
  ne_empty : text ≠ ""

/-- The blanks between two tokens. -/
structure Gap where
  blanks : Bytes
  over_isSpace : ∀ b ∈ blanks, isSpace b
  ne_nil : blanks ≠ []

/-- A display name: tokens with blanks between them, or a text in quotes. -/
inductive DisplayName where
  | tokens (first : Word) (more : List (Gap × Word))
  | quoted (text : String)

/-- A quote and a backslash are written behind a backslash. -/
def escape (b : UInt8) : Bytes := if b = 34 ∨ b = 92 then [92, b] else [b]

/-- The bytes of a text as they stand between quotes. -/
def escaped (text : Bytes) : Bytes := text.flatMap escape

namespace DisplayName

/-- The bytes of a display name. -/
def bytes : DisplayName → Bytes
  | tokens first more =>
    asBytes first.text ++ more.flatMap fun (gap, word) => gap.blanks ++ asBytes word.text
  | quoted text => [34] ++ (escaped (asBytes text) ++ [34])

/-- The text that a display name stands for. -/
def meaning : DisplayName → String
  | tokens first more => formatSep " " (first.text :: more.map fun (_, word) => word.text)
  | quoted text => text

/-- One token, or a quoted string in which nothing is escaped. -/
def Simple : DisplayName → Prop
  | tokens _ more => more = []
  | quoted text => 34 ∉ asBytes text ∧ 92 ∉ asBytes text

end DisplayName

/-! ### Escapes -/

/-- Escaped, a text is longer by its quotes and backslashes. -/
theorem length_escaped (text : Bytes) :
    (escaped text).length = text.length + text.countP fun b => b = 34 ∨ b = 92 := by
  induction text with
  | nil => rfl
  | cons b text ih =>
    rw [escaped, List.flatMap_cons, ← escaped, List.length_append, ih, List.countP_cons, escape]
    -- two bytes for one, or one for one
    by_cases hb : b = 34 ∨ b = 92
    · simp [hb]
      omega
    · simp [hb]
      omega

/-- **A text is written as it is** if and only if there is nothing to escape in it. -/
theorem escaped_eq_iff {text : Bytes} : escaped text = text ↔ 34 ∉ text ∧ 92 ∉ text := by
  constructor
  · intro heq
    -- each escape makes the text longer
    have hcount : text.countP (fun b => b = 34 ∨ b = 92) = 0 := by
      have hlength := length_escaped text
      rw [heq] at hlength
      omega
    rw [List.countP_eq_zero] at hcount
    exact ⟨fun hmem => hcount 34 hmem (by simp), fun hmem => hcount 92 hmem (by simp)⟩
  · rintro ⟨hquote, hbackslash⟩
    have hplain : ∀ b ∈ text, escape b = [b] := by
      intro b hb
      rw [escape, if_neg]
      rintro (rfl | rfl)
      · exact hquote hb
      · exact hbackslash hb
    rw [escaped, List.flatMap_congr hplain, List.flatMap_singleton']

/-- Only a quote is written with a quote. -/
theorem quote_mem_escaped {text : Bytes} (h : 34 ∈ escaped text) : 34 ∈ text := by
  obtain ⟨b, hb, hmem⟩ := List.mem_flatMap.mp h
  unfold escape at hmem
  split at hmem
  · simp only [List.mem_cons, List.not_mem_nil, or_false] at hmem
    rcases hmem with h92 | rfl
    · exact absurd h92 (by decide)
    · exact hb
  · rw [List.mem_singleton] at hmem
    rwa [hmem]

/-! ### Tokens -/

/-- A word starts with a byte of a token. -/
theorem Word.head (word : Word) : ∃ b bs, asBytes word.text = b :: bs ∧ isToken b := by
  have hne : asBytes word.text ≠ [] :=
    fun hnil => word.ne_empty (asBytes_injective (hnil.trans asBytes_empty.symm))
  obtain ⟨b, bs, hbytes⟩ := List.exists_cons_of_ne_nil hne
  exact ⟨b, bs, hbytes, word.over_isToken b (by simp [hbytes])⟩

/-- A word does not start with a byte that stands in no token. -/
theorem Word.head?_ne (word : Word) {b : UInt8} (hb : isToken b = false) (next : Bytes) :
    (asBytes word.text ++ next).head? ≠ some b := by
  obtain ⟨c, bs, hbytes, hc⟩ := word.head
  rw [hbytes]
  rintro ⟨⟩
  rw [hb] at hc
  exact Bool.noConfusion hc

/-- A word does not start with a blank. -/
theorem Word.stops_isSpace (word : Word) (next : Bytes) :
    Stops isSpace (asBytes word.text ++ next) := by
  obtain ⟨b, bs, hbytes, hb⟩ := word.head
  rw [hbytes]
  exact stops_cons.mpr (isToken_table.isSpace_eq_false b hb)

/-- No byte of a token between blanks ends the look ahead for a scheme. -/
theorem inSchemeOrDisplay_of {b : UInt8} (hb : isToken b ∨ isSpace b) : inSchemeOrDisplay b := by
  by_contra hends
  have hcases : b = 58 ∨ b = 13 ∨ b = 10 ∨ b = 60 := by
    simp only [inSchemeOrDisplay, isNewline] at hends
    grind
  rcases hcases with rfl | rfl | rfl | rfl <;> exact absurd hb (by decide)

/-- A name of tokens has only bytes that the look-ahead passes over. -/
theorem DisplayName.inSchemeOrDisplay_bytes (first : Word) (more : List (Gap × Word)) :
    ∀ b ∈ (tokens first more).bytes, inSchemeOrDisplay b := by
  intro b hb
  apply inSchemeOrDisplay_of
  rcases List.mem_append.mp hb with hb | hb
  · exact Or.inl (first.over_isToken b hb)
  · obtain ⟨⟨gap, word⟩, -, hb⟩ := List.mem_flatMap.mp hb
    rcases List.mem_append.mp hb with hb | hb
    · exact Or.inr (gap.over_isSpace b hb)
    · exact Or.inl (word.over_isToken b hb)

namespace SipParser

variable {rest next blanks uri : Bytes} {u : Uri} {c c' : Scanner}

/-- One token is the display name, with the blanks behind it. -/
theorem reads_parseDisplayName_word (word : Word) (hblanks : ∀ b ∈ blanks, isSpace b)
    (htoken : Stops isToken (blanks ++ next)) (hspace : Stops isSpace next) :
    Reads parseDisplayName (asBytes word.text ++ blanks) next (some word.text) := by
  apply Reads.nil_bind reads_peek
  rw [List.append_assoc, if_neg (word.head?_ne (by decide) _)]
  apply Reads.nil_bind reads_peek
  rw [List.append_assoc, if_neg (word.head?_ne (by decide) _)]
  have hread : Reads readToken (asBytes word.text) (blanks ++ next) word.text :=
    reads_readWhile word.over_isToken htoken
  apply Reads.bind hread
  apply Reads.bind_nil (reads_skipWs hblanks hspace)
  exact Reads.pure _ _

/-- Blanks do not go on with a token. -/
theorem stops_isToken_blanks (hblanks : ∀ b ∈ blanks, isSpace b) (hnext : Stops isToken next) :
    Stops isToken (blanks ++ next) := by
  apply stops_append _ fun _ => hnext
  intro hne b hb
  have hspace := hblanks b (List.mem_of_mem_head? hb)
  cases htoken : isToken b with
  | false => rfl
  | true =>
    rw [isToken_table.isSpace_eq_false b htoken] at hspace
    exact Bool.noConfusion hspace

/-! ### Name-addrs -/

/-- A URI in angle brackets, behind a display name. -/
theorem reads_parseNameAddr_of {name : Bytes} {d : Option String}
    (hstart : Stops isSpace (name ++ next)) (hblanks : ∀ b ∈ blanks, isSpace b)
    (hnext : next = blanks ++ ([60] ++ (uri ++ [62])) ++ rest)
    (hname : Reads parseDisplayName name next d) (huri : Reads (parseUri true) uri (62 :: rest) u) :
    Reads parseNameAddr (name ++ (blanks ++ ([60] ++ (uri ++ [62])))) rest ⟨d, u⟩ := by
  subst hnext
  apply Reads.nil_bind (reads_skipWs_nil (by simpa using hstart))
  apply Reads.bind (by simpa using hname)
  apply Reads.bind (reads_skipWs hblanks (stops_cons.mpr (by decide)))
  apply Reads.bind reads_mustRead
  apply Reads.bind (by simpa using huri)
  apply Reads.bind_nil reads_mustRead
  exact Reads.pure _ _

/-- **Behind two tokens no angle bracket is found.** -/
theorem parseNameAddr_ne_ok {first word : Word} {gap : Gap} {a : NameAddr}
    (hc : c.remaining = asBytes first.text ++ (gap.blanks ++ (asBytes word.text ++ next))) :
    parseNameAddr c ≠ .ok a c' := by
  intro hrun
  have htoken : Stops isToken (gap.blanks ++ (asBytes word.text ++ next)) := by
    obtain ⟨b, bs, hblanks⟩ := List.exists_cons_of_ne_nil gap.ne_nil
    rw [hblanks]
    apply stops_cons.mpr
    have hspace := gap.over_isSpace b (by simp [hblanks])
    cases htoken : isToken b with
    | false => rfl
    | true => exact absurd hspace (by simp [isToken_table.isSpace_eq_false b htoken])
  have hname := reads_parseDisplayName_word first gap.over_isSpace htoken (word.stops_isSpace next)
  have hskip := reads_skipWs_nil (word.stops_isSpace next)
  rw [parseNameAddr, (reads_skipWs_nil (first.stops_isSpace _)).bind_run hc, advance_nil] at hrun
  rw [← List.append_assoc] at hc
  rw [hname.bind_run hc] at hrun
  have hc₁ := remaining_advance (σ := Scanner) hc
  rw [hskip.bind_run hc₁, advance_nil] at hrun
  -- only the first token and the blanks have been taken
  obtain ⟨_, c₂, hbracket, -⟩ := bind_eq_ok_iff.mp hrun
  have hnext := gives_mustRead.mp ⟨c₂, ofScan_eq_ok_iff.mp hbracket, rfl⟩
  apply word.head?_ne (b := 60) (by decide) next
  rw [← hc₁]
  exact congrArg List.head? hnext

/-- **A quoted display name** ends at the first quote, whatever is in front of it. -/
theorem display_of_quote {body : Bytes} {a : NameAddr} (hc : c.remaining = [34] ++ body)
    (hrun : parseNameAddr c = .ok a c') :
    ∃ d, a.display = some d ∧ asBytes d = body.takeWhile (· != 34) := by
  have hstart : Stops isSpace ([34] ++ body) := stops_cons.mpr (by decide)
  have hpeek : Reads peek [] ([34] ++ body) (some 34) := reads_peek
  rw [parseNameAddr, (reads_skipWs_nil hstart).bind_run hc, advance_nil] at hrun
  obtain ⟨display, c₁, hname, hrun⟩ := bind_eq_ok_iff.mp hrun
  obtain ⟨_, c₂, -, hrun⟩ := bind_eq_ok_iff.mp hrun
  obtain ⟨_, c₃, -, hrun⟩ := bind_eq_ok_iff.mp hrun
  obtain ⟨uri, c₄, -, hrun⟩ := bind_eq_ok_iff.mp hrun
  obtain ⟨_, c₅, -, hrun⟩ := bind_eq_ok_iff.mp hrun
  injection hrun with ha _
  -- the scan looks at quotes only, so that a backslash does not keep it going
  rw [parseDisplayName, hpeek.bind_run hc, advance_nil, if_pos rfl,
    reads_advance.bind_run hc] at hname
  have hc₁ := remaining_advance (σ := Scanner) hc
  obtain ⟨d, c₆, hquoted, hname⟩ := bind_eq_ok_iff.mp hname
  injection hname with hdisplay _
  obtain ⟨text, c₇, hscan, hquoted⟩ := bind_eq_ok_iff.mp hquoted
  obtain ⟨_, c₈, -, hquoted⟩ := bind_eq_ok_iff.mp hquoted
  obtain ⟨htext, -⟩ := scanWhile_eq_ok_iff.mp hscan
  obtain ⟨hd, -⟩ := utf8_eq_ok_iff.mp hquoted
  refine ⟨d, ?_, ?_⟩
  · rw [← ha]
    exact hdisplay.symm
  · rw [hd, ← htext]
    exact congrArg (List.takeWhile (· != 34)) hc₁

/-! ### Addresses -/

/-- The result of a name-addr is passed on. -/
theorem gives_nameAddr {a : NameAddr} :
    Gives (do return SipUri.nameAddr (← parseNameAddr)) c (.nameAddr a) rest ↔
      Gives parseNameAddr c a rest := by
  constructor
  · intro h
    obtain ⟨b, c₁, hrun, hpure⟩ := gives_bind.mp h
    obtain ⟨ha, hrest⟩ := gives_pure.mp hpure
    rw [SipUri.nameAddr.inj ha]
    exact ⟨c₁, hrun, hrest.symm⟩
  · rintro ⟨c', hrun, hrest⟩
    exact gives_bind.mpr ⟨a, c', hrun, gives_pure.mpr ⟨rfl, hrest.symm⟩⟩

/-- An address that is read as a bare URI is no name-addr. -/
theorem gives_uri {params : Bool} {a : NameAddr} :
    ¬ Gives (do return SipUri.uri (← parseUri params)) c (.nameAddr a) rest := by
  intro h
  obtain ⟨u, c₁, -, hpure⟩ := gives_bind.mp h
  exact SipUri.noConfusion (gives_pure.mp hpure).1

/-- A display name does not start with an angle bracket. -/
theorem head?_bytes (n : DisplayName) (next : Bytes) : (n.bytes ++ next).head? ≠ some 60 := by
  cases n with
  | tokens first more =>
    rw [DisplayName.bytes, List.append_assoc]
    exact first.head?_ne (by decide) _
  | quoted text =>
    rintro ⟨⟩

/-- A display name does not start with a blank. -/
theorem stops_isSpace_bytes (n : DisplayName) (next : Bytes) : Stops isSpace (n.bytes ++ next) := by
  cases n with
  | tokens first more =>
    rw [DisplayName.bytes, List.append_assoc]
    exact first.stops_isSpace _
  | quoted text => exact stops_cons.mpr (by decide)

/-- **A simple display name is read**, and the address behind it. -/
theorem reads_parseNameAddr_simple {n : DisplayName} (hsimple : n.Simple)
    (hblanks : ∀ b ∈ blanks, isSpace b) (huri : Reads (parseUri true) uri (62 :: rest) u) :
    Reads parseNameAddr (n.bytes ++ (blanks ++ ([60] ++ (uri ++ [62])))) rest ⟨some n.meaning, u⟩ := by
  cases n with
  | tokens first more =>
    obtain rfl : more = [] := hsimple
    -- the blanks are skipped together with the token
    have htoken : Stops isToken (blanks ++ ([60] ++ (uri ++ [62])  ++ rest)) :=
      stops_isToken_blanks hblanks (stops_cons.mpr (by decide))
    have hname := reads_parseDisplayName_word first hblanks htoken (stops_cons.mpr (by decide))
    have hstart := first.stops_isSpace (blanks ++ ([60] ++ (uri ++ [62]) ++ rest))
    rw [← List.append_assoc] at hstart
    have hread := reads_parseNameAddr_of hstart (List.forall_mem_nil _) rfl hname huri
    rw [List.nil_append, List.append_assoc] at hread
    simpa [DisplayName.bytes, DisplayName.meaning, formatSep] using hread
  | quoted text =>
    obtain ⟨hquote, hbackslash⟩ := hsimple
    have hplain : escaped (asBytes text) = asBytes text := escaped_eq_iff.mpr ⟨hquote, hbackslash⟩
    rw [DisplayName.bytes, hplain]
    exact reads_parseNameAddr_of (stops_cons.mpr (by decide)) hblanks rfl
      (reads_parseDisplayName_some hquote) huri

/-- **Only a simple display name is read** as it was meant. -/
theorem simple_of_parseNameAddr {n : DisplayName} (hc : c.remaining = n.bytes ++ next)
    (hrun : parseNameAddr c = .ok ⟨some n.meaning, u⟩ c') : n.Simple := by
  cases n with
  | tokens first more =>
    cases more with
    | nil => rfl
    | cons p more =>
      obtain ⟨gap, word⟩ := p
      have hwords : c.remaining = asBytes first.text ++ (gap.blanks ++ (asBytes word.text ++
          ((more.flatMap fun (gap, word) => gap.blanks ++ asBytes word.text) ++ next))) := by
        rw [hc]
        simp [DisplayName.bytes]
      exact absurd hrun (parseNameAddr_ne_ok hwords)
  | quoted text =>
    rw [DisplayName.bytes, List.append_assoc] at hc
    obtain ⟨d, hdisplay, htake⟩ := display_of_quote hc hrun
    obtain rfl : text = d := Option.some.inj hdisplay
    -- what was read has no quote, so that the text ends where it should
    have hquote : 34 ∉ asBytes text := by
      intro hmem
      rw [htake] at hmem
      exact absurd (of_mem_takeWhile hmem) (by decide)
    have hall : ∀ b ∈ escaped (asBytes text), (b != 34) = true := by
      intro b hb
      have hne : b ≠ 34 := ne_of_mem_of_not_mem hb fun hmem => hquote (quote_mem_escaped hmem)
      simpa using hne
    have hend : Stops (· != 34) ([34] ++ next) := stops_cons.mpr (by decide)
    rw [List.append_assoc, takeWhile_append_stops hall hend] at htake
    exact escaped_eq_iff.mp htake.symm

/-- **The look ahead** finds a scheme where one stands in front of the angle bracket. -/
theorem gives_parseSipUri_iff {n : DisplayName} {params : Bool} {a : NameAddr}
    (hblanks : ∀ b ∈ blanks, isSpace b) (hc : c.remaining = n.bytes ++ (blanks ++ 60 :: next)) :
    Gives (parseSipUri params) c (.nameAddr a) rest ↔
      Gives parseNameAddr c a rest ∧ n.bytes ++ blanks ∉ [sip, sips] := by
  have hskip := reads_skipWs_nil (stops_isSpace_bytes n (blanks ++ 60 :: next))
  have hpeek : Reads peek [] (n.bytes ++ (blanks ++ 60 :: next))
    (n.bytes ++ (blanks ++ 60 :: next)).head? := reads_peek
  have hrun : ∀ f : Option UInt8 → Parse SipUri, (skipWs >>= fun _ => peek >>= f) c =
      f (n.bytes ++ (blanks ++ 60 :: next)).head? c := by
    intro f
    rw [hskip.bind_run hc, advance_nil, hpeek.bind_run hc, advance_nil]
  rw [parseSipUri, Gives, hrun, ← Gives]
  cases n with
  | quoted text =>
    have hnone : ∀ scheme ∈ [sip, sips], scheme.head? ≠ some 34 := by decide
    have hscheme : (DisplayName.quoted text).bytes ++ blanks ∉ [sip, sips] :=
      fun hmem => hnone _ hmem rfl
    have hquote : ((DisplayName.quoted text).bytes ++ (blanks ++ 60 :: next)).head? = some 34 := rfl
    rw [if_pos (Or.inl hquote), gives_nameAddr]
    exact (and_iff_left hscheme).symm
  | tokens first more =>
    have hquote : ((DisplayName.tokens first more).bytes ++ (blanks ++ 60 :: next)).head? ≠ some 34 := by
      rw [DisplayName.bytes, List.append_assoc]
      exact first.head?_ne (by decide) _
    have hbracket := head?_bytes (.tokens first more) (blanks ++ 60 :: next)
    have hahead : c.peekWhile inSchemeOrDisplay = (DisplayName.tokens first more).bytes ++ blanks := by
      apply peekWhile_of_remaining (60 :: next) _ _ (stops_cons.mpr (by decide))
      · rw [hc, List.append_assoc]
      · exact List.forall_mem_append.mpr ⟨DisplayName.inSchemeOrDisplay_bytes first more,
          fun b hb => inSchemeOrDisplay_of (Or.inr (hblanks b hb))⟩
    rw [if_neg (not_or.mpr ⟨hquote, hbracket⟩), Gives]
    simp only [get_bind_eq_ok_iff, hahead]
    -- a bare URI is read where the look ahead finds a scheme, and it is no name-addr
    by_cases hscheme : (DisplayName.tokens first more).bytes ++ blanks ∈ [sip, sips]
    · have hor : (DisplayName.tokens first more).bytes ++ blanks = sip ∨
          (DisplayName.tokens first more).bytes ++ blanks = sips := by simpa using hscheme
      simp only [if_pos hor]
      exact iff_of_false gives_uri fun h => h.2 hscheme
    · have hor : ¬ ((DisplayName.tokens first more).bytes ++ blanks = sip ∨
          (DisplayName.tokens first more).bytes ++ blanks = sips) := by simpa using hscheme
      simp only [if_neg hor]
      exact gives_nameAddr.trans (and_iff_left hscheme).symm

end SipParser

/-- **A display name is read as it was meant** if and only if it is simple and, where a scheme is
    looked for, none stands in front of the angle bracket. -/
theorem DisplayName.read_iff (n : DisplayName) {blanks uri rest : Bytes} {u : Uri}
    (hblanks : ∀ b ∈ blanks, isSpace b) (huri : Reads (parseUri true) uri (62 :: rest) u)
    {c : Scanner} (hc : c.remaining = n.bytes ++ (blanks ++ ([60] ++ (uri ++ [62]))) ++ rest) :
    (Gives parseNameAddr c ⟨some n.meaning, u⟩ rest ↔ n.Simple) ∧
    ∀ params, Gives (parseSipUri params) c (.nameAddr ⟨some n.meaning, u⟩) rest ↔
      n.Simple ∧ n.bytes ++ blanks ∉ [sip, sips] := by
  have hname : Gives parseNameAddr c ⟨some n.meaning, u⟩ rest ↔ n.Simple := by
    constructor
    · rintro ⟨c', hrun, -⟩
      rw [List.append_assoc] at hc
      exact simple_of_parseNameAddr hc hrun
    · intro hsimple
      exact ⟨_, reads_parseNameAddr_simple hsimple hblanks huri c hc, remaining_advance hc⟩
  refine ⟨hname, fun params => ?_⟩
  have hnext : c.remaining = n.bytes ++ (blanks ++ 60 :: (uri ++ [62] ++ rest)) := by
    rw [hc]
    simp
  rw [gives_parseSipUri_iff hblanks hnext, hname]

/-- One of the words of the examples below. -/
def Word.alice : Word := ⟨"Alice", by decide, by decide⟩

/-- The conditions at a display name of one token. -/
theorem DisplayName.read_alice :
    ((Gives parseNameAddr (Scanner.new (asBytes "Alice <sip:bob@example.com>"))
        ⟨some "Alice", Uri.ofBob⟩ [] ↔ Simple (tokens Word.alice [])) ∧
      ∀ params, Gives (parseSipUri params) (Scanner.new (asBytes "Alice <sip:bob@example.com>"))
        (.nameAddr ⟨some "Alice", Uri.ofBob⟩) [] ↔
        Simple (tokens Word.alice []) ∧ (tokens Word.alice []).bytes ++ [32] ∉ [sip, sips]) ∧
    ((Gives parseNameAddr (Scanner.new (asBytes "\"Alice\" <sip:bob@example.com>"))
        ⟨some "Alice", Uri.ofBob⟩ [] ↔ Simple (quoted "Alice")) ∧
      ∀ params, Gives (parseSipUri params) (Scanner.new (asBytes "\"Alice\" <sip:bob@example.com>"))
        (.nameAddr ⟨some "Alice", Uri.ofBob⟩) [] ↔
        Simple (quoted "Alice") ∧ (quoted "Alice").bytes ++ [32] ∉ [sip, sips]) := by
  have hblanks : ∀ b ∈ ([32] : Bytes), isSpace b := by decide
  have hwf : Uri.ofBob.WellFormed := by decide
  exact ⟨read_iff (tokens Word.alice []) hblanks (reads_parseUri_bracket hwf) rfl,
    read_iff (quoted "Alice") hblanks (reads_parseUri_bracket hwf) rfl⟩

/-- Two tokens and an escaped quote are not read, an escaped backslash is read as two, and `sip` is
    taken for a scheme. -/
theorem DisplayName.not_read :
    (SipParser.fromStr parseNameAddr "Alice Smith <sip:bob@example.com>").isOk = false ∧
    (SipParser.fromStr parseNameAddr "\"a\\\"b\" <sip:bob@example.com>").isOk = false ∧
    SipParser.fromStr parseNameAddr "\"a\\\\b\" <sip:bob@example.com>" =
      .ok ⟨some "a\\\\b", Uri.ofBob⟩ ∧
    (SipParser.fromStr (parseSipUri false) "sip<sip:bob@example.com>").isOk = false := by
  decide +kernel

end Rssip
