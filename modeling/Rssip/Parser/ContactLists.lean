import Rssip.Parser.BareUris

namespace Rssip

open Lib

/-!
# Lists of contacts

In a contact commas stand between quotes, in brackets or in a user part, so that a list of
contacts whose end is open can be told from its text.

* `contact_text` — the text of a contact;
* `OpenEnd` — a text whose last contact leaves the parser looking for an at sign;
* `keepsUser_iff` — what may follow a list of contacts.
-/

namespace SipParser

/-! ### The text of a contact -/

/-- Quotes come in pairs, and commas stand between the two of a pair. -/
structure Balanced (text : Bytes) : Prop where
  quotes : text.count 34 % 2 = 0
  commas : ∀ {p q}, text = p ++ 44 :: q → q.count 34 % 2 = 1

/-- A text without quotes and commas is balanced. -/
theorem balanced_plain {text : Bytes} (h : ∀ b ∈ text, b ≠ 34 ∧ b ≠ 44) : Balanced text where
  quotes := by
    rw [List.count_eq_zero_of_not_mem fun hmem => (h 34 hmem).1 rfl]
  commas {p q} htext := by
    have hmem : (44 : UInt8) ∈ text := by simp [htext]
    exact absurd rfl (h 44 hmem).2

/-- A quoted text is balanced, whatever commas it has. -/
theorem balanced_quoted {value : Bytes} (h : 34 ∉ value) : Balanced (34 :: (value ++ [34])) where
  quotes := by
    simp [List.count_eq_zero_of_not_mem h]
  commas {p q} htext := by
    have hsplit : (34 :: value) ++ [34] = p ++ 44 :: q := htext
    rcases append_eq_append_cons_iff.mp hsplit with ⟨xs, hxs, rfl⟩ | ⟨ys, -, hys⟩
    · have hcount : (34 :: value).count 34 = 1 := by
        simp [List.count_eq_zero_of_not_mem h]
      have hsub : xs.count 34 ≤ value.count 34 := by
        cases p with
        | nil => exact absurd (List.cons.inj hxs).1 (by decide)
        | cons b p =>
          rw [(List.cons.inj hxs).2]
          simp
      rw [List.count_eq_zero_of_not_mem h] at hsub
      rw [List.count_append, Nat.le_zero.mp hsub]
      simp
    · have hmem : (44 : UInt8) ∈ ([34] : Bytes) := by simp [hys]
      exact absurd hmem (by decide)

/-- Two balanced texts make one. -/
theorem Balanced.append {xs ys : Bytes} (hxs : Balanced xs) (hys : Balanced ys) :
    Balanced (xs ++ ys) where
  quotes := by
    have hx := hxs.quotes
    have hy := hys.quotes
    rw [List.count_append]
    omega
  commas {p q} htext := by
    rcases append_eq_append_cons_iff.mp htext with ⟨xs', hxs', rfl⟩ | ⟨ys', -, hys'⟩
    · have hx := hxs.commas hxs'
      have hy := hys.quotes
      rw [List.count_append]
      omega
    · exact hys.commas hys'

/-- A parser that reads no quotes but in pairs, and no commas but between them. -/
abbrev ReadsBalanced {ε α : Type} (r : EStateM ε Scanner α) : Prop := ReadsOver Balanced r

/-- A parser all whose consumed texts are balanced reads them so. -/
theorem readsBalanced_of_text {ε α : Type} {r : EStateM ε Scanner α}
    (h : ∀ {c a c'}, r c = .ok a c' →
      ∃ text, Cursor.remaining c = text ++ Cursor.remaining c' ∧ Balanced text) : ReadsBalanced r :=
  ReadsOver.of_text Balanced.append h

/-- A table without quotes and commas. -/
theorem readsBalanced_scan {ε : Type} {predicate : UInt8 → Bool}
    (h : predicate 34 = false ∧ predicate 44 = false) :
    ReadsBalanced (modifyGet (Scanner.scanWhile predicate) : EStateM ε Scanner Bytes) := by
  apply readsBalanced_of_text
  intro c text c' hscan
  obtain ⟨htext, hrem⟩ := gives_scanWhile.mp ⟨c', hscan, rfl⟩
  refine ⟨text, ?_, balanced_plain ?_⟩
  · rw [hrem, htext]
    exact List.takeWhile_append_dropWhile.symm
  · intro b hb
    rw [htext] at hb
    have hpred := of_mem_takeWhile hb
    constructor
    · rintro rfl
      rw [h.1] at hpred
      exact Bool.noConfusion hpred
    · rintro rfl
      rw [h.2] at hpred
      exact Bool.noConfusion hpred

/-- A scan that admits neither quotes nor commas reads balanced texts. -/
theorem readsBalanced_scanStr {ε : Type} {predicate : UInt8 → Bool}
    (h : predicate 34 = false ∧ predicate 44 = false) :
    ReadsBalanced (modifyGet (Scanner.scanWhileAsStrUnchecked predicate) :
      EStateM ε Scanner String) := by
  rw [scanWhileAsStrUnchecked_eq]
  exact (readsBalanced_scan h).map

/-- The same for the parser's reading with a table. -/
theorem readsBalanced_readWhile {predicate : UInt8 → Bool}
    (h : predicate 34 = false ∧ predicate 44 = false) :
    ReadsBalanced (readWhileAsStrUnchecked predicate) := readsBalanced_scanStr h

/-- Blanks are balanced. -/
theorem readsBalanced_skipWs : ReadsBalanced skipWs :=
  (readsBalanced_scan (by decide)).bind fun _ => ReadsOver.pure _

/-- One byte that is neither a quote nor a comma is balanced. -/
theorem readsBalanced_takeIfEq {b : UInt8} (h : b ≠ 34 ∧ b ≠ 44) : ReadsBalanced (takeIfEq b) := by
  apply readsBalanced_of_text
  intro c o c' hscan
  rcases gives_scanIfEq.mp ⟨c', hscan, rfl⟩ with ⟨-, hrem⟩ | ⟨-, -, hrem⟩
  · exact ⟨[b], hrem, balanced_plain (by simpa using h)⟩
  · exact ⟨[], hrem.symm, balanced_plain (by simp)⟩

/-- A parser that fails reads nothing. -/
theorem readsBalanced_error {α : Type} (kind : ParseErrorKind) :
    ReadsBalanced (error kind : Parse α) :=
  fun _ => Yields.get_bind fun _ => Yields.throw _

/-- What stands in front of the closing quote. -/
theorem quoted_text {c c' : Scanner} {value : String} (h : quoted c = .ok value c') :
    ∃ text, c.remaining = text ++ 34 :: c'.remaining ∧ 34 ∉ text := by
  obtain ⟨text, c₁, hscan, h⟩ := bind_eq_ok_iff.mp h
  obtain ⟨b, c₂, hquote, h⟩ := bind_eq_ok_iff.mp h
  obtain ⟨-, rfl⟩ := utf8_eq_ok_iff.mp h
  have hupTo : upTo 34 c = .ok text c₂ :=
    bind_eq_ok_iff.mpr ⟨text, c₁, hscan, bind_eq_ok_iff.mpr ⟨b, c₂, hquote, rfl⟩⟩
  obtain ⟨hmem, hrem⟩ := gives_upTo.mp ⟨c₂, hupTo, rfl⟩
  exact ⟨text, by rw [hrem]; simp [Cursor.remaining], hmem⟩

/-- A string in quotes is read with both of them. -/
theorem readsBalanced_ifQuoted {α : Type} {f : String → α} {r : Parse α} (h : ReadsBalanced r) :
    ReadsBalanced (do
      if (← takeIfEq 34).isSome then return f (← quoted)
      r) := by
  apply readsBalanced_of_text
  intro c a c' hrun
  obtain ⟨o, c₁, hquote, hrun⟩ := bind_eq_ok_iff.mp hrun
  rcases gives_scanIfEq.mp ⟨c₁, hquote, rfl⟩ with ⟨rfl, hrem⟩ | ⟨rfl, -, hrem⟩
  · obtain ⟨value, c₂, hvalue, hrun⟩ := bind_eq_ok_iff.mp hrun
    injection hrun with _ hc₂
    rw [hc₂] at hvalue
    obtain ⟨text, htext, hmem⟩ := quoted_text hvalue
    refine ⟨34 :: (text ++ [34]), ?_, balanced_quoted hmem⟩
    rw [show Cursor.remaining c = c.remaining from rfl, hrem,
      show Cursor.remaining c₁ = c₁.remaining from rfl, htext]
    simp [Cursor.remaining]
  · obtain ⟨text, htext, hbalanced⟩ := h.exists_text (balanced_plain (by simp)) hrun
    exact ⟨text, by rw [← htext, hrem]; rfl, hbalanced⟩

/-- A parameter of a header is balanced: its value is a token, or stands between two quotes. -/
theorem readsBalanced_paramRef : ReadsBalanced paramRef := by
  have htoken : isToken 34 = false ∧ isToken 44 = false := by decide
  apply ReadsOver.bind readsBalanced_skipWs
  intro _
  apply ReadsOver.bind (readsBalanced_readWhile htoken)
  intro name
  apply ReadsOver.bind (readsBalanced_takeIfEq (by decide))
  intro equals
  apply ReadsOver.ite (ReadsOver.pure _)
  exact readsBalanced_ifQuoted ((readsBalanced_readWhile htoken).bind fun _ => ReadsOver.pure _)

/-- There are no quotes and no commas in a host and its port. -/
theorem readsBalanced_parseHostPort : ReadsBalanced parseHostPort := by
  apply readsBalanced_of_text
  intro c hostPort c' h
  obtain ⟨text, htext, hall⟩ := readsAuthority_parseHostPort.exists_text (List.forall_mem_nil _) h
  refine ⟨text, htext, balanced_plain fun b hb => ⟨?_, ?_⟩⟩ <;>
  · rintro rfl
    exact absurd (hall _ hb) (by decide)

/-- To store a parameter reads nothing. -/
theorem readsBalanced_storeContactParam (h : Contact) (p : Param) :
    ReadsBalanced (storeContactParam h p) := by
  have hq : ReadsBalanced (parseQ p.value) := by
    unfold parseQ
    split
    · exact ReadsOver.pure _
    · split
      · exact ReadsOver.pure _
      · exact ReadsOver.throw _
  have hexpires : ReadsBalanced (parseValue .param u32FromStr p.value) := by
    unfold parseValue
    split
    · exact ReadsOver.pure _
    · apply ReadsOver.map
      unfold ofOption
      split
      · exact ReadsOver.pure _
      · exact readsBalanced_error _
  unfold storeContactParam
  apply ReadsOver.ite (hq.bind fun _ => ReadsOver.pure _)
  exact (hexpires.bind fun _ => ReadsOver.pure _).ite (ReadsOver.pure _)

/-- The parameters of a contact are balanced. -/
theorem readsBalanced_contactParams (uri : SipUri) : ReadsBalanced (contactParams uri) := by
  apply ReadsOver.bind
  · rw [parseParamsWith_eq]
    apply ReadsOver.bind readsBalanced_skipWs
    intro _
    apply ReadsOver.loop
    rintro ⟨h, params⟩
    apply ReadsOver.bind (readsBalanced_takeIfEq (by decide))
    intro semicolon
    apply ReadsOver.ite (ReadsOver.pure _)
    apply ReadsOver.bind readsBalanced_paramRef
    intro p
    apply ReadsOver.bind (readsBalanced_storeContactParam h p)
    intro stored
    exact readsBalanced_skipWs.bind fun _ => ReadsOver.pure _
  · exact fun _ => ReadsOver.pure _

/-- A contact without brackets is balanced behind its user part. -/
theorem readsBalanced_bareContact (scheme : Scheme) (user : Option UserInfo) :
    ReadsBalanced (bareContact scheme user) := by
  apply ReadsOver.bind readsBalanced_parseHostPort
  exact fun hostPort => readsBalanced_contactParams _

/-- What the text of a contact starts with: a scheme, or something that ends with an at sign or a
    bracket. -/
inductive ContactStart : Bytes → Prop
  | scheme {ws : Bytes} (hws : ∀ b ∈ ws, isSpace b) (scheme : Scheme) :
    ContactStart (ws ++ (asBytes scheme.toText ++ [58]))
  | closed (text : Bytes) {b : UInt8} (hb : b = 62 ∨ b = 64) : ContactStart (text ++ [b])

/-- A user part ends with an at sign. -/
theorem userPart_text {c c' : Scanner} {user : Option UserInfo} (h : userPart c = .ok user c') :
    ∃ text, c.remaining = text ++ 64 :: c'.remaining := by
  obtain ⟨name, c₁, hname, h⟩ := bind_eq_ok_iff.mp h
  obtain ⟨pass, c₂, hpass, h⟩ := bind_eq_ok_iff.mp h
  obtain ⟨_, c₃, hat, h⟩ := bind_eq_ok_iff.mp h
  injection h with _ hc₃
  have hnext := gives_mustRead.mp ⟨c₃, ofScan_eq_ok_iff.mp (orError_eq_ok_iff.mp hat), rfl⟩
  have huser : StaysInLine readUser := staysIn_readWhile (NoNewline.excludes (by decide))
  obtain ⟨text₁, htext₁⟩ := huser.suffix hname
  obtain ⟨text₂, htext₂⟩ := (ends_of_line (staysIn_parsePass rfl)).suffix hpass
  refine ⟨text₁ ++ text₂, ?_⟩
  rw [← hc₃, List.append_assoc, ← show Cursor.remaining c₂ = 64 :: c₃.remaining from hnext, htext₂,
    htext₁]
  rfl

/-- A name-addr ends with a bracket. -/
theorem nameAddr_text {c c' : Scanner} {addr : NameAddr} (h : parseNameAddr c = .ok addr c') :
    ∃ text, c.remaining = text ++ 62 :: c'.remaining := by
  obtain ⟨_, c₁, hws, h⟩ := bind_eq_ok_iff.mp h
  obtain ⟨display, c₂, hdisplay, h⟩ := bind_eq_ok_iff.mp h
  obtain ⟨_, c₃, hws', h⟩ := bind_eq_ok_iff.mp h
  obtain ⟨_, c₄, hopen, h⟩ := bind_eq_ok_iff.mp h
  obtain ⟨uri, c₅, huri, h⟩ := bind_eq_ok_iff.mp h
  obtain ⟨_, c₆, hclose, h⟩ := bind_eq_ok_iff.mp h
  injection h with _ hc₆
  have hnext := gives_mustRead.mp ⟨c₆, ofScan_eq_ok_iff.mp hclose, rfl⟩
  have hdisplay_ends : Ends parseDisplayName := ends_of_line staysIn_parseDisplayName
  obtain ⟨text, htext⟩ := ((((ends_parseUri true).suffix huri).trans
    ((ends_mustRead 60).suffix hopen)).trans (ends_skipWs.suffix hws')).trans
      ((hdisplay_ends.suffix hdisplay).trans (ends_skipWs.suffix hws))
  refine ⟨text, ?_⟩
  rw [← hc₆, ← show Cursor.remaining c₅ = 62 :: c₆.remaining from hnext, htext]
  rfl

/-- **The text of a contact.** -/
theorem contact_text {s : Bytes} {a : Contact} {left : Bytes}
    (h : ReadsElement Contact.parse s a left) :
    ∃ start rest, s = (start ++ rest) ++ left ∧ ContactStart start ∧ Balanced rest := by
  have hws : ∀ b ∈ s.takeWhile isSpace, isSpace b := fun _ => of_mem_takeWhile
  have hsplit : s = s.takeWhile isSpace ++ s.dropWhile isSpace :=
    List.takeWhile_append_dropWhile.symm
  have hnil : Balanced [] := balanced_plain (by simp)
  rcases readsElement_contact.mp h with ⟨scheme, w, hw, hread⟩ | ⟨-, hread⟩
  · -- a bare address, with or without a user part
    rw [hw] at hsplit
    rcases gives_contactAfterScheme.mp hread with ⟨-, c', hbare, rfl⟩ | ⟨-, hread⟩
    · obtain ⟨rest, hrest, hbalanced⟩ := (readsBalanced_bareContact _ _).exists_text hnil hbare
      refine ⟨_, rest, ?_, .scheme hws scheme, hbalanced⟩
      have hrest : w = rest ++ Cursor.remaining c' := hrest
      rw [hrest] at hsplit
      simpa using hsplit
    · obtain ⟨user, c₁, huser, c', hbare, rfl⟩ := gives_bind.mp hread
      obtain ⟨text, htext⟩ := userPart_text huser
      obtain ⟨rest, hrest, hbalanced⟩ := (readsBalanced_bareContact _ _).exists_text hnil hbare
      refine ⟨(s.takeWhile isSpace ++ (asBytes scheme.toText ++ 58 :: text)) ++ [64], rest, ?_,
        .closed _ (Or.inr rfl), hbalanced⟩
      have hw' : w = text ++ 64 :: (rest ++ Cursor.remaining c') := by
        rw [← hrest]
        exact htext
      rw [hw'] at hsplit
      simpa using hsplit
  · -- an address in angle brackets
    obtain ⟨addr, c₁, haddr, c', hparams, rfl⟩ := gives_bind.mp hread
    obtain ⟨text, htext⟩ := nameAddr_text haddr
    obtain ⟨rest, hrest, hbalanced⟩ := (readsBalanced_contactParams _).exists_text hnil hparams
    refine ⟨(s.takeWhile isSpace ++ text) ++ [62], rest, ?_, .closed _ (Or.inl rfl), hbalanced⟩
    have hw' : s.dropWhile isSpace = text ++ 62 :: (rest ++ Cursor.remaining c') := by
      rw [← hrest]
      exact htext
    rw [hw'] at hsplit
    simpa using hsplit

/-- Quotes and commas in a contact. -/
structure ContactText (text : Bytes) : Prop where
  quotes : 62 ∉ text → 64 ∉ text → text.count 34 % 2 = 0
  commas : ∀ {p q}, text = p ++ 44 :: q → 62 ∈ q ∨ 64 ∈ q ∨ q.count 34 % 2 = 1

/-- A scheme has none of the bytes that matter here. -/
theorem mem_scheme {scheme : Scheme} {b : UInt8} (h : b ∈ asBytes scheme.toText ++ [58]) :
    b ≠ 34 ∧ b ≠ 44 ∧ b ≠ 62 ∧ b ≠ 64 := by
  have hall : ∀ scheme : Scheme, ∀ b ∈ asBytes scheme.toText ++ [58],
      b ≠ 34 ∧ b ≠ 44 ∧ b ≠ 62 ∧ b ≠ 64 := by
    rintro (_ | _) <;> decide
  exact hall scheme b h

/-- A blank is none of the bytes that matter here. -/
theorem ne_of_isSpace {b : UInt8} (h : isSpace b) : b ≠ 34 ∧ b ≠ 44 ∧ b ≠ 62 ∧ b ≠ 64 := by
  refine ⟨?_, ?_, ?_, ?_⟩ <;>
  · rintro rfl
    exact absurd h (by decide)

/-- Blanks and a scheme. -/
theorem mem_schemeStart {ws : Bytes} {scheme : Scheme} {b : UInt8} (hws : ∀ b ∈ ws, isSpace b)
    (h : b ∈ ws ++ (asBytes scheme.toText ++ [58])) : b ≠ 34 ∧ b ≠ 44 ∧ b ≠ 62 ∧ b ≠ 64 := by
  rcases List.mem_append.mp h with h | h
  · exact ne_of_isSpace (hws b h)
  · exact mem_scheme h

/-- What a contact starts with, and balanced text behind it, make the text of a contact. -/
theorem ContactStart.contactText {start rest : Bytes} (h : ContactStart start)
    (hrest : Balanced rest) : ContactText (start ++ rest) := by
  cases h with
  | @scheme ws hws scheme =>
    have hstart : Balanced (ws ++ (asBytes scheme.toText ++ [58])) := by
      apply balanced_plain
      intro b hb
      exact ⟨(mem_schemeStart hws hb).1, (mem_schemeStart hws hb).2.1⟩
    have hwhole := hstart.append hrest
    exact ⟨fun _ _ => hwhole.quotes, fun htext => Or.inr (Or.inr (hwhole.commas htext))⟩
  | @closed text b hb =>
    have hmem : ∀ xs : Bytes, 62 ∈ xs ++ [b] ∨ 64 ∈ xs ++ [b] := by
      intro xs
      rcases hb with rfl | rfl <;> simp
    constructor
    · intro h62 h64
      rw [List.mem_append, not_or] at h62 h64
      exact absurd (hmem text) (not_or.mpr ⟨h62.1, h64.1⟩)
    · intro p q htext
      rcases append_eq_append_cons_iff.mp htext with ⟨xs, hxs, rfl⟩ | ⟨ys, -, hys⟩
      · -- what closes the start of the contact follows the comma
        rcases append_eq_append_cons_iff.mp hxs with ⟨xs', -, rfl⟩ | ⟨ys', -, hys'⟩
        · rcases hmem xs' with h | h
          · exact Or.inl (List.mem_append_left _ h)
          · exact Or.inr (Or.inl (List.mem_append_left _ h))
        · have hcomma : (44 : UInt8) ∈ [b] := by simp [hys']
          rcases hb with rfl | rfl <;> exact absurd hcomma (by decide)
      · exact Or.inr (Or.inr (hrest.commas hys))

/-- What the parser reads as one element of a list is the text of a contact. -/
theorem exists_contactText {s : Bytes} {a : Contact} {left : Bytes}
    (h : ReadsElement Contact.parse s a left) : ∃ text, s = text ++ left ∧ ContactText text := by
  obtain ⟨start, rest, hs, hstart, hrest⟩ := contact_text h
  exact ⟨start ++ rest, hs, hstart.contactText hrest⟩

/-! ### Lists of contacts -/

section

variable {s t : Bytes} {as : List Contact}

/-- Quotes come in pairs in contacts that have neither brackets nor user parts. -/
theorem quotes_of_elements (h : Elements (ReadsElement Contact.parse) 44 s as) (h62 : 62 ∉ s)
    (h64 : 64 ∉ s) : s.count 34 % 2 = 0 := by
  induction h with
  | last h =>
    obtain ⟨text, rfl, htext⟩ := exists_contactText h
    rw [List.append_nil] at h62 h64 ⊢
    exact htext.quotes h62 h64
  | cons h _ ih =>
    obtain ⟨text, rfl, htext⟩ := exists_contactText h
    simp only [List.mem_append, List.mem_cons, not_or] at h62 h64
    have hfirst := htext.quotes h62.1 h64.1
    have hrest := ih h62.2.2 h64.2.2
    rw [List.count_append, List.count_cons_of_ne (by decide)]
    omega

/-- A comma with nothing closed behind it is no part of a contact. -/
theorem startsIn_of_comma {p : Bytes} (h : Elements (ReadsElement Contact.parse) 44 s as)
    (hs : s = p ++ 44 :: t) (h62 : 62 ∉ t) (h64 : 64 ∉ t) (hquotes : t.count 34 % 2 = 0) :
    StartsIn (ReadsElement Contact.parse) 44 s t := by
  induction h generalizing p with
  | last h =>
    obtain ⟨text, htext, hcontact⟩ := exists_contactText h
    rw [List.append_nil] at htext
    rcases hcontact.commas (htext.symm.trans hs) with h | h | h
    · exact absurd h h62
    · exact absurd h h64
    · omega
  | @cons s a rest as h htl ih =>
    obtain ⟨text, htext, hcontact⟩ := exists_contactText h
    rw [htext] at hs
    rcases append_eq_append_cons_iff.mp hs with ⟨q, htext', rfl⟩ | ⟨q, -, hq⟩
    · -- the comma would stand between quotes, and another quote would be open behind it
      simp only [List.mem_append, List.mem_cons, not_or] at h62 h64
      have hrest := quotes_of_elements htl h62.2.2 h64.2.2
      rw [List.count_append, List.count_cons_of_ne (by decide)] at hquotes
      rcases hcontact.commas htext' with h | h | h
      · exact absurd h h62.1
      · exact absurd h h64.1
      · omega
    · cases q with
      | nil =>
        rw [List.nil_append, List.cons.injEq] at hq
        rw [← hq.2]
        exact .next h (.here rest)
      | cons b q =>
        rw [List.cons_append, List.cons.injEq] at hq
        exact .next h (ih hq.2)

/-- The last contact of `v` is a URI without brackets, without a user part and without blanks
    behind it, so that the look for an at sign does not end in it. -/
def OpenEnd (v : Bytes) : Prop :=
  ∃ before ws scheme w, v = before ++ (ws ++ (asBytes (Scheme.toText scheme) ++ 58 :: w)) ∧
    (before = [] ∨ ∃ p, before = p ++ [44]) ∧ (∀ b ∈ ws, isSpace b) ∧
    (∀ b ∈ w, inUri b ∧ b ≠ 64) ∧ w.count 34 % 2 = 0

section

variable {ws w : Bytes} (scheme : Scheme) (hws : ∀ b ∈ ws, isSpace b)
include hws

/-- In front of a scheme the blanks end. -/
theorem dropWhile_bare : (ws ++ (asBytes scheme.toText ++ 58 :: w)).dropWhile isSpace =
    asBytes scheme.toText ++ 58 :: w := by
  have hstops : Stops isSpace (asBytes scheme.toText ++ 58 :: w) := by
    cases scheme <;> exact stops_cons.mpr (by decide)
  rw [dropWhile_append_of_stops hstops, List.dropWhile_eq_nil_iff.mpr hws, List.nil_append]

/-- The quotes are in what follows the scheme. -/
theorem count_bare : (ws ++ (asBytes scheme.toText ++ 58 :: w)).count 34 = w.count 34 := by
  have hstart : (34 : UInt8) ∉ ws ++ (asBytes scheme.toText ++ [58]) :=
    fun hmem => (mem_schemeStart hws hmem).1 rfl
  have hsplit : ws ++ (asBytes scheme.toText ++ 58 :: w) =
      (ws ++ (asBytes scheme.toText ++ [58])) ++ w := by simp
  rw [hsplit, List.count_append, List.count_eq_zero_of_not_mem hstart, Nat.zero_add]

/-- A bare URI without user part has no bracket and no at sign in it. -/
theorem mem_bare (hw : ∀ b ∈ w, inUri b ∧ b ≠ 64) {b : UInt8}
    (hb : b ∈ ws ++ (asBytes scheme.toText ++ 58 :: w)) : b ≠ 62 ∧ b ≠ 64 := by
  have hb' : b ∈ (ws ++ (asBytes scheme.toText ++ [58])) ++ w := by simpa using hb
  rcases List.mem_append.mp hb' with hb | hb
  · exact (mem_schemeStart hws hb).2.2
  · refine ⟨?_, (hw b hb).2⟩
    rintro rfl
    exact absurd (hw 62 hb).1 (by decide)

end

/-- Blanks in front of the first contact do not matter. -/
theorem openEnd_dropWhile (v : Bytes) : OpenEnd (v.dropWhile isSpace) ↔ OpenEnd v := by
  have hblanks : ∀ b ∈ v.takeWhile isSpace, isSpace b := fun _ => of_mem_takeWhile
  have hsplit : v = v.takeWhile isSpace ++ v.dropWhile isSpace :=
    List.takeWhile_append_dropWhile.symm
  constructor
  · rintro ⟨before, ws, scheme, w, hv, hbefore, hws, hw⟩
    rw [hv] at hsplit
    rcases hbefore with rfl | ⟨p, rfl⟩
    · refine ⟨[], v.takeWhile isSpace ++ ws, scheme, w, ?_, Or.inl rfl, ?_, hw⟩
      · exact hsplit.trans (by simp)
      · intro b hb
        exact (List.mem_append.mp hb).elim (hblanks b) (hws b)
    · refine ⟨v.takeWhile isSpace ++ p ++ [44], ws, scheme, w, ?_, Or.inr ⟨_, rfl⟩, hws, hw⟩
      exact hsplit.trans (by simp)
  · rintro ⟨before, ws, scheme, w, hv, hbefore, hws, hw⟩
    rcases hbefore with rfl | ⟨p, rfl⟩
    · refine ⟨[], [], scheme, w, ?_, Or.inl rfl, by simp, hw⟩
      rw [hv, List.nil_append, dropWhile_bare scheme hws]
      rfl
    · refine ⟨p.dropWhile isSpace ++ [44], ws, scheme, w, ?_, Or.inr ⟨_, rfl⟩, hws, hw⟩
      have hcomma : ∀ x, Stops isSpace (44 :: x) := fun x => stops_cons.mpr (by decide)
      rw [hv, List.append_assoc, List.singleton_append, dropWhile_append_of_stops (hcomma _)]
      simp

/-- The look goes on behind the comma. -/
theorem noUserPart_behind {w f : Bytes} (hw : ∀ b ∈ w, inUri b ∧ b ≠ 64) :
    NoUserPart (w ++ 44 :: f) ↔ NoUserPart f := by
  have hcomma : inUri 44 := by decide
  have hnot : (64 : UInt8) ∉ w := fun hmem => (hw 64 hmem).2 rfl
  rw [NoUserPart, NoUserPart, List.takeWhile_append_of_pos fun b hb => (hw b hb).1,
    List.takeWhile_cons_of_pos hcomma]
  simp [hnot]

/-- A contact that the look for an at sign goes through is a URI without brackets. -/
theorem exists_scheme {u w : Bytes} (h : Elements (ReadsElement Contact.parse) 44 u as)
    (hw : bareUri u = some w) : ∃ scheme : Scheme,
      u = u.takeWhile isSpace ++ (asBytes scheme.toText ++ 58 :: w) := by
  obtain ⟨a, as, rfl⟩ := List.exists_cons_of_ne_nil h.ne_nil
  obtain ⟨left, hread⟩ := h.exists_reads
  rcases readsElement_contact.mp hread with ⟨scheme, w₁, hw₁, -⟩ | ⟨hnone, -⟩
  · have hsame : w₁ = w := Option.some.inj ((bareUri_eq hw₁).symm.trans hw)
    refine ⟨scheme, ?_⟩
    rw [← hsame, ← hw₁, List.takeWhile_append_dropWhile]
  · rw [hw] at hnone
    exact absurd hnone (by simp)

/-- **What may follow a list of contacts.** -/
theorem keepsUser_iff (h : Elements (ReadsElement Contact.parse) 44 s as) {f : Bytes} :
    (∀ u, StartsIn (ReadsElement Contact.parse) 44 s u → KeepsUser u (44 :: f)) ↔
      (OpenEnd s → NoUserPart f) := by
  constructor
  · -- the bare address at the end is the text of the last element
    rintro hkeeps ⟨before, ws, scheme, w, hs, hbefore, hws, hw, hquotes⟩
    have hstarts : StartsIn (ReadsElement Contact.parse) 44 s
        (ws ++ (asBytes scheme.toText ++ 58 :: w)) := by
      rcases hbefore with rfl | ⟨p, rfl⟩
      · rw [hs]
        exact .here _
      · rw [List.append_assoc] at hs
        refine startsIn_of_comma h hs (fun hb => (mem_bare scheme hws hw hb).1 rfl)
          (fun hb => (mem_bare scheme hws hw hb).2 rfl) ?_
        rwa [count_bare scheme hws]
    have hno : NoUserPart w := fun hat => (hw 64 ((List.takeWhile_prefix _).subset hat)).2 rfl
    exact (noUserPart_behind hw).mp
      (hkeeps _ hstarts w (bareUri_eq (dropWhile_bare scheme hws)) hno)
  · intro hopen u hu w hw hno
    by_cases hall : ∀ b ∈ w, inUri b
    · -- the look comes to the comma
      have hw' : ∀ b ∈ w, inUri b ∧ b ≠ 64 := by
        intro b hb
        refine ⟨hall b hb, ?_⟩
        rintro rfl
        rw [NoUserPart, List.takeWhile_eq_self_iff.mpr hall] at hno
        exact hno hb
      obtain ⟨bs, hbs⟩ := hu.exists_elements (functional_readsElement _) h
      obtain ⟨scheme, hsplit⟩ := exists_scheme hbs hw
      have hws : ∀ b ∈ u.takeWhile isSpace, isSpace b := fun _ => of_mem_takeWhile
      have hquotes : w.count 34 % 2 = 0 := by
        rw [← count_bare scheme hws, ← hsplit]
        refine quotes_of_elements hbs ?_ ?_ <;>
        · rw [hsplit]
          intro hb
          simpa using mem_bare scheme hws hw' hb
      obtain ⟨before, hs, hbefore⟩ : ∃ before, s = before ++ u ∧
          (before = [] ∨ ∃ p, before = p ++ [44]) := by
        have hcontact : StaysInLine Contact.parse := staysInLine_contact
        have hsuffix : ∀ {s a left}, ReadsElement Contact.parse s a left → left <:+ s := by
          rintro s a left ⟨c', hrun, rfl⟩
          exact hcontact.suffix hrun
        rcases hu.eq_or_append hsuffix with rfl | ⟨p, hp⟩
        · exact ⟨[], rfl, Or.inl rfl⟩
        · exact ⟨p ++ [44], by rw [hp]; simp, Or.inr ⟨p, rfl⟩⟩
      rw [hsplit] at hs
      exact (noUserPart_behind hw').mpr
        (hopen ⟨before, _, scheme, w, hs, hbefore, hws, hw', hquotes⟩)
    · -- the look ends before the comma, so what follows it does not matter
      push Not at hall
      obtain ⟨b, hb, hstop⟩ := hall
      rw [NoUserPart, takeWhile_append_of_mem hb (by simpa using hstop)]
      exact hno

end

end SipParser

end Rssip
