import Rssip.Parser.ContactLists
import Rssip.Parser.Lines

namespace Rssip

open Lib SipParser

/-!
# Combined header lines

Several lines of one header may be written as one, with commas between their values.  The parser
reads the values of `Via`, the headers of a route and the contacts so.

* `ListHeader` — the headers that are read as lists, and what may follow one of their values;
* `LineGives` — a line is read as these headers wherever it stands in a message;
* `Appends` — when the elements of two values are read from both with a comma between them;
* `combined_iff` — when the combined line gives the headers of the separate ones.
-/

/-! ### Headers that are read as lists -/

/-- The headers that the parser reads as lists. -/
inductive ListHeader where
  | via
  | route
  | recordRoute
  | contact
deriving DecidableEq

namespace ListHeader

/-- The name under which the header is printed. -/
def name : ListHeader → String
  | .via => Via.name
  | .route => Route.name
  | .recordRoute => RecordRoute.name
  | .contact => Contact.name

/-- The line of a value. -/
def line (H : ListHeader) (value : Bytes) : Bytes := asBytes H.name ++ (asBytes ": " ++ value)

/-- What may stand behind the comma behind `value`.  The parser of a `Via` does not skip blanks,
    and that of a contact may look for an at sign there. -/
def Joins : ListHeader → Bytes → Bytes → Prop
  | .via, _, rest => Stops isSpace rest
  | .route, _, _ => True
  | .recordRoute, _, _ => True
  | .contact, value, rest => OpenEnd value → NoUserPart rest

end ListHeader

/-- A value with others behind it, each after a comma and blanks. -/
def combined (first : Bytes) (more : List (Bytes × Bytes)) : Bytes :=
  first ++ more.flatMap fun p => 44 :: (p.1 ++ p.2)

/-- Each value may stand in front of what follows it. -/
def Joined (joins : Bytes → Bytes → Prop) : Bytes → List (Bytes × Bytes) → Prop
  | _, [] => True
  | value, (blanks, next) :: more =>
    joins value (combined (blanks ++ next) more) ∧ Joined joins next more

/-- The line is read as these headers, wherever it stands in a message. -/
def LineGives (line : Bytes) (headers : Headers) : Prop :=
  ∀ ⦃c : Scanner⦄ ⦃rest : Bytes⦄, c.remaining = line ++ rest → (∀ b ∈ rest.head?, isNewline b) →
    Gives header c headers rest

/-- The values behind the first one stand behind a comma each. -/
theorem combined_cons (value blanks next : Bytes) (more : List (Bytes × Bytes)) :
    combined value ((blanks, next) :: more) = value ++ 44 :: combined (blanks ++ next) more := by
  simp [combined]

/-- Blanks in front of the first value do not matter where they are skipped. -/
theorem dropWhile_combined {blanks : Bytes} (h : ∀ b ∈ blanks, isSpace b) (value : Bytes)
    (more : List (Bytes × Bytes)) : (combined (blanks ++ value) more).dropWhile isSpace =
      (combined value more).dropWhile isSpace := by
  rw [combined, List.append_assoc, List.dropWhile_append_of_pos h]
  rfl

/-! ### One element behind another -/

section Appends

variable {α : Type} {p : Parse α} {joins : Bytes → Bytes → Prop}

/-- The elements of two texts with a comma between them are read if the second one may stand
    behind the first one. -/
def Appends (p : Parse α) (joins : Bytes → Bytes → Prop) : Prop :=
  ∀ {v as t bs}, Elements (ReadsElement p) 44 (v.dropWhile isSpace) as →
    (Elements (ReadsElement p) 44 ((v ++ 44 :: t).dropWhile isSpace) (as ++ bs) ↔
      joins v t ∧ Elements (ReadsElement p) 44 (t.dropWhile isSpace) bs)

/-- Blanks in front of an element, if there may be any, are in front of the whole list. -/
theorem elements_dropWhile {front : Bytes → Prop}
    (hfront : ∀ {s a left}, ReadsElement p s a left ↔
      front s ∧ ReadsElement p (s.dropWhile isSpace) a left) {t : Bytes} {as : List α} :
    Elements (ReadsElement p) 44 t as ↔
      front t ∧ Elements (ReadsElement p) 44 (t.dropWhile isSpace) as := by
  constructor
  · intro h
    cases h with
    | last h => exact ⟨(hfront.mp h).1, .last (hfront.mp h).2⟩
    | cons h htl => exact ⟨(hfront.mp h).1, .cons (hfront.mp h).2 htl⟩
  · rintro ⟨ht, h⟩
    cases h with
    | last h => exact .last (hfront.mpr ⟨ht, h⟩)
    | cons h htl => exact .cons (hfront.mpr ⟨ht, h⟩) htl

/-- Elements whose end does not depend on what follows a comma can be appended to. -/
theorem appends_of_extends {ok : Bytes → Bytes → Prop} {front : Bytes → Prop}
    (hext : Extends (ReadsElement p) 44 ok)
    (hfront : ∀ {s a left}, ReadsElement p s a left ↔
      front s ∧ ReadsElement p (s.dropWhile isSpace) a left)
    (hjoins : ∀ {v as t}, Elements (ReadsElement p) 44 (v.dropWhile isSpace) as →
      ((∀ u, StartsIn (ReadsElement p) 44 (v.dropWhile isSpace) u → ok u (44 :: t)) ∧ front t ↔
        joins v t)) : Appends p joins := by
  intro v as t bs h
  have hcomma : Stops isSpace (44 :: t) := stops_cons.mpr (by decide)
  rw [dropWhile_append_of_stops hcomma, elements_append_iff hext h, elements_dropWhile hfront,
    ← and_assoc, hjoins h]

/-- Elements of a parser that skips blanks first. -/
theorem readsElement_blanks {k : Parse α} (hp : StaysInLine p) (heq : p = skipWs >>= fun _ => k)
    {s : Bytes} {a : α} {left : Bytes} :
    ReadsElement p s a left ↔ True ∧ ReadsElement p (s.dropWhile isSpace) a left := by
  have hrem : (Lib.advance (Scanner.new s) (s.takeWhile isSpace)).remaining =
      s.dropWhile isSpace := remaining_scanWhile isSpace (Scanner.new s)
  have hnew : (Scanner.new (s.dropWhile isSpace)).remaining = s.dropWhile isSpace := rfl
  have hnil : (s.dropWhile isSpace).takeWhile isSpace = [] := by
    have hstops := stops_dropWhile isSpace s
    cases hdrop : s.dropWhile isSpace with
    | nil => rfl
    | cons b bs =>
      rw [hdrop, stops_cons] at hstops
      rw [List.takeWhile_cons_of_neg (by simp [hstops])]
  rw [true_and, ReadsElement, ReadsElement, ← gives_congr hp (hrem.trans hnew.symm), heq,
    gives_skipWs_bind, gives_skipWs_bind, hrem, hnil]
  rfl

end Appends

/-- The values of a `Via` can be appended to each other without blanks. -/
theorem appends_via : Appends Via.parse (ListHeader.Joins .via) := by
  have hstops : ∀ {s : Bytes} {a : Via} {left : Bytes}, ReadsElement Via.parse s a left →
      Stops isSpace s := by
    rintro s a left ⟨c', h, -⟩
    obtain ⟨_, c₁, hversion, h⟩ := bind_eq_ok_iff.mp h
    obtain ⟨b, c₂, hadvance, -⟩ := bind_eq_ok_iff.mp h
    have hs := gives_version.mp ⟨c₂, bind_eq_ok_iff.mpr ⟨_, c₁, hversion, hadvance⟩, rfl⟩
    have hs : s = (asBytes sipV2 ++ [b]) ++ Cursor.remaining c₂ := hs
    rw [hs, show asBytes sipV2 = [83, 73, 80, 47, 50, 46, 48] by decide]
    exact stops_cons.mpr (by decide)
  have hfront : ∀ {s : Bytes} {a : Via} {left : Bytes}, ReadsElement Via.parse s a left ↔
      Stops isSpace s ∧ ReadsElement Via.parse (s.dropWhile isSpace) a left := by
    intro s a left
    constructor
    · intro h
      rw [(hstops h).dropWhile_eq]
      exact ⟨hstops h, h⟩
    · rintro ⟨hs, h⟩
      rwa [hs.dropWhile_eq] at h
  apply appends_of_extends (extends_of_staysIn staysIn_via) hfront
  intro v as t _
  simp [ListHeader.Joins]

/-- The values of a `Route` can be appended to each other. -/
theorem appends_route : Appends Route.parse (ListHeader.Joins .route) := by
  have heq : ∃ k, Route.parse = skipWs >>= fun _ => k :=
    ⟨_, by simp only [Route.parse, parseRouteParam, parseNameAddr, bind_assoc]; rfl⟩
  obtain ⟨k, heq⟩ := heq
  apply appends_of_extends (extends_of_staysIn staysIn_route)
  · exact readsElement_blanks staysIn_route heq
  · intro v as t _
    simp [ListHeader.Joins]

/-- The values of a `Record-Route` can be appended to each other. -/
theorem appends_recordRoute : Appends RecordRoute.parse (ListHeader.Joins .recordRoute) := by
  have heq : ∃ k, RecordRoute.parse = skipWs >>= fun _ => k :=
    ⟨_, by simp only [RecordRoute.parse, parseRouteParam, parseNameAddr, bind_assoc]; rfl⟩
  obtain ⟨k, heq⟩ := heq
  apply appends_of_extends (extends_of_staysIn staysIn_recordRoute)
  · exact readsElement_blanks staysIn_recordRoute heq
  · intro v as t _
    simp [ListHeader.Joins]

/-- The values of a `Contact` can be appended to each other, if an open one finds no at sign behind
    its comma. -/
theorem appends_contact : Appends Contact.parse (ListHeader.Joins .contact) := by
  apply appends_of_extends extends_contact
  · exact readsElement_blanks staysInLine_contact contact_eq
  · intro v as t h
    rw [and_true, keepsUser_iff h, openEnd_dropWhile]
    rfl

/-! ### Lines -/

/-- A line is the same with and without what follows it. -/
theorem lineGives_iff {line : Bytes} {headers : Headers} :
    LineGives line headers ↔ Gives header (Scanner.new line) headers [] := by
  constructor
  · intro h
    exact h (List.append_nil line).symm (by simp)
  · intro h c rest hc hrest
    exact (staysInLine_header.inLine ⟨hc, hrest⟩ headers []).mp h

section Lines

variable {α : Type} {toHeader : α → Header} {p : Parse α} {joins : Bytes → Bytes → Prop}
  {H : ListHeader}

/-- The headers of a line are the elements of its value. -/
theorem lineGives_iff_elements (hparse : parseHeaderValue H.name = many toHeader p)
    (hp : StaysInLine p) {value : Bytes} {headers : Headers} :
    LineGives (H.line value) headers ↔ ∃ as : List α, headers = as.map toHeader ∧
      Elements (ReadsElement p) 44 (value.dropWhile isSpace) as := by
  have hname : Over isToken H.name := by cases H <;> decide
  have hspace : ∀ b ∈ 32 :: value.takeWhile isSpace, isSpace b := by
    rintro b (_ | ⟨_, hb⟩)
    · decide
    · exact of_mem_takeWhile hb
  have hread : Reads headerName (asBytes H.name ++ ([58] ++ (32 :: value.takeWhile isSpace)))
      (value.dropWhile isSpace) H.name :=
    reads_headerName hname hspace (stops_dropWhile isSpace value)
  have hline : (Scanner.new (H.line value)).remaining =
      (asBytes H.name ++ ([58] ++ (32 :: value.takeWhile isSpace))) ++ value.dropWhile isSpace := by
    have hsplit : value.takeWhile isSpace ++ value.dropWhile isSpace = value :=
      List.takeWhile_append_dropWhile
    show H.line value = _
    simp [ListHeader.line, hsplit, show asBytes ": " = [58, 32] by decide]
  -- the name is read in any case, so the line gives what its value gives
  have hrun := hread _ hline
  have hrem := remaining_advance (σ := Scanner) hline
  rw [lineGives_iff, header, gives_bind]
  constructor
  · rintro ⟨name, c₁, hname', hgives⟩
    rw [hrun] at hname'
    injection hname' with hname' hc₁
    rw [← hname', ← hc₁, hparse, gives_many] at hgives
    obtain ⟨as, hheaders, hcollect⟩ := hgives
    rw [gives_collectSep hp, show Scanner.remaining _ = _ from hrem] at hcollect
    exact ⟨as, hheaders, hcollect⟩
  · rintro ⟨as, hheaders, helements⟩
    refine ⟨H.name, _, hrun, ?_⟩
    rw [hparse, gives_many]
    refine ⟨as, hheaders, (gives_collectSep hp).mpr ?_⟩
    rw [show Scanner.remaining _ = _ from hrem]
    exact helements

/-- The elements of several values, one behind the other. -/
theorem elements_combined (happ : Appends p joins) {first : Bytes} {as : List α}
    {more : List (Bytes × Bytes)} {ass : List (List α)}
    (hfirst : Elements (ReadsElement p) 44 (first.dropWhile isSpace) as)
    (hmore : List.Forall₂ (fun v as => Elements (ReadsElement p) 44 (v.2.dropWhile isSpace) as)
      more ass) (hblanks : ∀ v ∈ more, ∀ b ∈ v.1, isSpace b) :
    Elements (ReadsElement p) 44 ((combined first more).dropWhile isSpace) (as ++ ass.flatten) ↔
      Joined joins first more := by
  induction hmore generalizing first as with
  | nil =>
    refine iff_of_true ?_ trivial
    simpa [combined] using hfirst
  | @cons v as' more ass hnext _ ih =>
    obtain ⟨blanks, next⟩ := v
    have hws := hblanks (blanks, next) List.mem_cons_self
    rw [combined_cons, List.flatten_cons, happ hfirst, dropWhile_combined hws,
      ih hnext fun v hv => hblanks v (List.mem_cons_of_mem _ hv), Joined]

/-- A line of several values gives the headers of each exactly if each value may stand in front of
    what follows it. -/
theorem lineGives_combined_iff (hparse : parseHeaderValue H.name = many toHeader p)
    (hinj : Function.Injective toHeader) (hp : StaysInLine p) (happ : Appends p joins)
    {first : Bytes} {headers : Headers} {more : List (Bytes × Bytes)} {headerss : List Headers}
    (hfirst : LineGives (H.line first) headers)
    (hmore : List.Forall₂ (fun v hs => LineGives (H.line v.2) hs) more headerss)
    (hblanks : ∀ v ∈ more, ∀ b ∈ v.1, isSpace b) :
    LineGives (H.line (combined first more)) (headers ++ headerss.flatten) ↔
      Joined joins first more := by
  have hiff : ∀ {value headers}, LineGives (H.line value) headers ↔
      ∃ as : List α, headers = as.map toHeader ∧
        Elements (ReadsElement p) 44 (value.dropWhile isSpace) as := lineGives_iff_elements hparse hp
  obtain ⟨as, rfl, has⟩ := hiff.mp hfirst
  obtain ⟨ass, rfl, hass⟩ : ∃ ass : List (List α), headerss = ass.map (List.map toHeader) ∧
      List.Forall₂ (fun v as => Elements (ReadsElement p) 44 (v.2.dropWhile isSpace) as)
        more ass := by
    -- line by line: each is a list of elements of its own
    clear hblanks
    induction hmore with
    | nil => exact ⟨[], rfl, .nil⟩
    | cons hline _ ih =>
      obtain ⟨as', rfl, has'⟩ := hiff.mp hline
      obtain ⟨ass, rfl, hass⟩ := ih
      exact ⟨as' :: ass, rfl, .cons has' hass⟩
  rw [← elements_combined happ has hass hblanks, hiff, ← List.map_flatten, ← List.map_append]
  constructor
  · rintro ⟨as', hmap, helements⟩
    rwa [List.map_injective_iff.mpr hinj hmap]
  · exact fun helements => ⟨_, rfl, helements⟩

end Lines

/-- **Combined header lines.**  The combined line gives the headers of the separate ones if and
    only if each value may stand in front of those that follow it. -/
theorem combined_iff (H : ListHeader) {first : Bytes} {headers : Headers}
    {more : List (Bytes × Bytes)} {headerss : List Headers}
    (hfirst : LineGives (H.line first) headers)
    (hmore : List.Forall₂ (fun v hs => LineGives (H.line v.2) hs) more headerss)
    (hblanks : ∀ v ∈ more, ∀ b ∈ v.1, isSpace b) :
    LineGives (H.line (combined first more)) (headers ++ headerss.flatten) ↔
      Joined H.Joins first more := by
  cases H with
  | via =>
    exact lineGives_combined_iff rfl (fun _ _ h => by injection h) staysIn_via appends_via
      hfirst hmore hblanks
  | route =>
    exact lineGives_combined_iff rfl (fun _ _ h => by injection h) staysIn_route appends_route
      hfirst hmore hblanks
  | recordRoute =>
    exact lineGives_combined_iff rfl (fun _ _ h => by injection h) staysIn_recordRoute
      appends_recordRoute hfirst hmore hblanks
  | contact =>
    exact lineGives_combined_iff rfl (fun _ _ h => by injection h) staysInLine_contact
      appends_contact hfirst hmore hblanks

/-- A line that is a header on its own gives some headers. -/
theorem exists_lineGives {line : Bytes} (h : isHeader line) : ∃ headers, LineGives line headers := by
  obtain ⟨headers, hgives⟩ := isHeader_iff.mp h
  exact ⟨headers, lineGives_iff.mpr hgives⟩

/-- Two hops of a route. -/
theorem combined_route : ∃ one two,
    LineGives (asBytes "Route: <sip:a;lr>") one ∧ LineGives (asBytes "Route: <sip:b;lr>") two ∧
      LineGives (asBytes "Route: <sip:a;lr>, <sip:b;lr>") (one ++ two) := by
  have hone : asBytes "Route: <sip:a;lr>" = ListHeader.line .route (asBytes "<sip:a;lr>") := by
    decide +kernel
  have htwo : asBytes "Route: <sip:b;lr>" = ListHeader.line .route (asBytes "<sip:b;lr>") := by
    decide +kernel
  have hboth : asBytes "Route: <sip:a;lr>, <sip:b;lr>" = ListHeader.line .route
      (combined (asBytes "<sip:a;lr>") [([32], asBytes "<sip:b;lr>")]) := by
    decide +kernel
  have hfirst : isHeader (asBytes "Route: <sip:a;lr>") := by decide +kernel
  have hnext : isHeader (asBytes "Route: <sip:b;lr>") := by decide +kernel
  obtain ⟨one, hfirst⟩ := exists_lineGives hfirst
  obtain ⟨two, hnext⟩ := exists_lineGives hnext
  refine ⟨one, two, hfirst, hnext, ?_⟩
  rw [hone] at hfirst
  rw [htwo] at hnext
  rw [hboth]
  have hmore : List.Forall₂ (fun (v : Bytes × Bytes) hs => LineGives (ListHeader.line .route v.2) hs)
      [([32], asBytes "<sip:b;lr>")] [two] := .cons hnext .nil
  have hall := (combined_iff .route hfirst hmore (by decide)).mpr ⟨trivial, trivial⟩
  simpa using hall

/-- The number of headers of a line. -/
def headerCount (line : Bytes) : Option Nat :=
  match header (Scanner.new line) with
  | .ok headers _ => some headers.length
  | .error _ _ => none

/-- The number of headers of a line is that of the headers it gives. -/
theorem LineGives.headerCount_eq {line : Bytes} {headers : Headers} (h : LineGives line headers) :
    headerCount line = some headers.length := by
  obtain ⟨c', hrun, -⟩ := lineGives_iff.mp h
  rw [headerCount, hrun]

/-- Two values of a `Via` with a blank between them, and two contacts the second one of which has
    a user. -/
theorem not_combined :
    ((∃ one, LineGives (asBytes "Via: SIP/2.0/UDP a") one) ∧
      (∃ two, LineGives (asBytes "Via: SIP/2.0/UDP b") two) ∧
      ∀ headers, ¬ LineGives (asBytes "Via: SIP/2.0/UDP a, SIP/2.0/UDP b") headers) ∧
    ∃ one two, LineGives (asBytes "Contact: sip:a") one ∧ LineGives (asBytes "Contact: sip:u@b") two ∧
      ¬ LineGives (asBytes "Contact: sip:a,sip:u@b") (one ++ two) := by
  constructor
  · refine ⟨exists_lineGives (by decide +kernel), exists_lineGives (by decide +kernel), ?_⟩
    intro headers h
    have hheader : isHeader (asBytes "Via: SIP/2.0/UDP a, SIP/2.0/UDP b") :=
      isHeader_iff.mpr ⟨headers, lineGives_iff.mp h⟩
    exact absurd hheader (by decide +kernel)
  · have hone : isHeader (asBytes "Contact: sip:a") := by decide +kernel
    have htwo : isHeader (asBytes "Contact: sip:u@b") := by decide +kernel
    obtain ⟨one, hone⟩ := exists_lineGives hone
    obtain ⟨two, htwo⟩ := exists_lineGives htwo
    refine ⟨one, two, hone, htwo, fun hboth => ?_⟩
    -- the combined line is one contact, with the user `a,sip`
    have hcount : headerCount (asBytes "Contact: sip:a") = some 1 ∧
        headerCount (asBytes "Contact: sip:u@b") = some 1 ∧
        headerCount (asBytes "Contact: sip:a,sip:u@b") = some 1 := by decide +kernel
    rw [hone.headerCount_eq, htwo.headerCount_eq, hboth.headerCount_eq, List.length_append] at hcount
    simp only [Option.some.injEq] at hcount
    omega

end Rssip
