import Rssip.Lib.Yields
import Rssip.Parser.Confined

namespace Rssip

open Lib

/-!
# What the parsers make

Every field of a parsed value is scanned with a table, or taken as it is from between quotes.

* `fromStr` — a parser on a whole string, as the `FromStr` instances of the crate use it;
* `Inherited` — what holds of the rest of a text if it holds of the text, and the loops that
  keep it;
* `Scanned` — a string that a table gives, or quotes if there are any;
* `Uri.Scanned`, `NameAddr.Scanned`, … — the values that the parsers make, one lemma each.
-/

namespace SipParser

/-- A parser on a string.  What it leaves unread is not looked at. -/
def fromStr {α : Type} (r : Parse α) (s : String) : Except Failure α :=
  match r (Scanner.new (asBytes s)) with
  | .ok a _ => .ok a
  | .error failure _ => .error failure

/-- A parser on a string gives what it gives on the bytes of the string, wherever it stops. -/
theorem fromStr_eq_ok_iff {α : Type} {r : Parse α} {s : String} {a : α} :
    fromStr r s = .ok a ↔ ∃ c, r (Scanner.new (asBytes s)) = .ok a c := by
  unfold fromStr
  cases r (Scanner.new (asBytes s)) <;> simp

/-- A parser that reads the whole of a string gives its value on the string. -/
theorem fromStr_of_reads {α : Type} {r : Parse α} {s : String} {a : α}
    (h : Reads r (asBytes s) [] a) : fromStr r s = .ok a :=
  fromStr_eq_ok_iff.mpr ⟨_, h _ (List.append_nil (asBytes s)).symm⟩

/-! ### Invariants of what remains -/

/-- What holds of a text holds of every rest of it. -/
def Inherited (S : Scanner → Prop) : Prop :=
  ∀ ⦃c c' : Scanner⦄, S c → c'.remaining <:+ c.remaining → S c'

section Failures

variable {S : Scanner → Prop} {α : Type} {P : α → Prop}

/-- The parser's use of a scan gives what the scan gives. -/
theorem yields_ofScan {scan : Scan α} (h : Yields S P scan) : Yields S P (ofScan scan) :=
  fun c a c' hc hr => h c a c' hc (ofScan_eq_ok_iff.mp hr)

/-- A scan that fails gives nothing, so everything holds of what it gives. -/
theorem yields_scanError (kind : ScannerErrorKind) : Yields S P (Scan.scanError kind : Scan α) := by
  intro c a c' _ h
  injection h

/-- A parser that fails gives nothing, so everything holds of what it gives. -/
theorem yields_error (kind : ParseErrorKind) : Yields S P (error kind : Parse α) := by
  intro c a c' _ h
  injection h

end Failures

section Inherited

variable {S : Scanner → Prop} (hS : Inherited S) {α : Type} {P Q : α → Prop}
include hS

/-- What every rest of a text has, a parser that only goes forward keeps. -/
theorem Inherited.keeps {E : Failure → Prop} {r : Parse α} (h : Bounded E r) :
    Yields S (fun _ => True) r :=
  fun _ _ _ hc hr => ⟨trivial, hS hc (h.suffix hr)⟩

/-- A loop over elements, the last of which makes `Q`. -/
theorem yields_foldSep {sep : UInt8} {elem : α → Parse α} (h : ∀ a, P a → Yields S Q (elem a))
    (hQ : ∀ a, Q a → P a) {a : α} (ha : P a) : Yields S Q (foldSep sep elem a) := by
  rw [foldSep_eq]
  refine Yields.loop (P := P) ?_ ha
  intro a ha
  apply Yields.bind (h a ha)
  intro a ha
  apply Yields.bind (hS.keeps (ends_takeIfEq sep))
  intro o _
  exact Yields.ite (Yields.pure ha) (Yields.pure (hQ a ha))

/-- A list has at least one element. -/
theorem yields_collectSep {sep : UInt8} {elem : Parse α} (h : Yields S P elem) :
    Yields S (fun as => as ≠ [] ∧ ∀ a ∈ as, P a) (collectSep sep elem) := by
  refine yields_foldSep hS (P := fun as => ∀ a ∈ as, P a) ?_ (fun _ => And.right)
    (List.forall_mem_nil P)
  intro as has
  apply h.map
  intro a ha
  exact ⟨by simp, List.forall_mem_append.mpr ⟨has, List.forall_mem_singleton.mpr ha⟩⟩

/-- Every element of a list has what an element has, and there is at least one. -/
theorem yields_collectElems {elem : Parse α} (h : Yields S P elem) :
    Yields S (fun as => as ≠ [] ∧ ∀ a ∈ as, P a) (collectElemsSeparatedByComma elem) :=
  yields_collectSep hS ((hS.keeps ends_skipWs).bind fun _ _ => h)

/-- A list of parameters, some of which are kept in a value with `P`. -/
theorem yields_parseParamsWith {R R' : Param → Prop} {ref : Parse Param}
    {store : α → Param → Parse (α × Option Param)} (href : Yields S R ref)
    (hstore : ∀ a p, P a → R p → Yields S (fun r => P r.1 ∧ ∀ q ∈ r.2, R' q) (store a p))
    {a : α} (ha : P a) :
    Yields S (fun r => P r.1 ∧ ∀ p ∈ r.2.inner, R' p) (parseParamsWith ref store a) := by
  rw [parseParamsWith_eq]
  apply Yields.bind (hS.keeps ends_skipWs)
  intro _ _
  refine Yields.loop (P := fun r : α × List Param => P r.1 ∧ ∀ p ∈ r.2, R' p) ?_
    ⟨ha, List.forall_mem_nil _⟩
  rintro ⟨a, params⟩ ⟨ha, hparams⟩
  apply Yields.bind (hS.keeps (ends_takeIfEq 59))
  intro o _
  refine Yields.ite (Yields.pure ⟨ha, hparams⟩) ?_
  apply Yields.bind href
  intro p hp
  apply Yields.bind (hstore a p ha hp)
  rintro ⟨a', q⟩ ⟨ha', hq⟩
  apply Yields.bind (hS.keeps ends_skipWs)
  intro _ _
  apply Yields.pure
  exact ⟨ha', List.forall_mem_append.mpr ⟨hparams, fun p hp => hq p (Option.mem_toList.mp hp)⟩⟩

/-- A list of parameters that are all given back. -/
theorem yields_params {R : Param → Prop} {ref : Parse Param} (href : Yields S R ref) :
    Yields S (fun ps : Params => ∀ p ∈ ps.inner, R p)
      (Prod.snd <$> parseParamsWith ref (fun _ p => return ((), some p)) ()) := by
  have hstore : ∀ (a : Unit) (p : Param), True → R p →
      Yields S (fun r : Unit × Option Param => True ∧ ∀ q ∈ r.2, R q)
        (Pure.pure ((), some p) : Parse (Unit × Option Param)) := by
    intro _ p _ hp
    refine Yields.pure ⟨trivial, ?_⟩
    intro q hq
    rwa [← Option.some.inj hq]
  exact (yields_parseParamsWith hS href hstore (a := ()) trivial).map fun _ => And.right

/-- What a scan takes is over its predicate. -/
theorem yields_consumeWhile_all (predicate : UInt8 → Bool) :
    Yields S (fun text : Bytes => ∀ b ∈ text, predicate b) (consumeWhile predicate) := by
  intro c text c' hc h
  have hkeeps := (hS.keeps (ends_consumeWhile predicate)) c text c' hc h
  obtain ⟨htext, -⟩ := scanWhile_eq_ok_iff.mp h
  refine ⟨?_, hkeeps.2⟩
  intro b hb
  rw [← htext] at hb
  exact of_mem_takeWhile hb

/-- What is read with a table is over it. -/
theorem yields_readWhile (tab : LookupTable) :
    Yields S (Over tab) (readWhileAsStrUnchecked tab) := by
  rw [readWhileAsStrUnchecked, scanWhileAsStrUnchecked_eq]
  apply (yields_consumeWhile_all hS tab).map
  intro bytes hbytes
  rw [fromUtf8Unchecked]
  cases h : fromUtf8 bytes with
  | none =>
    rw [Option.getD_none, Over, asBytes_empty]
    exact List.forall_mem_nil _
  | some s =>
    rw [Option.getD_some, Over, fromUtf8_eq_some_iff.mp h]
    exact hbytes

/-- A text up to a delimiter has none. -/
theorem yields_upTo (b : UInt8) :
    Yields S (fun s => b ∉ asBytes s) (do
      let text ← takeUntil b
      let _ ← advance
      utf8 text) := by
  apply Yields.bind (yields_consumeWhile_all hS (· != b))
  intro text htext
  apply Yields.bind (hS.keeps ends_advance)
  intro _ _ c s c' hc h
  obtain ⟨hs, rfl⟩ := utf8_eq_ok_iff.mp h
  refine ⟨fun hmem => ?_, hc⟩
  rw [hs] at hmem
  exact absurd (htext b hmem) (by simp)

end Inherited

/-! ### Texts with and without quotes -/

/-- If there are no `quotes` to be found, then none remains to be read. -/
def Quoteless (quotes : Prop) (c : Scanner) : Prop := quotes ∨ 34 ∉ c.remaining

variable {quotes : Prop} {tab : LookupTable} {s : String}

/-- Where no quote is to be found, none is found later. -/
theorem inherited_quoteless : Inherited (Quoteless quotes) :=
  fun _ _ h hsuffix => h.imp_right fun hnot hmem => hnot (hsuffix.subset hmem)

/-- In a buffer without quotes none is to be found. -/
theorem quoteless_new {buf : Bytes} (h : 34 ∉ buf) : Quoteless quotes (Scanner.new buf) := Or.inr h

/-- A parser that only goes forward finds no quotes where there are none. -/
theorem keepsQuoteless {α : Type} {r : Parse α} (h : Ends r) :
    Yields (Quoteless quotes) (fun _ => True) r := inherited_quoteless.keeps h

/-- A string that is scanned with `tab`, or stands between `quotes`. -/
def Scanned (quotes : Prop) (tab : LookupTable) (s : String) : Prop :=
  Over tab s ∨ quotes ∧ 34 ∉ asBytes s

/-- Scanned or quoted, a string has no quote in it, if the table has none. -/
theorem Scanned.not_mem (htab : tab 34 = false) (h : Scanned quotes tab s) : 34 ∉ asBytes s := by
  rcases h with h | ⟨-, h⟩
  · exact h.not_mem htab
  · exact h

/-- Where there are no quotes, a scanned string is over its table. -/
theorem Scanned.over (h : Scanned False tab s) : Over tab s := h.resolve_right fun h => h.1

/-- A quote is found only where there are `quotes`. -/
theorem yields_takeQuote :
    Yields (Quoteless quotes) (fun o => o.isSome → quotes) (takeIfEq 34) := by
  intro c o c' hc h
  refine ⟨?_, (keepsQuoteless (ends_takeIfEq 34) c o c' hc h).2⟩
  intro ho
  rcases gives_scanIfEq.mp ⟨c', h, rfl⟩ with ⟨-, hrem⟩ | ⟨rfl, -⟩
  · exact hc.resolve_right fun hnot => hnot (by rw [hrem]; simp)
  · exact absurd ho (by simp)

/-- What stands between two quotes has none in it. -/
theorem yields_quoted : Yields (Quoteless quotes) (fun s => 34 ∉ asBytes s) quoted :=
  yields_upTo inherited_quoteless 34

/-- A value in quotes, if there is a quote, or over a table. -/
theorem scanned_ite {o : Option UInt8} (ho : o.isSome → quotes) (tab : LookupTable) :
    Yields (Quoteless quotes) (Scanned quotes tab)
      (if o.isSome then quoted else readWhileAsStrUnchecked tab) := by
  split
  · rename_i hsome
    exact yields_quoted.imp fun s hs => Or.inr ⟨ho hsome, hs⟩
  · exact (yields_readWhile inherited_quoteless tab).imp fun s hs => Or.inl hs

/-- A token is scanned with its table, or stands between quotes. -/
theorem scanned_token : Yields (Quoteless quotes) (Scanned quotes isToken) token := by
  apply Yields.bind yields_takeQuote
  intro o ho
  exact scanned_ite ho isToken

end SipParser

open SipParser

/-- The name of the parameter is scanned with `tab`, its value too or in quotes. -/
def Param.Scanned (quotes : Prop) (tab : LookupTable) (p : Param) : Prop :=
  SipParser.Over tab p.name ∧ ∀ v ∈ p.value, SipParser.Scanned quotes tab v

/-- Where there are no quotes, name and value of a scanned parameter are over the table. -/
theorem Param.Scanned.over {p : Param} {tab : LookupTable} (h : p.Scanned False tab) :
    p.Over tab := ⟨h.1, fun v hv => (h.2 v hv).over⟩

/-- A parameter over the table could have been scanned. -/
theorem Param.Over.scanned {quotes : Prop} {p : Param} {tab : LookupTable} (h : p.Over tab) :
    p.Scanned quotes tab := ⟨h.1, fun v hv => Or.inl (h.2 v hv)⟩

/-- A scanned parameter prints no quote, even if its value was quoted. -/
theorem Param.Scanned.not_mem {quotes : Prop} {p : Param} {tab : LookupTable} (htab : tab 34 = false)
    (h : p.Scanned quotes tab) : 34 ∉ asBytes p.refText := by
  rw [Param.refText, asBytes_append, List.mem_append, not_or]
  refine ⟨h.1.not_mem htab, ?_⟩
  cases hvalue : p.value with
  | none => simp
  | some v =>
    rw [Option.elim_some, asBytes_append, List.mem_append, not_or]
    exact ⟨by decide, (h.2 v hvalue).not_mem htab⟩

namespace SipParser

variable {quotes : Prop} {tab : LookupTable} {s : String}

/-- A parameter has a scanned name, and a value that is scanned or quoted. -/
theorem scanned_paramRefUnchecked (tab : LookupTable) :
    Yields (Quoteless quotes) (Param.Scanned quotes tab) (paramRefUnchecked tab) := by
  apply Yields.bind (keepsQuoteless ends_skipWs)
  intro _ _
  apply Yields.bind (yields_readWhile inherited_quoteless tab)
  intro name hname
  apply Yields.bind (keepsQuoteless (ends_takeIfEq 61))
  intro eq _
  apply Yields.ite (Yields.pure ⟨hname, by simp⟩)
  apply Yields.bind yields_takeQuote
  intro quote hquote
  have hvalue : ∀ v, Scanned quotes tab v → Param.Scanned quotes tab ⟨name, some v⟩ := by
    intro v hv
    refine ⟨hname, ?_⟩
    rintro w ⟨⟩
    exact hv
  split
  · rename_i hsome
    exact yields_quoted.bind fun v hv => Yields.pure (hvalue v (Or.inr ⟨hquote hsome, hv⟩))
  · exact (yields_readWhile inherited_quoteless tab).bind fun v hv =>
      Yields.pure (hvalue v (Or.inl hv))

/-- The same for the parameters of headers. -/
theorem scanned_paramRef : Yields (Quoteless quotes) (Param.Scanned quotes isToken) paramRef :=
  scanned_paramRefUnchecked isToken

/-- Every parameter of a list is one that was scanned. -/
theorem scanned_parseParams : Yields (Quoteless quotes)
    (fun ps : Params => ∀ p ∈ ps.inner, p.Scanned quotes isToken) parseParams :=
  yields_params inherited_quoteless scanned_paramRef

end SipParser

/-! ### Hosts and users -/

/-- An IPv6 address. -/
def Host.IsV6 : Host → Prop
  | .ipAddr (.v6 _) => True
  | _ => False

instance : DecidablePred Host.IsV6
  | .hostName _ => inferInstanceAs (Decidable False)
  | .ipAddr (.v4 _) => inferInstanceAs (Decidable False)
  | .ipAddr (.v6 _) => inferInstanceAs (Decidable True)

/-- A host that is the value of a parameter. -/
def Host.ScannedParam (quotes : Prop) (tab : LookupTable) : Host → Prop
  | .hostName name => SipParser.Scanned quotes tab name ∧ IpAddr.parse name = none
  | .ipAddr _ => True

/-- A host that was scanned without quotes can be printed as a parameter and read back. -/
theorem Host.ScannedParam.wellFormed {h : Host} {tab : LookupTable}
    (hscan : h.ScannedParam False tab) : h.WellFormedParam tab := by
  cases h with
  | hostName name => exact ⟨hscan.1.over, hscan.2⟩
  | ipAddr ip => trivial

/-- The host that a scanned value names is one that was scanned. -/
theorem Host.scannedParam_fromStr {quotes : Prop} {tab : LookupTable} {s : String}
    (h : SipParser.Scanned quotes tab s) : (Host.fromStr s).ScannedParam quotes tab := by
  unfold Host.fromStr
  split
  · trivial
  · exact ⟨h, ‹_›⟩

namespace SipParser

variable {quotes : Prop} {tab : LookupTable} {s : String}

/-- Every address is well-formed but those of IPv6. -/
theorem wellFormed_or_isV6 (ip : IpAddr) : (Host.ipAddr ip).WellFormed ∨ (Host.ipAddr ip).IsV6 := by
  cases ip with
  | v4 ip => exact Or.inl trivial
  | v6 ip => exact Or.inr trivial

/-- A host of the parser is read back, unless it is an IPv6 address, which is printed without
    brackets. -/
theorem scanned_parseHost :
    Yields (Quoteless quotes) (fun h => h.WellFormed ∨ h.IsV6) parseHost := by
  apply Yields.bind (keepsQuoteless ends_peek)
  intro next _
  apply Yields.ite
  · apply Yields.bind (keepsQuoteless ends_advance)
    intro _ _
    apply Yields.bind
    · exact keepsQuoteless (ends_orError (ends_ofScan (bounded_scanWhileAsStr _)) _)
    · intro host _
      apply Yields.bind (keepsQuoteless ends_advance)
      intro _ _
      split
      · exact Yields.pure (wellFormed_or_isV6 _)
      · exact yields_error _
  · apply Yields.bind (yields_readWhile inherited_quoteless isHost)
    intro host hhost
    split
    · exact yields_error _
    · rename_i hne
      apply Yields.pure
      unfold Host.fromStr
      split
      · exact wellFormed_or_isV6 _
      · exact Or.inl ⟨hne, hhost, ‹_›⟩

/-- The same for a host with a port. -/
theorem scanned_parseHostPort :
    Yields (Quoteless quotes) (fun h => h.host.WellFormed ∨ h.host.IsV6) parseHostPort := by
  apply Yields.bind scanned_parseHost
  intro host hhost
  apply Yields.bind (keepsQuoteless (ends_of_line staysIn_parsePort))
  intro port _
  exact Yields.pure hhost

/-- User and password of the parser are over their tables. -/
theorem scanned_parseUserInfo :
    Yields (Quoteless quotes) (fun user => ∀ i ∈ user, i.WellFormed) parseUserInfo := by
  have hread : ∀ tab, Yields (Quoteless quotes) (Over tab) (readWhileAsStrUnchecked tab) :=
    yields_readWhile inherited_quoteless
  have hpass : Yields (Quoteless quotes) (fun pass => ∀ p ∈ pass, Over isPass p) parsePass := by
    apply Yields.bind (keepsQuoteless (ends_takeIfEq 58))
    intro colon _
    refine Yields.ite ?_ (Yields.pure (by simp))
    exact (hread isPass).bind fun pass hpass => Yields.pure (by simpa using hpass)
  apply Yields.bind (keepsQuoteless (ends_of_line (staysIn_existsUserPartInUri (NoNewline.excludes (by decide)))))
  intro hasUser _
  refine Yields.ite ?_ (Yields.pure (by simp))
  apply Yields.bind (hread isUser)
  intro user huser
  apply Yields.bind hpass
  intro pass hpass
  apply Yields.bind (keepsQuoteless (ends_orError (ends_mustRead 64) _))
  intro _ _
  apply Yields.pure
  rintro i ⟨⟩
  exact ⟨huser, hpass⟩

end SipParser

/-! ### URIs -/

/-- A URI of the parser. -/
structure Uri.Scanned (quotes : Prop) (u : Uri) : Prop where
  user : ∀ i ∈ u.user, i.WellFormed
  host : u.hostPort.host.WellFormed ∨ u.hostPort.host.IsV6
  userParam : ∀ v ∈ u.userParam, SipParser.Scanned quotes isParam v
  maddrParam : ∀ h ∈ u.maddrParam, h.ScannedParam quotes isParam
  params : ∀ p ∈ u.params.inner, p.Scanned quotes isParam ∧ p.name ∉ Uri.reserved
  headers : ∀ h ∈ u.headers, h.params.inner ≠ [] ∧ ∀ p ∈ h.params.inner, p.Scanned quotes isHdrUri

/-- Every header of the URI has a value. -/
def Uri.HeadersHaveValues (u : Uri) : Prop :=
  ∀ h ∈ u.headers, ∀ p ∈ h.params.inner, p.value.isSome

instance : DecidablePred Uri.HeadersHaveValues := fun u =>
  inferInstanceAs (Decidable (∀ h ∈ u.headers, ∀ p ∈ h.params.inner, p.value.isSome))

/-- A URI of the parser at another host. -/
theorem Uri.Scanned.wellFormed_of_host {u : Uri} (h : u.Scanned False) {hostPort : HostPort}
    (hhost : hostPort.host.WellFormed) (hvalues : u.HeadersHaveValues) :
    { u with hostPort := hostPort : Uri }.WellFormed where
  user := h.user
  host := hhost
  userParam v hv := (h.userParam v hv).over
  maddrParam host hmaddr := (h.maddrParam host hmaddr).wellFormed
  params p hp := ⟨(h.params p hp).1.over, (h.params p hp).2⟩
  headers hs hheaders := ⟨(h.headers hs hheaders).1, fun p hp =>
    ⟨((h.headers hs hheaders).2 p hp).over, hvalues hs hheaders p hp⟩⟩

/-- **A URI of the parser can be read back** if no value needs quotes, its host is not an IPv6
    address and its headers have values. -/
theorem Uri.Scanned.wellFormed {u : Uri} (h : u.Scanned False) (hhost : ¬ u.hostPort.host.IsV6)
    (hvalues : u.HeadersHaveValues) : u.WellFormed :=
  h.wellFormed_of_host (h.host.resolve_right hhost) hvalues

namespace SipParser

variable {quotes : Prop} {tab : LookupTable} {s : String}

/-- A parameter that is not kept in a field of the URI has none of the names of the fields. -/
theorem scanned_storeUriParam (uri : Uri) (p : Param) (huri : uri.Scanned quotes)
    (hp : p.Scanned quotes isParam) :
    Yields (Quoteless quotes) (fun r : Uri × Option Param => r.1.Scanned quotes ∧
      ∀ q ∈ r.2, q.Scanned quotes isParam ∧ q.name ∉ Uri.reserved) (storeUriParam uri p) := by
  -- one parameter after the other; what no field takes has none of their names
  unfold storeUriParam
  split
  · exact Yields.pure ⟨{ huri with userParam := hp.2 }, by simp⟩
  split
  · exact Yields.pure ⟨{ huri with }, by simp⟩
  split
  · exact (keepsQuoteless (ends_of_line (staysIn_parseValue _ _ _))).bind fun _ _ =>
      Yields.pure ⟨{ huri with }, by simp⟩
  split
  · exact (keepsQuoteless (ends_of_line (staysIn_parseValue _ _ _))).bind fun _ _ =>
      Yields.pure ⟨{ huri with }, by simp⟩
  split
  · exact Yields.pure ⟨{ huri with }, by simp⟩
  split
  · refine Yields.pure ⟨{ huri with maddrParam := ?_ }, by simp⟩
    intro h hh
    obtain ⟨v, hv, rfl⟩ := Option.map_eq_some_iff.mp hh
    exact Host.scannedParam_fromStr (hp.2 v hv)
  · refine Yields.pure ⟨huri, ?_⟩
    rintro q ⟨⟩
    refine ⟨hp, ?_⟩
    simp only [Uri.reserved, List.mem_cons, List.not_mem_nil, or_false, not_or]
    exact ⟨‹_›, ‹_›, ‹_›, ‹_›, ‹_›, ‹_›⟩

/-- There is at least one header in a URI behind the question mark, and each was scanned. -/
theorem scanned_parseUriHeaders : Yields (Quoteless quotes) (fun h : UriHeaders =>
    h.params.inner ≠ [] ∧ ∀ p ∈ h.params.inner, p.Scanned quotes isHdrUri) parseUriHeaders :=
  (yields_collectSep inherited_quoteless (scanned_paramRefUnchecked isHdrUri)).bind fun _ hps =>
    Yields.pure hps

/-- The same where there may be no question mark. -/
theorem scanned_parseUriHeaderPart : Yields (Quoteless quotes) (fun headers => ∀ h ∈ headers,
    h.params.inner ≠ [] ∧ ∀ p ∈ h.params.inner, p.Scanned quotes isHdrUri) parseUriHeaderPart := by
  apply Yields.bind (keepsQuoteless (ends_takeIfEq 63))
  intro question _
  refine Yields.ite ?_ (Yields.pure (by simp))
  apply Yields.bind scanned_parseUriHeaders
  intro h hh
  apply Yields.pure
  rintro h' ⟨⟩
  exact hh

/-- **A URI** has parameters and headers only if they are asked for. -/
theorem scanned_parseUri (parseParams : Bool) : Yields (Quoteless quotes)
    (fun u => u.Scanned quotes ∧ (parseParams = false → u = u.base)) (parseUri parseParams) := by
  apply Yields.bind (keepsQuoteless ends_parseScheme)
  intro scheme _
  apply Yields.bind scanned_parseUserInfo
  intro user huser
  apply Yields.bind scanned_parseHostPort
  intro hostPort hhost
  have hbase : Uri.Scanned quotes { scheme := scheme, user := user, hostPort := hostPort } :=
    { user := huser
      host := hhost
      userParam := by simp
      maddrParam := by simp
      params := by simp
      headers := by simp }
  cases parseParams with
  | false => exact Yields.pure ⟨hbase, fun _ => rfl⟩
  | true =>
    apply Yields.bind (yields_parseParamsWith inherited_quoteless
      (scanned_paramRefUnchecked isParam) scanned_storeUriParam hbase)
    rintro ⟨uri, params⟩ ⟨huri, hparams⟩
    apply Yields.bind scanned_parseUriHeaderPart
    intro headers hheaders
    exact Yields.pure ⟨{ huri with params := hparams, headers := hheaders },
      fun h => absurd h (by decide)⟩

end SipParser

/-! ### Addresses -/

/-- A name-addr of the parser. -/
def NameAddr.Scanned (quotes : Prop) (a : NameAddr) : Prop :=
  (∀ d ∈ a.display, 34 ∉ asBytes d) ∧ a.uri.Scanned quotes

/-- An address of the parser, the parameters of which belong to the header if `params` is false
    and there are no brackets. -/
def SipUri.Scanned (quotes : Prop) (params : Bool) : SipUri → Prop
  | .uri u => u.Scanned quotes ∧ (params = false → u = u.base)
  | .nameAddr a => a.Scanned quotes

namespace SipParser

variable {quotes : Prop} {tab : LookupTable} {s : String}

/-- A display name of the parser has no quote in it. -/
theorem scanned_parseDisplayName :
    Yields (Quoteless quotes) (fun display => ∀ d ∈ display, 34 ∉ asBytes d) parseDisplayName := by
  apply Yields.bind (keepsQuoteless ends_peek)
  intro next _
  apply Yields.ite
  · apply Yields.bind (keepsQuoteless ends_advance)
    intro _ _
    exact yields_quoted.bind fun d hd => Yields.pure (by simpa using hd)
  · apply Yields.bind (keepsQuoteless ends_peek)
    intro next _
    apply Yields.ite (Yields.pure (by simp))
    apply Yields.bind (yields_readWhile inherited_quoteless isToken)
    intro name hname
    apply Yields.bind (keepsQuoteless ends_skipWs)
    intro _ _
    exact Yields.pure (by simpa using hname.not_mem (by decide))

/-- The URI between the brackets is one of the parser, and so is the display name. -/
theorem scanned_parseNameAddr :
    Yields (Quoteless quotes) (NameAddr.Scanned quotes) parseNameAddr := by
  apply Yields.bind (keepsQuoteless ends_skipWs)
  intro _ _
  apply Yields.bind scanned_parseDisplayName
  intro display hdisplay
  apply Yields.bind (keepsQuoteless ends_skipWs)
  intro _ _
  apply Yields.bind (keepsQuoteless (ends_mustRead 60))
  intro _ _
  apply Yields.bind (scanned_parseUri true)
  intro uri huri
  apply Yields.bind (keepsQuoteless (ends_mustRead 62))
  intro _ _
  exact Yields.pure ⟨hdisplay, huri.1⟩

/-- Which parameters an address keeps depends on its brackets and on `params`. -/
theorem scanned_parseSipUri (params : Bool) :
    Yields (Quoteless quotes) (SipUri.Scanned quotes params) (parseSipUri params) := by
  have hnameAddr : Yields (Quoteless quotes) (SipUri.Scanned quotes params)
      (do return SipUri.nameAddr (← parseNameAddr)) :=
    scanned_parseNameAddr.bind fun _ ha => Yields.pure ha
  have huri : Yields (Quoteless quotes) (SipUri.Scanned quotes params)
      (do return SipUri.uri (← parseUri params)) :=
    (scanned_parseUri params).bind fun _ hu => Yields.pure hu
  apply Yields.bind (keepsQuoteless ends_skipWs)
  intro _ _
  apply Yields.bind (keepsQuoteless ends_peek)
  intro next _
  apply Yields.ite hnameAddr
  apply Yields.get_bind
  intro c
  exact huri.ite hnameAddr

end SipParser

end Rssip
