import Rssip.Parser.Addresses
import Rssip.Parser.Termination

namespace Rssip

open Lib SipParser

/-!
# Headers that are forwarded

What is left of a parsed header when it is printed and parsed again, for the headers that a proxy
passes on without looking at them.

* `Without` — a delimiter that does not come any more, so that nothing is read up to it;
* `readBack_list_iff` — a list is read back if and only if its elements can be printed as they
  are;
* `forwarded_readBack_iff` — for each of the headers, when its line is read back.
-/

/-- No value of the parameters needs quotes. -/
def Params.Tokens (ps : Params) : Prop := ∀ p ∈ ps.inner, ∀ v ∈ p.value, Over isToken v

instance : DecidablePred Params.Tokens := fun ps =>
  inferInstanceAs (Decidable (∀ p ∈ ps.inner, ∀ v ∈ p.value, Over isToken v))

/-- Parameters whose values need no quotes lie over the token table, their names included. -/
theorem Params.Tokens.over {ps : Params} {quotes : Prop} (h : ps.Tokens)
    (hscanned : ∀ p ∈ ps.inner, p.Scanned quotes isToken) : ∀ p ∈ ps.inner, p.Over isToken :=
  fun p hp => ⟨(hscanned p hp).1, h p hp⟩

/-! ### Values as they are printed -/

/-- The value of a `Retry-After`. -/
def RetryAfter.value (h : RetryAfter) : String :=
  decimal h.seconds.toNat ++ h.param.toText ++ h.comment.getD ""

/-- The value of a `Content-Disposition`. -/
def ContentDisposition.value (h : ContentDisposition) : String := h.type ++ ";" ++ h.params.toText

/-- The semicolon that is printed belongs to a blank parameter. -/
theorem ContentDisposition.asBytes_value (h : ContentDisposition) :
    asBytes h.value = asBytes h.type ++ paramsBytes (Param.blank :: h.params.inner) := by
  rw [value, asBytes_append, asBytes_append, Params.asBytes_toText, List.append_assoc]
  rfl

namespace SipParser

variable {rest next : Bytes} {quotes : Prop} {b : UInt8}

/-! ### Delimiters that do not come -/

/-- The delimiter `b` does not come any more. -/
def Without (b : UInt8) (c : Scanner) : Prop := b ∉ c.remaining

/-- A delimiter that does not come any more does not come in what is left either. -/
theorem inherited_without : Inherited (Without b) :=
  fun _ _ h hsuffix hmem => h (hsuffix.subset hmem)

/-- Nothing is read up to a delimiter that does not come. -/
theorem yields_upTo_never (b : UInt8) : Yields (Without b) (fun _ => False) (do
    let text ← takeUntil b
    let _ ← advance
    utf8 text) := by
  intro c s c' hc h
  obtain ⟨text, c₁, htake, h⟩ := bind_eq_ok_iff.mp h
  obtain ⟨d, c₂, hadvance, -⟩ := bind_eq_ok_iff.mp h
  obtain ⟨-, rfl⟩ := scanWhile_eq_ok_iff.mp htake
  have hnext := gives_nextByte.mp ⟨c₂, ofScan_eq_ok_iff.mp hadvance, rfl⟩
  -- everything has been taken, so that no delimiter can be skipped
  have hnil : c.remaining.dropWhile (· != b) = [] := by
    rw [List.dropWhile_eq_nil_iff]
    intro d hd
    have hne : d ≠ b := ne_of_mem_of_not_mem hd hc
    simpa using hne
  have hrem := remaining_scanWhile (· != b) c
  rw [hnil] at hrem
  exact absurd (hnext.symm.trans hrem) (by simp)

/-- A delimiter that does not come cannot be read: to require it never succeeds. -/
theorem yields_mustRead_never (b : UInt8) : Yields (Without b) (fun _ => False) (mustRead b) := by
  intro c _ c' hc h
  have hnext := gives_mustRead.mp ⟨c', ofScan_eq_ok_iff.mp h, rfl⟩
  exact absurd (by simp [hnext]) hc

/-- A byte of neither the separator nor the values is not in the printed list. -/
theorem not_mem_formatSep {sep : String} {ss : List String} (hsep : b ∉ asBytes sep)
    (hss : ∀ s ∈ ss, b ∉ asBytes s) : b ∉ asBytes (formatSep sep ss) := by
  induction ss with
  | nil => exact List.not_mem_nil
  | cons s ss ih =>
    have hs := hss s (by simp)
    cases ss with
    | nil => exact hs
    | cons t ss =>
      have hcons : formatSep sep (s :: t :: ss) = s ++ sep ++ formatSep sep (t :: ss) := rfl
      rw [hcons, asBytes_append, asBytes_append, List.mem_append, List.mem_append, not_or, not_or]
      exact ⟨⟨hs, hsep⟩, ih fun s hs => hss s (by simp [hs])⟩

/-! ### Lists -/

/-- **A list is read back** if and only if its elements are such that are read without quotes. -/
theorem readBack_list_iff {α : Type} {toHeader : List α → Header} {elem : Parse α}
    {toText : α → String} {name : String} {xs : List α} {P : α → Prop}
    (h : Printed toHeader (collectElemsSeparatedByComma elem) name (formatSep ", " (xs.map toText)) xs)
    (hinj : Function.Injective toHeader) (hne : xs ≠ []) (hscan : Yields (Quoteless False) P elem)
    (hquote : ∀ x ∈ xs, 34 ∉ asBytes (toText x))
    (hstart : ∀ x, P x → ∀ next, Stops isSpace next → Stops isSpace (asBytes (toText x) ++ next))
    (helem : ∀ x, P x → ∀ rest next, ElemEnd 44 (13 :: rest) next →
      Reads elem (asBytes (toText x)) next x) :
    (toHeader xs).ReadBack ↔ ∀ x ∈ xs, P x := by
  have hquotes : 34 ∉ asBytes (formatSep ", " (xs.map toText)) := by
    apply not_mem_formatSep (by decide)
    intro s hs
    obtain ⟨x, hx, rfl⟩ := List.mem_map.mp hs
    exact hquote x hx
  have hiff := h.readBack_iff_scanned hinj (yields_collectElems inherited_quoteless hscan) hquotes ?_
  · rw [hiff]
    exact ⟨And.right, fun hxs => ⟨hne, hxs⟩⟩
  · rintro ⟨-, hxs⟩ rest
    -- the list starts as its first element does, and each element ends at a comma or at the line end
    constructor
    · apply stops_isSpace_formatSep (by simpa using hne)
      intro s hs
      obtain ⟨x, hx, rfl⟩ := List.mem_map.mp hs
      exact hstart x (hxs x hx)
    · apply reads_collectElems hne (stops_cons.mpr (by decide))
      · intro x hx next hnext
        exact hstart x (hxs x hx) next (hnext.stops (by decide) (stops_cons.mpr (by decide)))
      · exact fun x hx next hnext => helem x (hxs x hx) rest next hnext

/-! ### Tokens and media types -/

/-- A word over a table without blanks has none in front of it, and an empty word leaves it to what
    follows. -/
theorem stops_isSpace_elem {tab : LookupTable} {s : String} (hs : Over tab s)
    (htab : ∀ b, tab b → isSpace b = false) (hnext : Stops isSpace next) :
    Stops isSpace (asBytes s ++ next) :=
  hs.stops htab fun _ => hnext

/-- A list of tokens. -/
theorem readBack_tokens_iff {toHeader : List String → Header} {name : String} {tags : List String}
    (h : Printed toHeader parseTokens name (formatSep ", " tags) tags)
    (hinj : Function.Injective toHeader) (hne : tags ≠ [])
    (hscanned : ∀ t ∈ tags, Scanned True isToken t) :
    (toHeader tags).ReadBack ↔ ∀ t ∈ tags, Over isToken t := by
  have hmap : formatSep ", " tags = formatSep ", " (tags.map fun t => t) := by rw [List.map_id']
  rw [hmap] at h
  apply readBack_list_iff h hinj hne
  · exact scanned_token.imp fun t ht => ht.over
  · exact fun t ht => (hscanned t ht).not_mem (by decide)
  · exact fun t ht next hnext => stops_isSpace_elem ht isToken_table.isSpace_eq_false hnext
  · intro t ht rest next hnext
    have hquote := ht.stops_eq (b := 34) (by decide)
      (hnext.stops (by decide) (stops_cons.mpr (by decide)))
    exact reads_token ht hquote (hnext.stops (by decide) (stops_cons.mpr (by decide)))

/-- The halves of a media type and its parameters are scanned as tokens, or stand between quotes. -/
theorem scanned_parseMediaType : Yields (Quoteless quotes) (fun m : MediaType =>
    Scanned quotes isToken m.mimetype.mtype ∧ Scanned quotes isToken m.mimetype.subtype ∧
      ∀ p ∈ m.params.inner, p.Scanned quotes isToken) MediaType.parse := by
  apply Yields.bind scanned_token
  intro mtype hmtype
  apply Yields.bind (keepsQuoteless ends_advance)
  intro _ _
  apply Yields.bind scanned_token
  intro subtype hsubtype
  exact scanned_parseParams.bind fun _ hps => Yields.pure ⟨hmtype, hsubtype, hps⟩

/-- An Accept is read back exactly when its media types are well-formed: no word of one, parameters
    included, needs quotes. -/
theorem readBack_accept_iff {mtypes : List MediaType} (hne : mtypes ≠ [])
    (hscanned : ∀ m ∈ mtypes, Scanned True isToken m.mimetype.mtype ∧
      Scanned True isToken m.mimetype.subtype ∧ ∀ p ∈ m.params.inner, p.Scanned True isToken) :
    (Header.accept ⟨mtypes⟩).ReadBack ↔ ∀ m ∈ mtypes, m.WellFormed := by
  have hprinted : Printed (fun mtypes => .accept ⟨mtypes⟩)
      (collectElemsSeparatedByComma MediaType.parse) Accept.name
      (formatSep ", " (mtypes.map MediaType.toText)) mtypes :=
    { text := rfl
      token := by decide
      parser := Or.inl (one_field .accept Accept.mk (collectElemsSeparatedByComma MediaType.parse))
      isContentType := rfl }
  apply readBack_list_iff hprinted (fun _ _ h => Accept.mk.inj (Header.accept.inj h)) hne
  · exact scanned_parseMediaType.imp fun m hm =>
      ⟨hm.1.over, hm.2.1.over, fun p hp => (hm.2.2 p hp).over⟩
  · intro m hm
    obtain ⟨hmtype, hsubtype, hps⟩ := hscanned m hm
    simp only [MediaType.toText, asBytes_append, List.mem_append, not_or]
    exact ⟨⟨⟨hmtype.not_mem (by decide), by decide⟩, hsubtype.not_mem (by decide)⟩,
      quoteless_params hps⟩
  · intro m hm next hnext
    rw [MediaType.toText, asBytes_append, asBytes_append, asBytes_append,
      show asBytes "/" = [47] by decide, List.append_assoc, List.append_assoc, List.append_assoc]
    exact stops_isSpace_elem hm.1 isToken_table.isSpace_eq_false (stops_cons.mpr (by decide))
  · exact fun m hm rest next hnext => reads_parseMediaType hm hnext

/-! ### Codings and languages -/

/-- A parameter that is not the quality keeps what its scan says, and its name is another one. -/
theorem scanned_storeQ (q : Option Q) (p : Param) (hp : p.Scanned quotes isToken) :
    Yields (Quoteless quotes) (fun r : Option Q × Option Param =>
      True ∧ ∀ p ∈ r.2, p.Scanned quotes isToken ∧ p.name ∉ [Params.q]) (storeQ q p) := by
  unfold storeQ
  split
  · apply Yields.bind (keepsQuoteless (ends_of_line (staysIn_parseQ p.value)))
    exact fun _ _ => Yields.pure ⟨trivial, by simp⟩
  · refine Yields.pure ⟨trivial, ?_⟩
    rintro r ⟨⟩
    exact ⟨hp, by simpa⟩

/-- The quality value and the parameters of an element. -/
theorem scanned_weights : Yields (Quoteless quotes) (fun r : Option Q × Params =>
    ∀ p ∈ r.2.inner, p.Scanned quotes isToken ∧ p.name ∉ [Params.q])
    (parseParamsWith paramRef storeQ none) :=
  (yields_parseParamsWith (P := fun _ => True) inherited_quoteless scanned_paramRef
    (fun q p _ hp => scanned_storeQ q p hp) trivial).imp fun _ => And.right

/-- The quality and the other parameters of a list element are read back in front of the next
    element. -/
theorem reads_weights {q : Option Q} {ps : List Param} (hps : ∀ p ∈ ps, p.Generic isToken [Params.q])
    (hnext : ElemEnd 44 (13 :: rest) next) :
    Reads (parseParamsWith paramRef storeQ none) (paramsBytes (qParams q ++ ps)) next (q, ⟨ps⟩) := by
  have hstops : ∀ {predicate : UInt8 → Bool}, predicate 44 = false → predicate 13 = false →
      Stops predicate next := fun h44 h13 => hnext.stops h44 (stops_cons.mpr h13)
  have hq : Stores storeQ none (qParams q) q [] := by
    apply Stores.field q _ (fun o => o)
    intro q _
    show (do return (← parseQ (some (qText q)), none)) = _
    rw [parseQ, Q.fromStr_qText]
    rfl
  have hgeneric : Stores storeQ q ps q ps := by
    apply Stores.generic
    intro p hp rest
    rw [storeQ, if_neg (by simpa using (hps p hp).2)]
    exact Reads.pure _ _
  exact reads_parseParamsWith_nil isToken_table (hq.append hgeneric)
    (hstops (by decide) (by decide)) (hstops (by decide) (by decide))
    (hstops (by decide) (by decide)) (over_contactParams q fun p hp => (hps p hp).1)

/-- What is printed of an element with a quality value. -/
theorem asBytes_weighted (start : String) (q : Option Q) (ps : Params) :
    asBytes (start ++ (q.elim "" Q.toText) ++ ps.toText) =
      asBytes start ++ paramsBytes (qParams q ++ ps.inner) := by
  rw [asBytes_append, asBytes_append, asBytes_qParams, Params.asBytes_toText, paramsBytes_append,
    List.append_assoc]
  rfl

/-- An element is what is read of its start, its quality value and its parameters. -/
theorem reads_weighted {α β : Type} {parse : Parse β} {f : β → Option Q × Params → α} {start : String}
    {b : β} {q : Option Q} {ps : Params} (hps : ∀ p ∈ ps.inner, p.Generic isToken [Params.q])
    (hnext : ElemEnd 44 (13 :: rest) next)
    (hstart : ∀ next, (∀ {predicate : UInt8 → Bool}, predicate 59 = false → predicate 44 = false →
      predicate 13 = false → Stops predicate next) → Reads parse (asBytes start) next b) :
    Reads (parse >>= fun b => parseParamsWith paramRef storeQ none >>= fun r => Pure.pure (f b r))
      (asBytes (start ++ (q.elim "" Q.toText) ++ ps.toText)) next (f b (q, ps)) := by
  rw [asBytes_weighted]
  apply Reads.bind
  · apply hstart
    intro predicate h59 h44 h13
    exact stops_params h59 (hnext.stops h44 (stops_cons.mpr h13))
  · apply Reads.bind_nil (reads_weights hps hnext)
    exact Reads.pure _ _

/-- A weighted list element starts with no blank. -/
theorem stops_isSpace_weighted {tab : LookupTable} {start : String} {q : Option Q} {ps : Params}
    (hstart : Over tab start) (htab : ∀ b, tab b → isSpace b = false) (hnext : Stops isSpace next) :
    Stops isSpace (asBytes (start ++ (q.elim "" Q.toText) ++ ps.toText) ++ next) := by
  rw [asBytes_weighted, List.append_assoc]
  exact stops_isSpace_elem hstart htab (stops_params (by decide) hnext)

/-- A weighted list element prints no quote, unless its first word has one. -/
theorem quoteless_weighted {start : String} {q : Option Q} {ps : Params} (hstart : 34 ∉ asBytes start)
    (hps : ∀ p ∈ ps.inner, p.Scanned quotes isToken) :
    34 ∉ asBytes (start ++ (q.elim "" Q.toText) ++ ps.toText) := by
  have hall : ∀ p ∈ qParams q ++ ps.inner, p.Scanned quotes isToken :=
    List.forall_mem_append.mpr
      ⟨scanned_field (by decide) fun q _ => Or.inl (over_qText q), hps⟩
  rw [asBytes_weighted, List.mem_append, not_or]
  exact ⟨hstart, quoteless_paramsBytes (by decide) hall⟩

/-- A coding is scanned as a token, its parameters without the quality too. -/
theorem scanned_parseCoding : Yields (Quoteless quotes) (fun c : Coding =>
    Scanned quotes isToken c.coding ∧
      ∀ p ∈ c.params.inner, p.Scanned quotes isToken ∧ p.name ∉ [Params.q]) Coding.parse := by
  apply Yields.bind scanned_token
  intro coding hcoding
  apply Yields.bind scanned_weights
  exact fun r hr => Yields.pure ⟨hcoding, hr⟩

/-- An Accept-Encoding is read back exactly when its codings and their parameters lie over the token
    table. -/
theorem readBack_acceptEncoding_iff {codings : List Coding} (hne : codings ≠ [])
    (hscanned : ∀ c ∈ codings, Scanned True isToken c.coding ∧
      ∀ p ∈ c.params.inner, p.Scanned True isToken ∧ p.name ∉ [Params.q]) :
    (Header.acceptEncoding ⟨codings⟩).ReadBack ↔ ∀ c ∈ codings, Over isToken c.coding ∧
      ∀ p ∈ c.params.inner, p.Generic isToken [Params.q] := by
  have hprinted : Printed (fun codings => .acceptEncoding ⟨codings⟩)
      (collectElemsSeparatedByComma Coding.parse) AcceptEncoding.name
      (formatSep ", " (codings.map Coding.toText)) codings :=
    { text := rfl
      token := by decide
      parser := Or.inl (one_field .acceptEncoding AcceptEncoding.mk
        (collectElemsSeparatedByComma Coding.parse))
      isContentType := rfl }
  apply readBack_list_iff hprinted
    (fun _ _ h => AcceptEncoding.mk.inj (Header.acceptEncoding.inj h)) hne
  · exact scanned_parseCoding.imp fun c hc =>
      ⟨hc.1.over, fun p hp => ⟨(hc.2 p hp).1.over, (hc.2 p hp).2⟩⟩
  · intro c hc
    obtain ⟨hcoding, hps⟩ := hscanned c hc
    exact quoteless_weighted (hcoding.not_mem (by decide)) fun p hp => (hps p hp).1
  · exact fun c hc next hnext =>
      stops_isSpace_weighted hc.1 isToken_table.isSpace_eq_false hnext
  · intro c hc rest next hnext
    refine reads_weighted (f := fun coding r => Coding.mk coding r.1 r.2) hc.2 hnext ?_
    intro next hstops
    have hquote := hc.1.stops_eq (b := 34) (by decide)
      (hstops (by decide) (by decide) (by decide))
    exact reads_token hc.1 hquote (hstops (by decide) (by decide) (by decide))

/-- A language is scanned with the table of language tags, its parameters as tokens. -/
theorem scanned_parseLanguage : Yields (Quoteless quotes) (fun l : Language =>
    Over isLang l.language.tag ∧
      ∀ p ∈ l.params.inner, p.Scanned quotes isToken ∧ p.name ∉ [Params.q]) Language.parse := by
  have htag : Yields (Quoteless quotes) (fun t : LanguageTag => Over isLang t.tag) LanguageTag.parse :=
    (yields_readWhile inherited_quoteless isLang).bind fun _ ht => Yields.pure ht
  apply Yields.bind htag
  intro language hlanguage
  apply Yields.bind scanned_weights
  exact fun r hr => Yields.pure ⟨hlanguage, hr⟩

/-- An Accept-Language is read back exactly when its tags lie over the table of tags and their
    parameters over that of tokens. -/
theorem readBack_acceptLanguage_iff {languages : List Language} (hne : languages ≠ [])
    (hscanned : ∀ l ∈ languages, Over isLang l.language.tag ∧
      ∀ p ∈ l.params.inner, p.Scanned True isToken ∧ p.name ∉ [Params.q]) :
    (Header.acceptLanguage ⟨languages⟩).ReadBack ↔ ∀ l ∈ languages, Over isLang l.language.tag ∧
      ∀ p ∈ l.params.inner, p.Generic isToken [Params.q] := by
  have hprinted : Printed (fun languages => .acceptLanguage ⟨languages⟩)
      (collectElemsSeparatedByComma Language.parse) AcceptLanguage.name
      (formatSep ", " (languages.map Language.toText)) languages :=
    { text := rfl
      token := by decide
      parser := Or.inl (one_field .acceptLanguage AcceptLanguage.mk
        (collectElemsSeparatedByComma Language.parse))
      isContentType := rfl }
  apply readBack_list_iff hprinted
    (fun _ _ h => AcceptLanguage.mk.inj (Header.acceptLanguage.inj h)) hne
  · exact scanned_parseLanguage.imp fun l hl =>
      ⟨hl.1, fun p hp => ⟨(hl.2 p hp).1.over, (hl.2 p hp).2⟩⟩
  · intro l hl
    obtain ⟨htag, hps⟩ := hscanned l hl
    exact quoteless_weighted (htag.not_mem (by decide)) fun p hp => (hps p hp).1
  · intro l hl next hnext
    have hspace : ∀ b, isLang b → isSpace b = false :=
      fun b hb => isSpace_eq_false (by decide) (by decide) hb
    exact stops_isSpace_weighted hl.1 hspace hnext
  · intro l hl rest next hnext
    refine reads_weighted (f := fun language r => Language.mk language r.1 r.2) hl.2 hnext ?_
    intro next hstops
    apply Reads.bind_nil (reads_readWhile hl.1 (hstops (by decide) (by decide) (by decide)))
    exact Reads.pure _ _

/-! ### URLs in brackets -/

/-- A URL is read up to its closing bracket, so it has none in it. -/
theorem yields_parseUrl {S : Scanner → Prop} (hS : Inherited S) :
    Yields S (fun url => 62 ∉ asBytes url) parseUrl := by
  apply Yields.bind (hS.keeps (ends_mustRead 60))
  intro _ _
  exact yields_upTo hS 62

/-- A URL without a closing bracket is read back from its brackets. -/
theorem reads_parseUrl {url : String} (hurl : 62 ∉ asBytes url) :
    Reads parseUrl ([60] ++ (asBytes url ++ [62])) rest url := by
  have hall : ∀ b ∈ asBytes url, (b != 62) = true := by
    intro b hb
    simpa using ne_of_mem_of_not_mem hb hurl
  apply Reads.bind reads_mustRead
  have huntil : Reads (takeUntil 62) (asBytes url) ([62] ++ rest) (asBytes url) :=
    reads_scanWhile hall (stops_cons.mpr (by decide))
  apply Reads.bind huntil
  apply Reads.bind_nil reads_advance
  exact reads_utf8

/-- An Alert-Info is a URL between brackets with scanned parameters. -/
theorem scanned_parseAlertInfo : Yields (Quoteless quotes) (fun h : AlertInfo =>
    62 ∉ asBytes h.url ∧ ∀ p ∈ h.params.inner, p.Scanned quotes isToken) AlertInfo.parse := by
  apply Yields.bind (keepsQuoteless ends_skipWs)
  intro _ _
  apply Yields.bind (yields_parseUrl inherited_quoteless)
  intro url hurl
  exact scanned_parseParams.bind fun _ hps => Yields.pure ⟨hurl, hps⟩

/-- **An `Alert-Info` is read back.** -/
theorem readBack_alertInfo {h : AlertInfo} (hurl : 62 ∉ asBytes h.url)
    (hps : ∀ p ∈ h.params.inner, p.Over isToken) : (Header.alertInfo h).ReadBack := by
  let value := "<" ++ h.url ++ ">" ++ h.params.toText
  have hvalue : asBytes value = ([60] ++ (asBytes h.url ++ [62])) ++ asBytes h.params.toText := by
    simp only [value, asBytes_append, show asBytes "<" = [60] by decide,
      show asBytes ">" = [62] by decide, List.append_assoc]
  have hprinted : PrintedAs .alertInfo AlertInfo.parse AlertInfo.name value h :=
    { text := rfl
      token := by decide
      parser := Or.inl rfl
      isContentType := rfl
      start := fun rest => by
        rw [hvalue]
        exact stops_cons.mpr (by decide) }
  apply hprinted.readBack
  intro rest
  rw [hvalue]
  apply Reads.nil_bind (reads_skipWs_nil (stops_cons.mpr (by decide)))
  apply Reads.bind (reads_parseUrl hurl)
  apply Reads.bind_nil (reads_parseParams hps)
  exact Reads.pure _ _

/-! ### Addresses -/

/-- How a Reply-To is printed: the address and its parameters behind the name. -/
theorem printedAs_replyTo (a : SipUri) (ps : Params) :
    PrintedAs .replyTo ReplyTo.parse ReplyTo.name (a.toText ++ ps.toText) ⟨a, ps⟩ where
  text := rfl
  token := by decide
  parser := Or.inl rfl
  isContentType := rfl
  start rest := by
    rw [asBytes_append, List.append_assoc]
    exact stops_isSpace_sipUri a _

/-- A Reply-To with a well-formed address and token parameters is read back. -/
theorem readBack_replyTo {a : SipUri} {ps : Params} (ha : a.WellFormed)
    (hps : ∀ p ∈ ps.inner, p.Over isToken) : (Header.replyTo ⟨a, ps⟩).ReadBack := by
  apply (printedAs_replyTo a ps).readBack
  intro rest
  rw [asBytes_append]
  apply Reads.bind
  · apply reads_parseSipUri ha
    · rw [Params.asBytes_toText]
      exact stops_params (by decide) (stops_cons.mpr (by decide))
    · rw [Params.asBytes_toText]
      exact noUserPart_params hps
  · apply Reads.bind_nil (reads_parseParams hps)
    exact Reads.pure _ _

/-- **A `Reply-To` is read back** if and only if its host is not an IPv6 address and the address is
    plain. -/
theorem readBack_replyTo_iff {a : SipUri} {ps : Params} (ha : a.Scanned True false)
    (hps : ∀ p ∈ ps.inner, p.Over isToken) :
    (Header.replyTo ⟨a, ps⟩).ReadBack ↔ ¬ a.hostPort.host.IsV6 ∧ a.Plain := by
  have hinj : Function.Injective fun b : SipUri => Header.replyTo ⟨b, ps⟩ :=
    fun _ _ h => (ReplyTo.mk.inj (Header.replyTo.inj h)).1
  constructor
  · intro hread
    obtain ⟨c, c', hc, hrun⟩ :=
      (printedAs_replyTo a ps).parse_of_readBack (fun _ _ => Header.replyTo.inj) hread
    rw [asBytes_append, List.append_assoc] at hc
    -- the address is what its own parser makes of its text
    obtain ⟨b, c₁, huri, hrun⟩ := bind_eq_ok_iff.mp hrun
    obtain ⟨qs, c₂, -, hrun⟩ := bind_eq_ok_iff.mp hrun
    injection hrun with hb _
    rw [(ReplyTo.mk.inj hb).1] at huri
    have hquote : 34 ∉ asBytes ps.toText ++ [13, 10] := by
      have hscan : ∀ p ∈ ps.inner, p.Scanned False isToken := fun p hp => (hps p hp).scanned
      rw [List.mem_append, not_or]
      exact ⟨quoteless_params hscan, by decide⟩
    have hscanned : a.Scanned False false :=
      (scanned_parseSipUri_printed ha (Or.inr hquote) hc huri).1
    have hnouser : NoUserPart (asBytes ps.toText ++ [13, 10]) := by
      rw [Params.asBytes_toText]
      exact noUserPart_params hps
    have hhost := not_isV6_of_parseSipUri hscanned hnouser hc huri
    refine ⟨hhost, SipUri.plain_of_readBack hinj ?_ hscanned hread
      (readBack_replyTo (SipUri.wellFormed_filled hscanned hhost) hps)⟩
    intro b htext
    rw [(printedAs_replyTo b ps).text, (printedAs_replyTo a ps).text, htext]
  · rintro ⟨hhost, hplain⟩
    exact readBack_replyTo (hplain.wellFormed ha hhost) hps

/-- A Reply-To is an address with the parameters that belong to the header. -/
theorem scanned_parseReplyTo : Yields (Quoteless quotes) (fun h : ReplyTo =>
    h.uri.Scanned quotes false ∧ ∀ p ∈ h.param.inner, p.Scanned quotes isToken) ReplyTo.parse := by
  apply Yields.bind (scanned_parseSipUri false)
  intro uri huri
  exact scanned_parseParams.bind fun _ hps => Yields.pure ⟨huri, hps⟩

/-! ### Comments and warnings -/

/-- A comment is read up to its closing parenthesis, so it has none in it. -/
theorem yields_parseComment {S : Scanner → Prop} (hS : Inherited S) :
    Yields S (fun o => ∀ comment ∈ o, 41 ∉ asBytes comment) parseComment := by
  apply Yields.bind (hS.keeps (ends_takeIfEq 40))
  intro o _
  refine Yields.ite ?_ (Yields.pure (by simp))
  apply Yields.bind (yields_consumeWhile_all hS (· != 41))
  intro text htext
  apply Yields.bind (hS.keeps ends_advance)
  intro _ _
  apply Yields.bind (P := fun s => asBytes s = text) (fun c s c' hc h => ?_)
  · rintro s hs
    apply Yields.pure
    rintro comment ⟨⟩ hmem
    rw [hs] at hmem
    exact absurd (htext 41 hmem) (by simp)
  · obtain ⟨hs, rfl⟩ := utf8_eq_ok_iff.mp h
    exact ⟨hs, hc⟩

/-- A Retry-After has a comment without closing parenthesis, if any, and scanned parameters. -/
theorem scanned_parseRetryAfter : Yields (Quoteless quotes) (fun h : RetryAfter =>
    (∀ comment ∈ h.comment, 41 ∉ asBytes comment) ∧
      ∀ p ∈ h.param.inner, p.Scanned quotes isToken) RetryAfter.parse := by
  apply Yields.bind (keepsQuoteless (ends_of_line staysIn_parseU32))
  intro _ _
  apply Yields.bind (keepsQuoteless ends_skipWs)
  intro _ _
  apply Yields.bind (yields_parseComment inherited_quoteless)
  intro comment hcomment
  exact scanned_parseParams.bind fun _ hps => Yields.pure ⟨hcomment, hps⟩

/-- No comment is read where no parenthesis closes it. -/
theorem yields_parseRetryAfter_none :
    Yields (Without 41) (fun h : RetryAfter => h.comment = none) RetryAfter.parse := by
  have hkeeps : ∀ {α : Type} {r : Parse α}, Ends r → Yields (Without 41) (fun _ => True) r :=
    fun h => inherited_without.keeps h
  -- an opening parenthesis without a closing one is an error
  have hnone : Yields (Without 41) (fun o => o = none) parseComment := by
    apply Yields.bind (hkeeps (ends_takeIfEq 40))
    intro o _
    refine Yields.ite ?_ (Yields.pure rfl)
    intro c o c' hc h
    obtain ⟨text, c₁, htake, h⟩ := bind_eq_ok_iff.mp h
    obtain ⟨d, c₂, hadvance, h⟩ := bind_eq_ok_iff.mp h
    obtain ⟨s, c₃, hutf8, -⟩ := bind_eq_ok_iff.mp h
    have hrun : (do
        let text ← takeUntil 41
        let _ ← advance
        utf8 text : Parse String) c = .ok s c₃ :=
      bind_eq_ok_iff.mpr ⟨text, c₁, htake, bind_eq_ok_iff.mpr ⟨d, c₂, hadvance, hutf8⟩⟩
    exact (yields_upTo_never 41 c s c₃ hc hrun).1.elim
  apply Yields.bind (hkeeps (ends_of_line staysIn_parseU32))
  intro _ _
  apply Yields.bind (hkeeps ends_skipWs)
  intro _ _
  apply Yields.bind hnone
  intro comment hcomment
  exact (hkeeps (ends_of_line staysIn_parseParams)).bind fun _ _ => Yields.pure hcomment

/-- How a Retry-After is printed: the number, the comment and the parameters behind the name. -/
theorem printedAs_retryAfter (h : RetryAfter) :
    PrintedAs .retryAfter RetryAfter.parse RetryAfter.name h.value h where
  text := rfl
  token := by decide
  parser := Or.inl rfl
  isContentType := rfl
  start rest := by
    rw [RetryAfter.value, asBytes_append, asBytes_append, List.append_assoc, List.append_assoc]
    exact stops_isSpace_decimal _ _

/-- A Retry-After without comment is read back. -/
theorem readBack_retryAfter {seconds : UInt32} {param : Params}
    (hps : ∀ p ∈ param.inner, p.Over isToken) : (Header.retryAfter ⟨seconds, param, none⟩).ReadBack := by
  apply (printedAs_retryAfter ⟨seconds, param, none⟩).readBack
  intro rest
  have hstops : ∀ {predicate : UInt8 → Bool}, predicate 59 = false → predicate 13 = false →
      Stops predicate (asBytes param.toText ++ 13 :: rest) := by
    intro predicate h59 h13
    rw [Params.asBytes_toText]
    exact stops_params h59 (stops_cons.mpr h13)
  simp only [RetryAfter.value, Option.getD_none, asBytes_append, asBytes_empty, List.append_nil]
  apply Reads.bind (reads_parseU32 (hstops (by decide) (by decide)))
  apply Reads.nil_bind (reads_skipWs_nil (hstops (by decide) (by decide)))
  apply Reads.nil_bind (reads_parseComment_none (hstops (by decide) (by decide)))
  apply Reads.bind_nil (reads_parseParams hps)
  exact Reads.pure _ _

/-- **A `Retry-After` is read back** if and only if it has no comment: the parentheses are not
    printed. -/
theorem readBack_retryAfter_iff {h : RetryAfter} (hcomment : ∀ comment ∈ h.comment, 41 ∉ asBytes comment)
    (hps : ∀ p ∈ h.param.inner, p.Over isToken) : (Header.retryAfter h).ReadBack ↔ h.comment = none := by
  obtain ⟨seconds, param, comment⟩ := h
  have hprinted := printedAs_retryAfter ⟨seconds, param, comment⟩
  constructor
  · -- no parenthesis is printed, so that none is read
    refine hprinted.of_readBack (fun _ _ => Header.retryAfter.inj) inherited_without ?_
      yields_parseRetryAfter_none
    show 41 ∉ [32] ++ (asBytes (RetryAfter.value ⟨seconds, param, comment⟩) ++ [13, 10])
    simp only [RetryAfter.value, asBytes_append, Params.asBytes_toText, List.mem_append, not_or]
    refine ⟨by decide, ⟨⟨?_, ?_⟩, ?_⟩, by decide⟩
    · exact fun hmem => absurd (isAsciiDigit_of_mem_decimal hmem) (by decide)
    · exact not_mem_paramsBytes hps (by decide) (by decide) (by decide)
    · cases comment with
      | none => exact List.not_mem_nil
      | some comment => exact hcomment comment rfl
  · rintro ⟨⟩
    exact readBack_retryAfter hps

/-- A Warning names a host over the host table and has a text without quotes. -/
theorem scanned_parseWarning : Yields (Quoteless quotes) (fun h : Warning =>
    Over isHost h.host ∧ 34 ∉ asBytes h.text) Warning.parse := by
  apply Yields.bind (keepsQuoteless (ends_of_line staysIn_parseU32))
  intro _ _
  apply Yields.bind (keepsQuoteless ends_skipWs)
  intro _ _
  apply Yields.bind (yields_readWhile inherited_quoteless isHost)
  intro host hhost
  apply Yields.bind (keepsQuoteless ends_skipWs)
  intro _ _
  apply Yields.bind (keepsQuoteless (ends_mustRead 34))
  intro _ _
  apply Yields.bind (yields_consumeWhile_all inherited_quoteless (· != 34))
  intro text htext
  apply Yields.bind (keepsQuoteless ends_advance)
  intro _ _
  apply Yields.bind (P := fun s => asBytes s = text) (fun c s c' hc h => ?_)
  · rintro s hs
    refine Yields.pure ⟨hhost, fun hmem => ?_⟩
    rw [hs] at hmem
    exact absurd (htext 34 hmem) (by simp)
  · obtain ⟨hs, rfl⟩ := utf8_eq_ok_iff.mp h
    exact ⟨hs, hc⟩

/-- **No `Warning` is read back**: its text is printed without quotes. -/
theorem not_readBack_warning {h : Warning} (hhost : Over isHost h.host) (htext : 34 ∉ asBytes h.text) :
    ¬ (Header.warning h).ReadBack := by
  have hprinted : Printed .warning Warning.parse Warning.name
      (decimal h.code.toNat ++ " " ++ h.host ++ " " ++ h.text) h :=
    { text := rfl
      token := by decide
      parser := Or.inl rfl
      isContentType := rfl }
  have hnever : Yields (Without 34) (fun _ => False) Warning.parse := by
    apply Yields.bind (inherited_without.keeps (ends_of_line staysIn_parseU32))
    intro _ _
    apply Yields.bind (inherited_without.keeps ends_skipWs)
    intro _ _
    apply Yields.bind (yields_readWhile inherited_without isHost)
    intro _ _
    apply Yields.bind (inherited_without.keeps ends_skipWs)
    intro _ _
    exact (yields_mustRead_never 34).bind fun _ => False.elim
  apply hprinted.of_readBack (fun _ _ => Header.warning.inj) inherited_without _ hnever
  show 34 ∉ [32] ++ (_ ++ [13, 10])
  simp only [asBytes_append, List.mem_append, not_or]
  refine ⟨by decide, ⟨⟨⟨⟨?_, by decide⟩, hhost.not_mem (by decide)⟩, by decide⟩, htext⟩, by decide⟩
  exact fun hmem => absurd (isAsciiDigit_of_mem_decimal hmem) (by decide)

end SipParser

/-! ### Authentication infos -/

namespace AuthenticationInfo

/-- The fields of the header. -/
def fields (h : AuthenticationInfo) : List (Option String) :=
  [h.nextnonce, h.qop, h.rspauth, h.cnonce, h.nc]

/-- Every value of the header has `P`. -/
def All (P : String → Prop) (h : AuthenticationInfo) : Prop := ∀ o ∈ h.fields, ∀ v ∈ o, P v

/-- The parameters behind the first one, in the order they are printed. -/
def commaParams (h : AuthenticationInfo) : List Param :=
  fieldParam "qop" h.qop ++ fieldParam "rspauth" h.rspauth ++ fieldParam "cnonce" h.cnonce ++
  fieldParam "nc" h.nc

/-- The parameters as they are printed, in order; a field that is missing is printed as a blank. -/
def params (h : AuthenticationInfo) : List Param :=
  fieldOrBlank "nextnonce" h.nextnonce :: h.commaParams

/-- **The parameters of the header fill it again.** -/
theorem foldl_params (h : AuthenticationInfo) : h.params.foldl store {} = h := by
  obtain ⟨nextnonce, qop, rspauth, cnonce, nc⟩ := h
  let h₁ : AuthenticationInfo := { nextnonce := nextnonce }
  let h₂ : AuthenticationInfo := { h₁ with qop := qop }
  let h₃ : AuthenticationInfo := { h₂ with rspauth := rspauth }
  let h₄ : AuthenticationInfo := { h₃ with cnonce := cnonce }
  have hnextnonce : store {} (fieldOrBlank "nextnonce" nextnonce) = h₁ :=
    store_fieldOrBlank (fun o => ({ nextnonce := o } : AuthenticationInfo)) rfl (fun _ => rfl) nextnonce
  have hqop : (fieldParam "qop" qop).foldl store h₁ = h₂ :=
    foldl_fieldParam (fun o => { h₁ with qop := o }) (fun _ => rfl) qop
  have hrspauth : (fieldParam "rspauth" rspauth).foldl store h₂ = h₃ :=
    foldl_fieldParam (fun o => { h₂ with rspauth := o }) (fun _ => rfl) rspauth
  have hcnonce : (fieldParam "cnonce" cnonce).foldl store h₃ = h₄ :=
    foldl_fieldParam (fun o => { h₃ with cnonce := o }) (fun _ => rfl) cnonce
  have hnc : (fieldParam "nc" nc).foldl store h₄ = { h₄ with nc := nc } :=
    foldl_fieldParam (fun o => { h₄ with nc := o }) (fun _ => rfl) nc
  simp only [params, commaParams, List.foldl_cons, List.foldl_append]
  rw [hnextnonce, hqop, hrspauth, hcnonce, hnc]

/-- If every value of the header has a property, then so has every parameter that is printed. -/
theorem field_params {P : String → Prop} {h : AuthenticationInfo} (hall : h.All P) :
    ∀ p ∈ h.params, Param.Field P p := by
  simp only [All, fields, List.forall_mem_cons, List.not_mem_nil, false_implies, implies_true,
    and_true] at hall
  obtain ⟨hnextnonce, hqop, hrspauth, hcnonce, hnc⟩ := hall
  simp only [params, commaParams, List.forall_mem_cons, List.forall_mem_append]
  exact ⟨field_fieldOrBlank (by decide) hnextnonce, ⟨⟨field_fieldParam (by decide) hqop,
    field_fieldParam (by decide) hrspauth⟩, field_fieldParam (by decide) hcnonce⟩,
    field_fieldParam (by decide) hnc⟩

/-- The value of the header. -/
def value (h : AuthenticationInfo) : String :=
  (h.nextnonce.elim "" fun nextnonce => "nextnonce=" ++ nextnonce) ++
  (h.qop.elim "" fun qop => ", qop=" ++ qop) ++
  (h.rspauth.elim "" fun rspauth => ", rspauth=" ++ rspauth) ++
  (h.cnonce.elim "" fun cnonce => ", cnonce=" ++ cnonce) ++
  h.nc.elim "" fun nc => ", nc=" ++ nc

/-- The header is printed as its name and its value. -/
theorem toText_eq (h : AuthenticationInfo) : h.toText = headerLine name h.value := rfl

/-- The value of the header is the text of its parameters, with commas between them. -/
theorem asBytes_value (h : AuthenticationInfo) : asBytes h.value = authParamsBytes h.params := by
  simp only [value, asBytes_append, params, authParamsBytes, commaParams, List.flatMap_append,
    asBytes_fieldOrBlank h.nextnonce "nextnonce=" "nextnonce" (by decide),
    asBytes_commaField h.qop ", qop=" "qop" (by decide),
    asBytes_commaField h.rspauth ", rspauth=" "rspauth" (by decide),
    asBytes_commaField h.cnonce ", cnonce=" "cnonce" (by decide),
    asBytes_commaField h.nc ", nc=" "nc" (by decide), List.append_assoc]

/-- **An `Authentication-Info` is read back** when its values are tokens. -/
theorem readBack {h : AuthenticationInfo} (hall : h.All (Over isToken)) :
    (Header.authenticationInfo h).ReadBack := by
  have hover : ∀ p ∈ h.params, p.Over isToken := field_params hall
  have hne : h.params ≠ [] := List.cons_ne_nil _ _
  have hstart : ∀ rest, Stops isSpace (asBytes h.value ++ 13 :: rest) := by
    intro rest
    rw [asBytes_value, params, authParamsBytes, List.append_assoc]
    apply stops_isSpace_refText isToken_table (hover _ (by simp [params]))
    intro _
    -- behind a first parameter that is blank there is a comma, or the end
    cases h.commaParams with
    | nil => exact stops_cons.mpr (by decide)
    | cons p ps => exact stops_cons.mpr (by decide)
  have hprinted : PrintedAs .authenticationInfo AuthenticationInfo.parse AuthenticationInfo.name
      h.value h :=
    { text := congrArg some h.toText_eq
      token := by decide
      parser := Or.inl rfl
      isContentType := rfl
      start := hstart }
  apply hprinted.readBack
  intro rest
  have hread : Reads (parseAuthParams store {}) ([] ++ authParamsBytes h.params) (13 :: rest)
      (h.params.foldl store {}) :=
    reads_parseAuthParams hne hover (List.forall_mem_nil _) _
  rwa [foldl_params, List.nil_append, ← asBytes_value] at hread

end AuthenticationInfo

/-! ### Headers that are never read back -/

namespace SipParser

variable {rest : Bytes} {quotes : Prop}

/-- The type of a Content-Disposition and its parameters are scanned as tokens. -/
theorem scanned_parseContentDisposition : Yields (Quoteless quotes) (fun h : ContentDisposition =>
    Scanned quotes isToken h.type ∧ ∀ p ∈ h.params.inner, p.Scanned quotes isToken)
    ContentDisposition.parse := by
  apply Yields.bind scanned_token
  intro type htype
  exact scanned_parseParams.bind fun _ hps => Yields.pure ⟨htype, hps⟩

/-- The parameter without name and value that is read in front lies over every table. -/
theorem over_blank_cons {ps : List Param} (hps : ∀ p ∈ ps, p.Over isToken) :
    ∀ p ∈ Param.blank :: ps, p.Over isToken :=
  List.forall_mem_cons.mpr ⟨by decide, hps⟩

/-- A printed Content-Disposition is read with one parameter more, the blank one in front of the
    others. -/
theorem reads_contentDisposition {h : ContentDisposition} (htype : Over isToken h.type)
    (hps : ∀ p ∈ h.params.inner, p.Over isToken) :
    Reads ContentDisposition.parse (asBytes h.value) (13 :: rest)
      ⟨h.type, ⟨Param.blank :: h.params.inner⟩⟩ := by
  have hstops : ∀ {predicate : UInt8 → Bool}, predicate 59 = false →
      Stops predicate (paramsBytes (Param.blank :: h.params.inner) ++ 13 :: rest) :=
    fun h59 => stops_cons.mpr h59
  have hparams : Reads parseParams (paramsBytes (Param.blank :: h.params.inner)) (13 :: rest)
      ⟨Param.blank :: h.params.inner⟩ := by
    have hread : Reads parseParams (asBytes (⟨Param.blank :: h.params.inner⟩ : Params).toText)
        (13 :: rest) ⟨Param.blank :: h.params.inner⟩ := reads_parseParams (over_blank_cons hps)
    rwa [Params.asBytes_toText] at hread
  rw [ContentDisposition.asBytes_value]
  apply Reads.bind
    (reads_token htype (htype.stops_eq (by decide) (hstops (by decide))) (hstops (by decide)))
  apply Reads.bind_nil hparams
  exact Reads.pure _ _

/-- **No `Content-Disposition` is read back**: the semicolon that is printed before the parameters
    starts one more. -/
theorem not_readBack_contentDisposition {h : ContentDisposition} (htype : Scanned True isToken h.type)
    (hps : ∀ p ∈ h.params.inner, p.Over isToken) : ¬ (Header.contentDisposition h).ReadBack := by
  intro hread
  have hinj : Function.Injective Header.contentDisposition := fun _ _ => Header.contentDisposition.inj
  have hprinted : Printed .contentDisposition ContentDisposition.parse ContentDisposition.name h.value h :=
    { text := rfl
      token := by decide
      parser := Or.inl rfl
      isContentType := rfl }
  -- the type is printed without quotes, so that it is a token
  have hover : Over isToken h.type := by
    have hscan : ∀ p ∈ Param.blank :: h.params.inner, p.Scanned False isToken :=
      fun p hp => (over_blank_cons hps p hp).scanned
    have hquote : 34 ∉ asBytes h.value := by
      rw [ContentDisposition.asBytes_value, List.mem_append, not_or]
      exact ⟨htype.not_mem (by decide), quoteless_paramsBytes (by decide) hscan⟩
    have hscanned : Scanned False isToken h.type ∧ ∀ p ∈ h.params.inner, p.Scanned False isToken :=
      hprinted.of_readBack hinj inherited_quoteless (quoteless_new (by simp [hquote]))
        scanned_parseContentDisposition hread
    exact hscanned.1.over
  have hprintedAs : PrintedAs .contentDisposition ContentDisposition.parse ContentDisposition.name
      h.value h :=
    { hprinted with
      start := fun rest => by
        rw [ContentDisposition.asBytes_value, List.append_assoc]
        exact stops_isSpace_over hover (stops_cons.mpr (by decide)) }
  obtain ⟨c, c', hc, hrun⟩ := hprintedAs.parse_of_readBack hinj hread
  have heq := ((reads_contentDisposition hover hps) c hc).symm.trans hrun
  injection heq with heq _
  have hlength := congrArg (fun h : ContentDisposition => h.params.inner.length) heq
  simp at hlength

/-- An In-Reply-To has at least one Call-ID, and none has a comma or a line end in it. -/
theorem scanned_parseInReplyTo : Yields (Quoteless quotes) (fun h : InReplyTo =>
    h.ids ≠ [] ∧ ∀ i ∈ h.ids, ∀ b ∈ asBytes i.id, isNewline b = false ∧ b ≠ 44) InReplyTo.parse := by
  have hid : Yields (Quoteless quotes)
      (fun i : CallId => ∀ b ∈ asBytes i.id, isNewline b = false ∧ b ≠ 44) (do
        let id ← consumeWhile fun b => !isNewline b && b != 44
        return ⟨← utf8 id⟩) := by
    apply Yields.bind (yields_consumeWhile_all inherited_quoteless _)
    intro text htext
    apply Yields.bind (P := fun s => asBytes s = text) (fun c s c' hc h => ?_)
    · intro s hs
      apply Yields.pure
      intro b hb
      rw [hs] at hb
      simpa using htext b hb
    · obtain ⟨hs, rfl⟩ := utf8_eq_ok_iff.mp h
      exact ⟨hs, hc⟩
  exact (yields_collectElems inherited_quoteless hid).bind fun _ hids => Yields.pure hids

/-- **No `In-Reply-To` is read back**: each Call-ID is printed with the name of its own header. -/
theorem not_readBack_inReplyTo {h : InReplyTo} (hne : h.ids ≠ [])
    (hids : ∀ i ∈ h.ids, ∀ b ∈ asBytes i.id, isNewline b = false ∧ b ≠ 44) :
    ¬ (Header.inReplyTo h).ReadBack := by
  intro hread
  obtain ⟨ids⟩ := h
  have hhead : ∀ i : CallId, asBytes i.toText = asBytes "Call-ID: " ++ asBytes i.id :=
    fun i => asBytes_append _ _
  have hprinted : PrintedAs .inReplyTo InReplyTo.parse InReplyTo.name
      (formatSep ", " (ids.map CallId.toText)) ⟨ids⟩ :=
    { text := rfl
      token := by decide
      parser := Or.inl rfl
      isContentType := rfl
      start := by
        apply stops_isSpace_formatSep (by simpa using hne)
        intro s hs next _
        obtain ⟨i, -, rfl⟩ := List.mem_map.mp hs
        rw [hhead]
        exact stops_cons.mpr (by decide) }
  obtain ⟨c, c', hc, hrun⟩ := hprinted.parse_of_readBack (fun _ _ => Header.inReplyTo.inj) hread
  -- what is read is the lines as they are printed
  let lines : List CallId := ids.map fun i => ⟨i.toText⟩
  have hreads : Reads InReplyTo.parse (asBytes (formatSep ", " (lines.map CallId.id))) (13 :: [10])
      ⟨lines⟩ := by
    apply Reads.bind_nil
    · apply reads_collectElems (by simpa [lines] using hne) (stops_cons.mpr (by decide))
      · intro j hj next _
        obtain ⟨i, -, rfl⟩ := List.mem_map.mp hj
        show Stops isSpace (asBytes i.toText ++ next)
        rw [hhead]
        exact stops_cons.mpr (by decide)
      · intro j hj next hnext
        obtain ⟨i, hi, rfl⟩ := List.mem_map.mp hj
        have hname : ∀ b ∈ asBytes "Call-ID: ", (!isNewline b && b != 44) = true := by decide
        have hid : ∀ b ∈ asBytes i.id, (!isNewline b && b != 44) = true := by
          intro b hb
          obtain ⟨hline, hcomma⟩ := hids i hi b hb
          simp [hline, hcomma]
        have hall : ∀ b ∈ asBytes i.toText, (!isNewline b && b != 44) = true := by
          rw [hhead]
          exact List.forall_mem_append.mpr ⟨hname, hid⟩
        apply Reads.bind_nil (reads_consumeWhile hall
          (hnext.stops (by decide) (stops_cons.mpr (by decide))))
        exact Reads.bind_nil reads_utf8 (Reads.pure _ _)
    · exact Reads.pure _ _
  have htext : lines.map CallId.id = ids.map CallId.toText := by
    simp [lines, Function.comp_def]
  rw [htext] at hreads
  have heq := (hreads c hc).symm.trans hrun
  injection heq with heq _
  -- but the first of them is longer than it was
  obtain ⟨i, is, rfl⟩ := List.exists_cons_of_ne_nil hne
  have hi : i.toText = i.id := congrArg CallId.id (List.cons.inj (InReplyTo.mk.inj heq)).1
  have hlength := congrArg List.length (hhead i)
  rw [hi, List.length_append] at hlength
  have hpos : (asBytes "Call-ID: ").length = 9 := by decide
  omega

/-! ### Error infos -/

/-- No header is an `Error-Info`. -/
def NoErrorInfo (headers : Headers) : Prop := ∀ h ∈ headers, ∀ e, h ≠ .errorInfo e

/-- The URLs of an `Error-Info` are read in angle brackets only. -/
theorem yields_parseErrorInfo_never : Yields (Without 62) (fun _ => False) ErrorInfo.parse := by
  have hurl : Yields (Without 62) (fun _ => False) parseUrl := by
    apply Yields.bind (inherited_without.keeps (ends_mustRead 60))
    intro _ _
    exact yields_upTo_never 62
  have hinfo : Yields (Without 62) (fun _ => False) ErrorInfoUri.parse := hurl.bind fun _ => False.elim
  apply Yields.bind (yields_collectElems inherited_without hinfo)
  rintro infos ⟨hne, hinfos⟩
  obtain ⟨info, hinfo⟩ := List.exists_mem_of_ne_nil infos hne
  exact (hinfos info hinfo).elim

/-- No other parser makes an `Error-Info`, and this one makes none without angle brackets. -/
theorem headerParsers_errorInfo : ∀ entry ∈ headerParsers, ∀ {c c' : Scanner} {headers : Headers},
    Without 62 c → entry.2 c = .ok headers c' → NoErrorInfo headers := by
  simp only [headerParsers, List.forall_mem_cons, List.not_mem_nil, false_implies, implies_true,
    and_true]
  refine ⟨?_, ?_, ?_, ?_, ?_, ?_, ?_, ?_, ?_, ?_, ?_, ?_, ?_, ?_, ?_, ?_, ?_, ?_, ?_, ?_, ?_, ?_,
    ?_, ?_, ?_, ?_, ?_, ?_, ?_, ?_, ?_, ?_, ?_, ?_, ?_, ?_, ?_, ?_, ?_, ?_, ?_, ?_⟩
  · intro c c' headers hc h
    obtain ⟨e, hparse, -⟩ := one_eq_ok h
    exact (yields_parseErrorInfo_never c e c' hc hparse).1.elim
  all_goals
    intro c c' headers _ h
    first
    | exact forall_mem_one (fun _ _ => Header.noConfusion) h
    | exact forall_mem_many (fun _ _ => Header.noConfusion) h

/-- Where no closing bracket comes any more, no header line gives an Error-Info. -/
theorem noErrorInfo_parseHeaderValue {name : String} {c c' : Scanner} {headers : Headers}
    (hc : Without 62 c) (h : parseHeaderValue name c = .ok headers c') : NoErrorInfo headers := by
  rcases parseHeaderValue_cases name with ⟨entry, hentry, -, heq⟩ | ⟨-, heq⟩
  · rw [heq] at h
    exact headerParsers_errorInfo entry hentry hc h
  · rw [heq] at h
    exact forall_mem_one (fun _ _ => Header.noConfusion) h

/-- Every value of an Error-Info is a URL between brackets with scanned parameters. -/
theorem scanned_parseErrorInfo : Yields (Quoteless quotes) (fun h : ErrorInfo =>
    ∀ e ∈ h.infos, 62 ∉ asBytes e.url ∧ ∀ p ∈ e.params.inner, p.Scanned quotes isToken)
    ErrorInfo.parse := by
  have hinfo : Yields (Quoteless quotes) (fun e : ErrorInfoUri =>
      62 ∉ asBytes e.url ∧ ∀ p ∈ e.params.inner, p.Scanned quotes isToken) ErrorInfoUri.parse := by
    apply Yields.bind (yields_parseUrl inherited_quoteless)
    intro url hurl
    exact scanned_parseParams.bind fun _ hps => Yields.pure ⟨hurl, hps⟩
  exact (yields_collectElems inherited_quoteless hinfo).bind fun _ hinfos => Yields.pure hinfos.2

/-- **No `Error-Info` is read back**: it is printed without its name and without angle brackets. -/
theorem not_readBack_errorInfo {h : ErrorInfo} (hurls : ∀ e ∈ h.infos, 62 ∉ asBytes e.url)
    (hps : ∀ e ∈ h.infos, ∀ p ∈ e.params.inner, p.Over isToken) : ¬ (Header.errorInfo h).ReadBack := by
  intro hread
  have hbracket : 62 ∉ asBytes (h.toText ++ "\r\n") := by
    rw [asBytes_append, List.mem_append, not_or]
    refine ⟨not_mem_formatSep (by decide) ?_, by decide⟩
    intro s hs
    obtain ⟨e, he, rfl⟩ := List.mem_map.mp hs
    simp only [ErrorInfoUri.toText, asBytes_append, Params.asBytes_toText, List.mem_append, not_or]
    exact ⟨⟨hurls e he, by decide⟩,
      not_mem_paramsBytes (hps e he) (by decide) (by decide) (by decide)⟩
  obtain ⟨c, hrun⟩ := fromStr_eq_ok_iff.mp (hread.fromStr rfl)
  obtain ⟨name, c₁, hname, hrun⟩ := bind_eq_ok_iff.mp hrun
  obtain ⟨headers, c₂, hheaders, hrun⟩ := bind_eq_ok_iff.mp hrun
  obtain ⟨-, c₃, -, hrun⟩ := bind_eq_ok_iff.mp hrun
  injection hrun with hheaders' _
  have hc₀ : Without 62 (Scanner.new (asBytes (h.toText ++ "\r\n"))) := hbracket
  have hc₁ : Without 62 c₁ := inherited_without hc₀ (ends_headerName.suffix hname)
  have hmem : Header.errorInfo h ∈ headers := by
    rw [(Prod.mk.inj hheaders').1]
    exact List.mem_singleton_self _
  exact noErrorInfo_parseHeaderValue hc₁ hheaders _ hmem h rfl

end SipParser

/-! ### All of them -/

/-- A value that the parser makes from `c`, with parameters that need no quotes, is read back if and
    only if it has `cond`. -/
def ReadBackWhen {α : Type} (c c' : Scanner) (toHeader : α → Header) (parse : Parse α)
    (tokens cond : α → Prop) : Prop :=
  ∀ h, parse c = .ok h c' → tokens h → ((toHeader h).ReadBack ↔ cond h)

section ReadBackWhen

variable {α : Type} {c c' : Scanner} {toHeader : α → Header} {parse : Parse α}
  {P tokens cond : α → Prop}

/-- A condition that is exact for every scanned value is exact for what the parser makes. -/
theorem readBackWhen_of (hscan : Yields (Quoteless True) P parse)
    (h : ∀ a, P a → tokens a → ((toHeader a).ReadBack ↔ cond a)) :
    ReadBackWhen c c' toHeader parse tokens cond :=
  fun a hrun htokens => h a (hscan c a c' (Or.inl trivial) hrun).1 htokens

/-- A header whose scanned values are never read back is not read back under any condition. -/
theorem readBackWhen_never (hscan : Yields (Quoteless True) P parse)
    (h : ∀ a, P a → tokens a → ¬ (toHeader a).ReadBack) :
    ReadBackWhen c c' toHeader parse tokens fun _ => False :=
  readBackWhen_of hscan fun a ha htokens => iff_false_intro (h a ha htokens)

/-- A header whose scanned values are always read back needs no condition. -/
theorem readBackWhen_always (hscan : Yields (Quoteless True) P parse)
    (h : ∀ a, P a → tokens a → (toHeader a).ReadBack) :
    ReadBackWhen c c' toHeader parse tokens fun _ => True :=
  readBackWhen_of hscan fun a ha htokens => iff_true_intro (h a ha htokens)

end ReadBackWhen

/-- An Accept of the parser is read back exactly when its types and subtypes are tokens. -/
theorem readBackWhen_accept (c c' : Scanner) :
    ReadBackWhen c c' .accept Accept.parse (fun h => ∀ m ∈ h.mtypes, m.params.Tokens)
    (fun h => ∀ m ∈ h.mtypes, Over isToken m.mimetype.mtype ∧ Over isToken m.mimetype.subtype) := by
  have hscan : Yields (Quoteless True) (fun h : Accept => h.mtypes ≠ [] ∧ ∀ m ∈ h.mtypes,
      Scanned True isToken m.mimetype.mtype ∧ Scanned True isToken m.mimetype.subtype ∧
        ∀ p ∈ m.params.inner, p.Scanned True isToken) Accept.parse :=
    (yields_collectElems inherited_quoteless scanned_parseMediaType).bind fun _ h => Yields.pure h
  apply readBackWhen_of hscan
  rintro ⟨mtypes⟩ ⟨hne, hscanned⟩ htokens
  rw [readBack_accept_iff hne hscanned]
  refine forall₂_congr fun m hm => ?_
  have hps := (htokens m hm).over (hscanned m hm).2.2
  exact ⟨fun h => ⟨h.1, h.2.1⟩, fun h => ⟨h.1, h.2, hps⟩⟩

/-- An Accept-Encoding of the parser is read back exactly when its codings are tokens. -/
theorem readBackWhen_acceptEncoding (c c' : Scanner) :
    ReadBackWhen c c' .acceptEncoding AcceptEncoding.parse
    (fun h => ∀ c ∈ h.codings, c.params.Tokens) (fun h => ∀ c ∈ h.codings, Over isToken c.coding) := by
  have hscan : Yields (Quoteless True) (fun h : AcceptEncoding => h.codings ≠ [] ∧
      ∀ c ∈ h.codings, Scanned True isToken c.coding ∧
        ∀ p ∈ c.params.inner, p.Scanned True isToken ∧ p.name ∉ [Params.q]) AcceptEncoding.parse :=
    (yields_collectElems inherited_quoteless scanned_parseCoding).bind fun _ h => Yields.pure h
  apply readBackWhen_of hscan
  rintro ⟨codings⟩ ⟨hne, hscanned⟩ htokens
  rw [readBack_acceptEncoding_iff hne hscanned]
  refine forall₂_congr fun c hc => ?_
  have hps := (htokens c hc).over fun p hp => ((hscanned c hc).2 p hp).1
  exact ⟨And.left, fun h => ⟨h, fun p hp => ⟨hps p hp, ((hscanned c hc).2 p hp).2⟩⟩⟩

/-- An Accept-Language of the parser is always read back. -/
theorem readBackWhen_acceptLanguage (c c' : Scanner) :
    ReadBackWhen c c' .acceptLanguage AcceptLanguage.parse
    (fun h => ∀ l ∈ h.languages, l.params.Tokens) fun _ => True := by
  have hscan : Yields (Quoteless True) (fun h : AcceptLanguage => h.languages ≠ [] ∧
      ∀ l ∈ h.languages, Over isLang l.language.tag ∧
        ∀ p ∈ l.params.inner, p.Scanned True isToken ∧ p.name ∉ [Params.q]) AcceptLanguage.parse :=
    (yields_collectElems inherited_quoteless scanned_parseLanguage).bind fun _ h => Yields.pure h
  apply readBackWhen_always hscan
  rintro ⟨languages⟩ ⟨hne, hscanned⟩ htokens
  apply (readBack_acceptLanguage_iff hne hscanned).mpr
  intro l hl
  have hps := (htokens l hl).over fun p hp => ((hscanned l hl).2 p hp).1
  exact ⟨(hscanned l hl).1, fun p hp => ⟨hps p hp, ((hscanned l hl).2 p hp).2⟩⟩

/-- A Require of the parser is read back exactly when its option tags are tokens. -/
theorem readBackWhen_require (c c' : Scanner) :
    ReadBackWhen c c' .require Require.parse (fun _ => True)
    (fun h => ∀ t ∈ h.tags, Over isToken t) := by
  have hscan : Yields (Quoteless True) (fun h : Require => h.tags ≠ [] ∧
      ∀ t ∈ h.tags, Scanned True isToken t) Require.parse :=
    (yields_collectElems inherited_quoteless scanned_token).bind fun _ h => Yields.pure h
  apply readBackWhen_of hscan
  rintro ⟨tags⟩ ⟨hne, hscanned⟩ -
  have hprinted : Printed (fun tags => .require ⟨tags⟩) parseTokens Require.name
      (formatSep ", " tags) tags :=
    { text := rfl
      token := by decide
      parser := Or.inl (one_field .require Require.mk parseTokens)
      isContentType := rfl }
  apply readBack_tokens_iff hprinted _ hne hscanned
  exact fun _ _ h => Require.mk.inj (Header.require.inj h)

/-- **Which headers survive forwarding**, of those whose parameters need no quotes. -/
theorem forwarded_readBack_iff (c c' : Scanner) :
    ReadBackWhen c c' .errorInfo ErrorInfo.parse (fun h => ∀ e ∈ h.infos, e.params.Tokens)
      (fun _ => False) ∧
    ReadBackWhen c c' .alertInfo AlertInfo.parse (fun h => h.params.Tokens) (fun _ => True) ∧
    ReadBackWhen c c' .contentDisposition ContentDisposition.parse (fun h => h.params.Tokens)
      (fun _ => False) ∧
    ReadBackWhen c c' .retryAfter RetryAfter.parse (fun h => h.param.Tokens)
      (fun h => h.comment = none) ∧
    ReadBackWhen c c' .warning Warning.parse (fun _ => True) (fun _ => False) ∧
    ReadBackWhen c c' .inReplyTo InReplyTo.parse (fun _ => True) (fun _ => False) ∧
    ReadBackWhen c c' .replyTo ReplyTo.parse (fun h => h.param.Tokens)
      (fun h => ¬ h.uri.hostPort.host.IsV6 ∧ h.uri.Plain) ∧
    ReadBackWhen c c' .accept Accept.parse (fun h => ∀ m ∈ h.mtypes, m.params.Tokens)
      (fun h => ∀ m ∈ h.mtypes, Over isToken m.mimetype.mtype ∧ Over isToken m.mimetype.subtype) ∧
    ReadBackWhen c c' .acceptLanguage AcceptLanguage.parse (fun h => ∀ l ∈ h.languages, l.params.Tokens)
      (fun _ => True) ∧
    ReadBackWhen c c' .acceptEncoding AcceptEncoding.parse (fun h => ∀ c ∈ h.codings, c.params.Tokens)
      (fun h => ∀ c ∈ h.codings, Over isToken c.coding) ∧
    ReadBackWhen c c' .require Require.parse (fun _ => True) (fun h => ∀ t ∈ h.tags, Over isToken t) ∧
    ReadBackWhen c c' .authenticationInfo AuthenticationInfo.parse (fun h => h.All (Over isToken))
      (fun _ => True) := by
  refine ⟨?_, ?_, ?_, ?_, ?_, ?_, ?_, readBackWhen_accept c c', readBackWhen_acceptLanguage c c',
    readBackWhen_acceptEncoding c c', readBackWhen_require c c', ?_⟩
  · apply readBackWhen_never scanned_parseErrorInfo
    intro h hinfos htokens
    apply not_readBack_errorInfo fun e he => (hinfos e he).1
    exact fun e he => (htokens e he).over (hinfos e he).2
  · apply readBackWhen_always scanned_parseAlertInfo
    exact fun h hscanned htokens => readBack_alertInfo hscanned.1 (htokens.over hscanned.2)
  · apply readBackWhen_never scanned_parseContentDisposition
    exact fun h hscanned htokens => not_readBack_contentDisposition hscanned.1 (htokens.over hscanned.2)
  · apply readBackWhen_of scanned_parseRetryAfter
    exact fun h hscanned htokens => readBack_retryAfter_iff hscanned.1 (htokens.over hscanned.2)
  · apply readBackWhen_never scanned_parseWarning
    exact fun h hscanned _ => not_readBack_warning hscanned.1 hscanned.2
  · apply readBackWhen_never scanned_parseInReplyTo
    exact fun h hids _ => not_readBack_inReplyTo hids.1 hids.2
  · apply readBackWhen_of scanned_parseReplyTo
    exact fun h hscanned htokens => readBack_replyTo_iff hscanned.1 (htokens.over hscanned.2)
  · -- the fields are the parameters
    exact fun h _ hall => iff_true_intro (AuthenticationInfo.readBack hall)

/-- The conditions at plain headers: an Error-Info and a Content-Disposition fail, an Alert-Info and
    a Retry-After succeed. -/
theorem forwarded_readBack_plain :
    ((Header.errorInfo ⟨[⟨"sip:a", {}⟩]⟩).ReadBack ↔ False) ∧
    ((Header.alertInfo ⟨"sip:a", {}⟩).ReadBack ↔ True) ∧
    ((Header.contentDisposition ⟨"session", {}⟩).ReadBack ↔ False) ∧
    ((Header.retryAfter ⟨120, {}, none⟩).ReadBack ↔ (none : Option String) = none) ∧
    ((Header.warning ⟨370, "a", "b"⟩).ReadBack ↔ False) ∧
    ((Header.inReplyTo ⟨[⟨"a"⟩]⟩).ReadBack ↔ False) ∧
    ((Header.replyTo ⟨.uri Uri.ofBob, {}⟩).ReadBack ↔
      ¬ Uri.ofBob.hostPort.host.IsV6 ∧ SipUri.Plain (.uri Uri.ofBob)) ∧
    ((Header.accept ⟨[⟨⟨"a", "b"⟩, {}⟩]⟩).ReadBack ↔
      ∀ m ∈ [(⟨⟨"a", "b"⟩, {}⟩ : MediaType)],
        Over isToken m.mimetype.mtype ∧ Over isToken m.mimetype.subtype) ∧
    ((Header.acceptLanguage ⟨[⟨⟨"en"⟩, none, {}⟩]⟩).ReadBack ↔ True) ∧
    ((Header.acceptEncoding ⟨[⟨"gzip", none, {}⟩]⟩).ReadBack ↔
      ∀ c ∈ [(⟨"gzip", none, {}⟩ : Coding)], Over isToken c.coding) ∧
    ((Header.require ⟨["100rel"]⟩).ReadBack ↔ ∀ t ∈ ["100rel"], Over isToken t) ∧
    ((Header.authenticationInfo { qop := some "auth" }).ReadBack ↔ True) := by
  exact ⟨(forwarded_readBack_iff (Scanner.new (asBytes "<sip:a>")) _).1 _ rfl (by decide),
    (forwarded_readBack_iff (Scanner.new (asBytes "<sip:a>")) _).2.1 _ rfl (by decide),
    (forwarded_readBack_iff (Scanner.new (asBytes "session")) _).2.2.1 _ rfl (by decide),
    (forwarded_readBack_iff (Scanner.new (asBytes "120")) _).2.2.2.1 _ rfl (by decide),
    (forwarded_readBack_iff (Scanner.new (asBytes "370 a \"b\"")) _).2.2.2.2.1 _ rfl trivial,
    (forwarded_readBack_iff (Scanner.new (asBytes "a")) _).2.2.2.2.2.1 _ rfl trivial,
    (forwarded_readBack_iff (Scanner.new (asBytes "sip:bob@example.com")) _).2.2.2.2.2.2.1 _ rfl (by decide),
    (forwarded_readBack_iff (Scanner.new (asBytes "a/b")) _).2.2.2.2.2.2.2.1 _ rfl (by decide),
    (forwarded_readBack_iff (Scanner.new (asBytes "en")) _).2.2.2.2.2.2.2.2.1 _ rfl (by decide),
    (forwarded_readBack_iff (Scanner.new (asBytes "gzip")) _).2.2.2.2.2.2.2.2.2.1 _ rfl (by decide),
    (forwarded_readBack_iff (Scanner.new (asBytes "100rel")) _).2.2.2.2.2.2.2.2.2.2.1 _ rfl trivial,
    (forwarded_readBack_iff (Scanner.new (asBytes "qop=auth")) _).2.2.2.2.2.2.2.2.2.2.2 _ rfl (by
      simp [AuthenticationInfo.All, AuthenticationInfo.fields]
      decide)⟩

/-- A `Retry-After` with a comment, and a request with the line it is printed as. -/
theorem not_forwarded_readBack :
    ∃ h, (∃ c, RetryAfter.parse (Scanner.new (asBytes "120 (busy)")) = .ok h c) ∧ h.param.Tokens ∧
      ¬ (Header.retryAfter h).ReadBack ∧
      (Header.retryAfter h).toText = some "Retry-After: 120busy" ∧
      (SipParser.parse (asBytes "OPTIONS sip:a SIP/2.0\r\nRetry-After: 120busy\r\n\r\n")).isOk =
        false := by
  refine ⟨⟨120, {}, some "busy"⟩, ⟨_, rfl⟩, by decide, ?_, by decide +kernel, by decide +kernel⟩
  intro hread
  exact absurd (hread.fromStr rfl) (by decide +kernel)

end Rssip
