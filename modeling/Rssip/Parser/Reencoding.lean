import Rssip.Parser.ReadBack

namespace Rssip

open Lib SipParser

/-!
# Values that were read in quotes

The parser takes the quotes off a value, and no printer of parameters puts them on again.

* `reencodes_iff` — a list of parameters, and the headers of a URI, are read as they are printed
  if and only if no value needs quotes (and no header is without one);
* `digest_reencodes_iff` — the same for the fields of a digest credential or challenge.
-/

/-! ### Lists of parameters -/

namespace SipParser

variable {rest : Bytes} {quotes : Prop} {tab : LookupTable}

/-- Scanned parameters print no quote, each by itself and so all in a row. -/
theorem quoteless_paramsBytes {ps : List Param} (htab : tab 34 = false)
    (hps : ∀ p ∈ ps, p.Scanned quotes tab) : 34 ∉ paramsBytes ps := by
  rw [paramsBytes, List.mem_flatMap]
  rintro ⟨p, hp, hmem⟩
  rcases List.mem_cons.mp hmem with h | h
  · exact absurd h (by decide)
  · exact (hps p hp).not_mem htab h

/-- The same for a parameter list of a header. -/
theorem quoteless_params {ps : Params} (hps : ∀ p ∈ ps.inner, p.Scanned quotes isToken) :
    34 ∉ asBytes ps.toText := by
  rw [Params.asBytes_toText]
  exact quoteless_paramsBytes (by decide) hps

/-- **Parameters are read as they are printed** if and only if their values are tokens. -/
theorem params_reencodes_iff {ps : Params} (hps : ∀ p ∈ ps.inner, p.Scanned True isToken) :
    fromStr parseParams ps.toText = .ok ps ↔ ∀ p ∈ ps.inner, ∀ v ∈ p.value, Over isToken v := by
  constructor
  · intro hread p hp v hv
    -- no quotes are printed, so that every value is scanned
    have hscanned := scanned_fromStr scanned_parseParams (quoteless_params hps) hread
    exact ((hscanned p hp).2 v hv).over
  · intro hvalues
    have hover : ∀ p ∈ ps.inner, p.Over isToken := fun p hp => ⟨(hps p hp).1, hvalues p hp⟩
    exact fromStr_of_reads
      (reads_parseParams_of hover (stops_nil _) (stops_nil _) (stops_nil _))

end SipParser

/-! ### Headers of a URI -/

/-- The parameter with the value it is printed with among the headers of a URI. -/
def Param.filled (p : Param) : Param := { p with value := some (p.value.getD "") }

/-- The headers of a URI as they are read back: one without a value gets an empty one. -/
def UriHeaders.filled (h : UriHeaders) : UriHeaders := ⟨⟨h.params.inner.map Param.filled⟩⟩

/-- An empty value is printed like a missing one, so the filled headers have the same text. -/
theorem UriHeaders.toText_filled (h : UriHeaders) : h.filled.toText = h.toText := by
  rw [toText, toText, filled, List.map_map]
  rfl

/-- Filled up, the scanned headers of a URI are read back. -/
theorem UriHeaders.wellFormed_filled {h : UriHeaders} (hne : h.params.inner ≠ [])
    (hscanned : ∀ p ∈ h.params.inner, p.Scanned False isHdrUri) : h.filled.WellFormed := by
  refine ⟨by simpa [filled] using hne, ?_⟩
  intro q hq
  obtain ⟨p, hp, rfl⟩ := List.mem_map.mp hq
  refine ⟨⟨(hscanned p hp).1, ?_⟩, rfl⟩
  rintro v ⟨⟩
  cases hvalue : p.value with
  | none =>
    rw [Option.getD_none, Over, asBytes_empty]
    exact List.forall_mem_nil _
  | some v => exact ((hscanned p hp).2 v hvalue).over

/-- Headers that are all printed with the value they have have one. -/
theorem UriHeaders.isSome_of_filled {h : UriHeaders} (heq : h.filled = h) :
    ∀ p ∈ h.params.inner, p.value.isSome := by
  intro p hp
  have hinner : h.params.inner.map Param.filled = h.params.inner :=
    congrArg (fun h : UriHeaders => h.params.inner) heq
  rw [← hinner] at hp
  obtain ⟨q, -, rfl⟩ := List.mem_map.mp hp
  rfl

namespace SipParser

variable {rest : Bytes} {quotes : Prop}

/-- The scanned headers of a URI print no quote. -/
theorem quoteless_uriHeaders {h : UriHeaders} (hscanned : ∀ p ∈ h.params.inner, p.Scanned quotes isHdrUri) :
    34 ∉ asBytes h.toText := by
  rw [UriHeaders.toText, asBytes_formatSep (b := 38) (by decide), List.map_map]
  intro hmem
  rcases mem_joinSep hmem with h34 | ⟨t, ht, hmem⟩
  · exact absurd h34 (by decide)
  · obtain ⟨p, hp, rfl⟩ := List.mem_map.mp ht
    have htext : asBytes (uriHeaderText p) = asBytes p.filled.refText := by
      rw [← uriHeaderText_eq (p := p.filled) rfl]
      rfl
    have hfilled : p.filled.Scanned quotes isHdrUri := by
      refine ⟨(hscanned p hp).1, ?_⟩
      rintro v ⟨⟩
      cases hvalue : p.value with
      | none => exact Or.inl (List.forall_mem_nil _)
      | some v => exact (hscanned p hp).2 v hvalue
    rw [Function.comp_apply, htext] at hmem
    exact hfilled.not_mem (by decide) hmem

/-- **Headers of a URI are read as they are printed** if and only if each has a value, over the
    table of headers. -/
theorem uriHeaders_reencodes_iff {h : UriHeaders} (hne : h.params.inner ≠ [])
    (hscanned : ∀ p ∈ h.params.inner, p.Scanned True isHdrUri) :
    fromStr parseUriHeaders h.toText = .ok h ↔
      ∀ p ∈ h.params.inner, ∃ v ∈ p.value, Over isHdrUri v := by
  constructor
  · intro hread
    have hover := (scanned_fromStr scanned_parseUriHeaders (quoteless_uriHeaders hscanned) hread).2
    -- the text is also that of the headers with an empty value for a missing one
    have hfilled : fromStr parseUriHeaders h.toText = .ok h.filled := by
      rw [← h.toText_filled]
      exact fromStr_of_reads
        (reads_parseUriHeaders (UriHeaders.wellFormed_filled hne hover) (stops_nil _) (stops_nil _))
    have hsome := UriHeaders.isSome_of_filled (Except.ok.inj (hfilled.symm.trans hread))
    intro p hp
    obtain ⟨v, hv⟩ := Option.isSome_iff_exists.mp (hsome p hp)
    exact ⟨v, hv, ((hover p hp).2 v hv).over⟩
  · intro hvalues
    have hwf : h.WellFormed := by
      refine ⟨hne, fun p hp => ?_⟩
      obtain ⟨v, hv, hover⟩ := hvalues p hp
      refine ⟨⟨(hscanned p hp).1, fun w hw => ?_⟩, Option.isSome_iff_exists.mpr ⟨v, hv⟩⟩
      rw [Option.mem_def, hv] at hw
      rwa [← Option.some.inj hw]
    exact fromStr_of_reads (reads_parseUriHeaders hwf (stops_nil _) (stops_nil _))

end SipParser

/-- **Parsed parameters survive re-encoding** if and only if their values are tokens, and parsed
    headers of a URI if and only if each has a value, over the table of headers. -/
theorem reencodes_iff (c c' : Scanner) :
    (∀ ps : Params, parseParams c = .ok ps c' →
      (SipParser.fromStr parseParams ps.toText = .ok ps ↔
        ∀ p ∈ ps.inner, ∀ v ∈ p.value, Over isToken v)) ∧
    (∀ h : UriHeaders, parseUriHeaders c = .ok h c' →
      (SipParser.fromStr parseUriHeaders h.toText = .ok h ↔
        ∀ p ∈ h.params.inner, ∃ v ∈ p.value, Over isHdrUri v)) := by
  constructor
  · intro ps hrun
    exact params_reencodes_iff (scanned_parseParams c ps c' (Or.inl trivial) hrun).1
  · intro h hrun
    obtain ⟨hne, hscanned⟩ := (scanned_parseUriHeaders c h c' (Or.inl trivial) hrun).1
    exact uriHeaders_reencodes_iff hne hscanned

/-- The conditions at plain parameters, where both sides hold. -/
theorem reencodes_tokens :
    (SipParser.fromStr parseParams ";a=b;c" = .ok ⟨[⟨"a", some "b"⟩, ⟨"c", none⟩]⟩ ↔
      ∀ p ∈ [⟨"a", some "b"⟩, (⟨"c", none⟩ : Param)], ∀ v ∈ p.value, Over isToken v) ∧
    (SipParser.fromStr parseUriHeaders "a=b" = .ok ⟨⟨[⟨"a", some "b"⟩]⟩⟩ ↔
      ∀ p ∈ [(⟨"a", some "b"⟩ : Param)], ∃ v ∈ p.value, Over isHdrUri v) :=
  ⟨(reencodes_iff (Scanner.new (asBytes "; a=\"b\" ;c")) _).1 ⟨[⟨"a", some "b"⟩, ⟨"c", none⟩]⟩ rfl,
    (reencodes_iff (Scanner.new (asBytes "a=b")) _).2 ⟨⟨[⟨"a", some "b"⟩]⟩⟩ rfl⟩

/-- A value with a blank among the parameters, and a header of a URI without a value: neither is
    read back from what is printed. -/
theorem not_reencodes :
    (∃ ps : Params, SipParser.fromStr parseParams ";a=\"b c\"" = .ok ps ∧
      SipParser.fromStr parseParams ps.toText ≠ .ok ps) ∧
    (∃ h : UriHeaders, SipParser.fromStr parseUriHeaders "a" = .ok h ∧
      SipParser.fromStr parseUriHeaders h.toText ≠ .ok h) :=
  ⟨⟨⟨[⟨"a", some "b c"⟩]⟩, by decide +kernel, by decide +kernel⟩,
    ⟨⟨⟨[⟨"a", none⟩]⟩⟩, by decide +kernel, by decide +kernel⟩⟩

/-! ### Fields of authentication headers -/

/-- The parameter of a field that may be missing. -/
def fieldParam (name : String) (o : Option String) : List Param :=
  (o.map fun v => (⟨name, some v⟩ : Param)).toList

/-- A parameter without a name and a value, which is what is read where there is none. -/
def Param.blank : Param := ⟨"", none⟩

/-- The parameter of a field that may be missing, but not what separates it from the others. -/
def fieldOrBlank (name : String) (o : Option String) : Param :=
  o.elim Param.blank fun v => ⟨name, some v⟩

namespace SipParser

variable {rest ws : Bytes} {quotes : Prop}

/-- The parameter of a field has the field's name and value. -/
theorem mem_fieldParam {name : String} {o : Option String} {p : Param} (hp : p ∈ fieldParam name o) :
    p.name = name ∧ p.value = o := by
  rw [fieldParam, Option.mem_toList, Option.map_eq_some_iff] at hp
  obtain ⟨v, rfl, rfl⟩ := hp
  exact ⟨rfl, rfl⟩

/-- A name that is a token, and a value with `P`. -/
def Param.Field (P : String → Prop) (p : Param) : Prop := Over isToken p.name ∧ ∀ v ∈ p.value, P v

variable {P : String → Prop}

/-- A field whose name is a token, and whose value has a property, gives a parameter of this kind.
    -/
theorem field_fieldParam {name : String} {o : Option String} (hname : Over isToken name)
    (ho : ∀ v ∈ o, P v) : ∀ p ∈ fieldParam name o, Param.Field P p := by
  intro p hp
  obtain ⟨rfl, rfl⟩ := mem_fieldParam hp
  exact ⟨hname, ho⟩

/-- The same where a missing field is printed as a blank. -/
theorem field_fieldOrBlank {name : String} {o : Option String} (hname : Over isToken name)
    (ho : ∀ v ∈ o, P v) : Param.Field P (fieldOrBlank name o) := by
  cases o with
  | none =>
    have hempty : Over isToken "" := by decide
    exact ⟨hempty, by simp [fieldOrBlank, Param.blank]⟩
  | some v =>
    refine ⟨hname, ?_⟩
    rintro w ⟨⟩
    exact ho v rfl

/-- A field is filled by its parameter. -/
theorem foldl_fieldParam {α : Type} {store : α → Param → α} {name : String} (set : Option String → α)
    (h : ∀ v, store (set none) ⟨name, some v⟩ = set (some v)) (o : Option String) :
    (fieldParam name o).foldl store (set none) = set o := by
  cases o with
  | none => rfl
  | some v => exact h v

/-- To store the parameter of a field sets the field, and a blank leaves it unset. -/
theorem store_fieldOrBlank {α : Type} {store : α → Param → α} {name : String} (set : Option String → α)
    (hblank : store (set none) Param.blank = set none)
    (h : ∀ v, store (set none) ⟨name, some v⟩ = set (some v)) (o : Option String) :
    store (set none) (fieldOrBlank name o) = set o := by
  cases o with
  | none => exact hblank
  | some v => exact h v

/-! ### Parameters between commas -/

/-- The parameters of an authentication header, each but the first behind a comma and a blank. -/
def authParamsBytes : List Param → Bytes
  | [] => []
  | p :: ps => asBytes p.refText ++ ps.flatMap fun q => [44, 32] ++ asBytes q.refText

/-- Printed parameters but the last have a comma and a blank behind them. -/
theorem authParamsBytes_concat (ps : List Param) (last : Param) :
    authParamsBytes (ps ++ [last]) =
      (ps.flatMap fun q => asBytes q.refText ++ [44, 32]) ++ asBytes last.refText := by
  have hcons : ∀ (p : Param) (ps : List Param), ps ≠ [] →
      authParamsBytes (p :: ps) = asBytes p.refText ++ ([44, 32] ++ authParamsBytes ps) := by
    intro p ps hne
    obtain ⟨q, ps, rfl⟩ := List.exists_cons_of_ne_nil hne
    simp [authParamsBytes]
  induction ps with
  | nil => simp [authParamsBytes]
  | cons p ps ih =>
    rw [List.cons_append, hcons p _ (by simp), ih]
    simp

/-- Scanned parameters of an authentication header print no quote. -/
theorem quoteless_authParams {ps : List Param} (hps : ∀ p ∈ ps, p.Scanned quotes isToken) :
    34 ∉ authParamsBytes ps := by
  have htext : ∀ p ∈ ps, 34 ∉ asBytes p.refText := fun p hp => (hps p hp).not_mem (by decide)
  cases ps with
  | nil => exact List.not_mem_nil
  | cons p ps =>
    rw [authParamsBytes, List.mem_append, not_or, List.mem_flatMap]
    refine ⟨htext p (by simp), ?_⟩
    rintro ⟨q, hq, hmem⟩
    rcases List.mem_append.mp hmem with h34 | h34
    · exact absurd h34 (by decide)
    · exact htext q (by simp [hq]) h34

/-- **The parameters of an authentication header are read back**, with the blanks before them. -/
theorem reads_parseAuthParams {α : Type} {store : α → Param → α} {ps : List Param} (hne : ps ≠ [])
    (hps : ∀ p ∈ ps, p.Over isToken) (hws : ∀ b ∈ ws, isSpace b) (a : α) :
    Reads (parseAuthParams store a) (ws ++ authParamsBytes ps) (13 :: rest) (ps.foldl store a) := by
  obtain ⟨p, ps, rfl⟩ := List.exists_cons_of_ne_nil hne
  -- the blank behind a comma belongs to the parameter after it
  let ts : List (Bytes × Param) :=
    (ws ++ asBytes p.refText, p) :: ps.map fun q => ([32] ++ asBytes q.refText, q)
  have htail : ∀ (front : Bytes) (ps : List Param),
      front ++ (ps.flatMap fun q => [44, 32] ++ asBytes q.refText) =
        joinSep 44 (front :: ps.map fun q => [32] ++ asBytes q.refText) := by
    intro front ps
    induction ps generalizing front with
    | nil => simp [joinSep]
    | cons q ps ih =>
      have hq := ih ([32] ++ asBytes q.refText)
      rw [List.map_cons, joinSep, ← hq]
      · simp
      · simp
  have htext : ws ++ authParamsBytes (p :: ps) = joinSep 44 (ts.map Prod.fst) := by
    rw [authParamsBytes, ← List.append_assoc, htail]
    simp [ts, Function.comp_def]
  have hvals : ts.map Prod.snd = p :: ps := by simp [ts, Function.comp_def]
  have hparamRef : ∀ (q : Param) (blanks next : Bytes), q ∈ p :: ps → (∀ b ∈ blanks, isSpace b) →
      ElemEnd 44 (13 :: rest) next → ∀ a,
      Reads (do skipWs; return store a (← paramRef)) (blanks ++ asBytes q.refText) next
        (store a q) := by
    intro q blanks next hq hblanks hnext a
    have hover := hps q hq
    have hstart : Stops isSpace (asBytes q.refText ++ next) :=
      stops_isSpace_refText isToken_table hover
        fun _ => hnext.stops (by decide) (stops_cons.mpr (by decide))
    have hend : Stops (inParam isToken) next :=
      hnext.stops (by decide) (stops_cons.mpr (by decide))
    apply Reads.bind (reads_skipWs hblanks hstart)
    apply Reads.bind_nil (reads_paramRef_nil isToken_table hover hstart hend)
    exact Reads.pure _ _
  rw [htext, ← hvals]
  apply reads_foldSep (stops_cons.mpr (by decide)) a ts (by simp [ts])
  intro a t ht next hnext
  rcases List.mem_cons.mp ht with rfl | ht
  · exact hparamRef p ws next (by simp) hws hnext a
  · obtain ⟨q, hq, rfl⟩ := List.mem_map.mp ht
    exact hparamRef q [32] next (by simp [hq]) (by decide) hnext a

/-- The loop over the parameters keeps what storing one of them keeps. -/
theorem scanned_parseAuthParams {α : Type} {store : α → Param → α} {Q : α → Prop}
    (hstore : ∀ a p, Q a → p.Scanned quotes isToken → Q (store a p)) {a : α} (ha : Q a) :
    Yields (Quoteless quotes) Q (parseAuthParams store a) := by
  refine yields_foldSep inherited_quoteless ?_ (fun _ => id) ha
  intro a ha
  apply Yields.bind (keepsQuoteless ends_skipWs)
  intro _ _
  exact scanned_paramRef.bind fun p hp => Yields.pure (hstore a p ha hp)

/-- What a comma and a blank separate from what is before. -/
theorem asBytes_commaField (o : Option String) (start name : String)
    (hstart : start = ", " ++ (name ++ "=")) :
    asBytes (o.elim "" fun v => start ++ v) =
      (fieldParam name o).flatMap fun q => [44, 32] ++ asBytes q.refText := by
  cases o with
  | none => exact asBytes_empty
  | some v =>
    rw [hstart]
    simp [fieldParam, Param.refText, asBytes_append, show asBytes ", " = [44, 32] by decide]

/-- What a comma and a blank separate from what is behind. -/
theorem asBytes_fieldComma (o : Option String) (start name : String) (hstart : start = name ++ "=") :
    asBytes (o.elim "" fun v => start ++ v ++ ", ") =
      (fieldParam name o).flatMap fun q => asBytes q.refText ++ [44, 32] := by
  cases o with
  | none => exact asBytes_empty
  | some v =>
    rw [hstart]
    simp [fieldParam, Param.refText, asBytes_append, show asBytes ", " = [44, 32] by decide]

/-- A field is printed as its name, the equals sign and its value, or not at all. -/
theorem asBytes_fieldOrBlank (o : Option String) (start name : String) (hstart : start = name ++ "=") :
    asBytes (o.elim "" fun v => start ++ v) = asBytes (fieldOrBlank name o).refText := by
  cases o with
  | none => rfl
  | some v =>
    rw [hstart]
    simp [fieldOrBlank, Param.refText, asBytes_append]

end SipParser

/-! ### Digest credentials -/

namespace DigestCredential

/-- The fields of a credential. -/
def fields (d : DigestCredential) : List (Option String) :=
  [d.realm, d.username, d.nonce, d.uri, d.response, d.algorithm, d.cnonce, d.opaqueParam, d.qop, d.nc]

/-- Every value of the credential has `P`. -/
def All (P : String → Prop) (d : DigestCredential) : Prop := ∀ o ∈ d.fields, ∀ v ∈ o, P v

/-- The parameters behind the first one, in the order they are printed. -/
def commaParams (d : DigestCredential) : List Param :=
  fieldParam "realm" d.realm ++ fieldParam "nonce" d.nonce ++ fieldParam "uri" d.uri ++
  fieldParam "response" d.response ++ fieldParam "algorithm" d.algorithm ++
  fieldParam "cnonce" d.cnonce ++ fieldParam "qop" d.qop ++ fieldParam "nc" d.nc ++
  fieldParam "opaque" d.opaqueParam

/-- The parameters as they are printed, in order; a field that is missing is printed as a blank. -/
def params (d : DigestCredential) : List Param := fieldOrBlank "username" d.username :: d.commaParams

/-- **The parameters of a credential fill it again.** -/
theorem foldl_params (d : DigestCredential) : d.params.foldl store {} = d := by
  obtain ⟨realm, username, nonce, uri, response, algorithm, cnonce, opaqueParam, qop, nc⟩ := d
  -- the record as it fills up, one field after the other
  let d₁ : DigestCredential := { username := username }
  let d₂ : DigestCredential := { d₁ with realm := realm }
  let d₃ : DigestCredential := { d₂ with nonce := nonce }
  let d₄ : DigestCredential := { d₃ with uri := uri }
  let d₅ : DigestCredential := { d₄ with response := response }
  let d₆ : DigestCredential := { d₅ with algorithm := algorithm }
  let d₇ : DigestCredential := { d₆ with cnonce := cnonce }
  let d₈ : DigestCredential := { d₇ with qop := qop }
  let d₉ : DigestCredential := { d₈ with nc := nc }
  have h₁ : store {} (fieldOrBlank "username" username) = d₁ :=
    store_fieldOrBlank (fun o => ({ username := o } : DigestCredential)) rfl (fun _ => rfl) username
  have h₂ : (fieldParam "realm" realm).foldl store d₁ = d₂ :=
    foldl_fieldParam (fun o => { d₁ with realm := o }) (fun _ => rfl) realm
  have h₃ : (fieldParam "nonce" nonce).foldl store d₂ = d₃ :=
    foldl_fieldParam (fun o => { d₂ with nonce := o }) (fun _ => rfl) nonce
  have h₄ : (fieldParam "uri" uri).foldl store d₃ = d₄ :=
    foldl_fieldParam (fun o => { d₃ with uri := o }) (fun _ => rfl) uri
  have h₅ : (fieldParam "response" response).foldl store d₄ = d₅ :=
    foldl_fieldParam (fun o => { d₄ with response := o }) (fun _ => rfl) response
  have h₆ : (fieldParam "algorithm" algorithm).foldl store d₅ = d₆ :=
    foldl_fieldParam (fun o => { d₅ with algorithm := o }) (fun _ => rfl) algorithm
  have h₇ : (fieldParam "cnonce" cnonce).foldl store d₆ = d₇ :=
    foldl_fieldParam (fun o => { d₆ with cnonce := o }) (fun _ => rfl) cnonce
  have h₈ : (fieldParam "qop" qop).foldl store d₇ = d₈ :=
    foldl_fieldParam (fun o => { d₇ with qop := o }) (fun _ => rfl) qop
  have h₉ : (fieldParam "nc" nc).foldl store d₈ = d₉ :=
    foldl_fieldParam (fun o => { d₈ with nc := o }) (fun _ => rfl) nc
  have h₁₀ : (fieldParam "opaque" opaqueParam).foldl store d₉ =
      { d₉ with opaqueParam := opaqueParam } :=
    foldl_fieldParam (fun o => { d₉ with opaqueParam := o }) (fun _ => rfl) opaqueParam
  simp only [params, commaParams, List.foldl_cons, List.foldl_append]
  rw [h₁, h₂, h₃, h₄, h₅, h₆, h₇, h₈, h₉, h₁₀]

/-- If every value has a property, then so has every parameter that is printed. -/
theorem field_params {P : String → Prop} {d : DigestCredential} (hd : d.All P) :
    ∀ p ∈ d.params, Param.Field P p := by
  simp only [All, fields, List.forall_mem_cons, List.not_mem_nil, false_implies, implies_true,
    and_true] at hd
  obtain ⟨hrealm, husername, hnonce, huri, hresponse, halgorithm, hcnonce, hopaque, hqop, hnc⟩ := hd
  simp only [params, commaParams, List.forall_mem_cons, List.forall_mem_append]
  exact ⟨field_fieldOrBlank (by decide) husername, ⟨⟨⟨⟨⟨⟨⟨⟨field_fieldParam (by decide) hrealm,
    field_fieldParam (by decide) hnonce⟩, field_fieldParam (by decide) huri⟩,
    field_fieldParam (by decide) hresponse⟩, field_fieldParam (by decide) halgorithm⟩,
    field_fieldParam (by decide) hcnonce⟩, field_fieldParam (by decide) hqop⟩,
    field_fieldParam (by decide) hnc⟩, field_fieldParam (by decide) hopaque⟩⟩

/-- A parameter fills one field, or none. -/
theorem mem_fields_store {d : DigestCredential} {p : Param} {o : Option String}
    (ho : o ∈ (d.store p).fields) : o = p.value ∨ o ∈ d.fields := by
  unfold store at ho
  repeat' split at ho
  all_goals
    simp only [fields, List.mem_cons, List.not_mem_nil, or_false] at ho ⊢
    grind

/-- To store a parameter whose value has a property keeps the property of all values. -/
theorem all_store {P : String → Prop} {d : DigestCredential} {p : Param} (hd : d.All P)
    (hp : ∀ v ∈ p.value, P v) : (d.store p).All P := by
  intro o ho
  rcases mem_fields_store ho with rfl | ho
  · exact hp
  · exact hd o ho

/-- The value of a header with the credential. -/
def text (d : DigestCredential) : String := (Credential.digest d).toText.getD ""

/-- The value of the header is the scheme, a blank and the parameters. -/
theorem asBytes_text (d : DigestCredential) :
    asBytes d.text = asBytes digest ++ ([32] ++ authParamsBytes d.params) := by
  simp only [text, Credential.toText, Option.getD_some, asBytes_append, params, authParamsBytes,
    commaParams, List.flatMap_append,
    asBytes_fieldOrBlank d.username "username=" "username" (by decide),
    asBytes_commaField d.realm ", realm=" "realm" (by decide),
    asBytes_commaField d.nonce ", nonce=" "nonce" (by decide),
    asBytes_commaField d.uri ", uri=" "uri" (by decide),
    asBytes_commaField d.response ", response=" "response" (by decide),
    asBytes_commaField d.algorithm ", algorithm=" "algorithm" (by decide),
    asBytes_commaField d.cnonce ", cnonce=" "cnonce" (by decide),
    asBytes_commaField d.qop ", qop=" "qop" (by decide),
    asBytes_commaField d.nc ", nc=" "nc" (by decide),
    asBytes_commaField d.opaqueParam ", opaque=" "opaque" (by decide)]
  rw [show asBytes "Digest " = asBytes digest ++ [32] by decide]
  simp only [List.append_assoc]

end DigestCredential

/-! ### Digest challenges -/

namespace DigestChallenge

/-- The fields of a challenge. -/
def fields (d : DigestChallenge) : List (Option String) :=
  [d.realm, d.domain, d.nonce, d.opaqueParam, d.stale, d.algorithm, d.qop]

/-- Every value of the challenge has `P`. -/
def All (P : String → Prop) (d : DigestChallenge) : Prop := ∀ o ∈ d.fields, ∀ v ∈ o, P v

/-- The parameters in front of the last one, in the order they are printed. -/
def commaParams (d : DigestChallenge) : List Param :=
  fieldParam "realm" d.realm ++ fieldParam "domain" d.domain ++ fieldParam "nonce" d.nonce ++
  fieldParam "opaque" d.opaqueParam ++ fieldParam "stale" d.stale ++
  fieldParam "algorithm" d.algorithm

/-- The parameters as they are printed, in order; a field that is missing is printed as a blank. -/
def params (d : DigestChallenge) : List Param := d.commaParams ++ [fieldOrBlank "qop" d.qop]

/-- **The parameters of a challenge fill it again.** -/
theorem foldl_params (d : DigestChallenge) : d.params.foldl store {} = d := by
  obtain ⟨realm, domain, nonce, opaqueParam, stale, algorithm, qop⟩ := d
  let d₁ : DigestChallenge := { realm := realm }
  let d₂ : DigestChallenge := { d₁ with domain := domain }
  let d₃ : DigestChallenge := { d₂ with nonce := nonce }
  let d₄ : DigestChallenge := { d₃ with opaqueParam := opaqueParam }
  let d₅ : DigestChallenge := { d₄ with stale := stale }
  let d₆ : DigestChallenge := { d₅ with algorithm := algorithm }
  have h₁ : (fieldParam "realm" realm).foldl store {} = d₁ :=
    foldl_fieldParam (fun o => ({ realm := o } : DigestChallenge)) (fun _ => rfl) realm
  have h₂ : (fieldParam "domain" domain).foldl store d₁ = d₂ :=
    foldl_fieldParam (fun o => { d₁ with domain := o }) (fun _ => rfl) domain
  have h₃ : (fieldParam "nonce" nonce).foldl store d₂ = d₃ :=
    foldl_fieldParam (fun o => { d₂ with nonce := o }) (fun _ => rfl) nonce
  have h₄ : (fieldParam "opaque" opaqueParam).foldl store d₃ = d₄ :=
    foldl_fieldParam (fun o => { d₃ with opaqueParam := o }) (fun _ => rfl) opaqueParam
  have h₅ : (fieldParam "stale" stale).foldl store d₄ = d₅ :=
    foldl_fieldParam (fun o => { d₄ with stale := o }) (fun _ => rfl) stale
  have h₆ : (fieldParam "algorithm" algorithm).foldl store d₅ = d₆ :=
    foldl_fieldParam (fun o => { d₅ with algorithm := o }) (fun _ => rfl) algorithm
  have h₇ : store d₆ (fieldOrBlank "qop" qop) = { d₆ with qop := qop } :=
    store_fieldOrBlank (fun o => { d₆ with qop := o }) rfl (fun _ => rfl) qop
  simp only [params, commaParams, List.foldl_cons, List.foldl_append, List.foldl_nil]
  rw [h₁, h₂, h₃, h₄, h₅, h₆, h₇]

/-- If every value of the challenge has a property, then so has every parameter that is printed. -/
theorem field_params {P : String → Prop} {d : DigestChallenge} (hd : d.All P) :
    ∀ p ∈ d.params, Param.Field P p := by
  simp only [All, fields, List.forall_mem_cons, List.not_mem_nil, false_implies, implies_true,
    and_true] at hd
  obtain ⟨hrealm, hdomain, hnonce, hopaque, hstale, halgorithm, hqop⟩ := hd
  simp only [params, commaParams, List.forall_mem_append, List.forall_mem_singleton]
  exact ⟨⟨⟨⟨⟨⟨field_fieldParam (by decide) hrealm, field_fieldParam (by decide) hdomain⟩,
    field_fieldParam (by decide) hnonce⟩, field_fieldParam (by decide) hopaque⟩,
    field_fieldParam (by decide) hstale⟩, field_fieldParam (by decide) halgorithm⟩,
    field_fieldOrBlank (by decide) hqop⟩

/-- A parameter fills one field, or none. -/
theorem mem_fields_store {d : DigestChallenge} {p : Param} {o : Option String}
    (ho : o ∈ (d.store p).fields) : o = p.value ∨ o ∈ d.fields := by
  unfold store at ho
  repeat' split at ho
  all_goals
    simp only [fields, List.mem_cons, List.not_mem_nil, or_false] at ho ⊢
    grind

/-- To store a parameter of a challenge keeps the property of all values. -/
theorem all_store {P : String → Prop} {d : DigestChallenge} {p : Param} (hd : d.All P)
    (hp : ∀ v ∈ p.value, P v) : (d.store p).All P := by
  intro o ho
  rcases mem_fields_store ho with rfl | ho
  · exact hp
  · exact hd o ho

/-- The value of a header with the challenge. -/
def text (d : DigestChallenge) : String := (Challenge.digest d).toText.getD ""

/-- A challenge is printed in the same way: scheme, blank and parameters. -/
theorem asBytes_text (d : DigestChallenge) :
    asBytes d.text = asBytes digest ++ ([32] ++ authParamsBytes d.params) := by
  rw [params, authParamsBytes_concat]
  simp only [text, Challenge.toText, Option.getD_some, asBytes_append, commaParams,
    List.flatMap_append,
    asBytes_fieldComma d.realm "realm=" "realm" (by decide),
    asBytes_fieldComma d.domain "domain=" "domain" (by decide),
    asBytes_fieldComma d.nonce "nonce=" "nonce" (by decide),
    asBytes_fieldComma d.opaqueParam "opaque=" "opaque" (by decide),
    asBytes_fieldComma d.stale "stale=" "stale" (by decide),
    asBytes_fieldComma d.algorithm "algorithm=" "algorithm" (by decide),
    asBytes_fieldOrBlank d.qop "qop=" "qop" (by decide)]
  rw [show asBytes "Digest " = asBytes digest ++ [32] by decide]
  simp only [List.append_assoc]

end DigestChallenge

/-! ### Reading a digest back -/

/-- Every value of a digest credential has `P`. -/
def Credential.All (P : String → Prop) : Credential → Prop
  | .digest d => d.All P
  | .other _ _ => True

/-- Every value of a digest challenge has `P`. -/
def Challenge.All (P : String → Prop) : Challenge → Prop
  | .digest d => d.All P
  | .other _ _ => True

namespace SipParser

variable {rest : Bytes} {quotes : Prop}

/-- The scheme and the parameters of a digest. -/
theorem reads_digest {α β : Type} (store : α → Param → α) (make : α → β) (other : String → Parse β)
    {ps : List Param} (hne : ps ≠ []) (hps : ∀ p ∈ ps, p.Over isToken) {a d : α}
    (hfill : ps.foldl store a = d) :
    Reads (do
      let scheme ← token
      if scheme = digest then return make (← parseAuthParams store a)
      other scheme) (asBytes digest ++ ([32] ++ authParamsBytes ps)) (13 :: rest)
      (make d) := by
  have hdigest : Over isToken digest := by decide
  have hscheme : Reads token (asBytes digest) (([32] ++ authParamsBytes ps) ++ 13 :: rest) digest :=
    reads_token hdigest (hdigest.stops_eq (by decide) (stops_cons.mpr (by decide)))
      (stops_cons.mpr (by decide))
  apply Reads.bind hscheme
  rw [if_pos rfl]
  apply Reads.bind_nil (reads_parseAuthParams hne hps (by decide) a)
  rw [hfill]
  exact Reads.pure _ _

/-- Credentials are read back if no value needs quotes, a missing field as a blank that stores
    nothing. -/
theorem reads_parseAuthCredential {d : DigestCredential} (hd : d.All (Over isToken)) :
    Reads parseAuthCredential (asBytes d.text) (13 :: rest) (.digest d) := by
  have hne : d.params ≠ [] := by simp [DigestCredential.params]
  rw [DigestCredential.asBytes_text]
  exact reads_digest DigestCredential.store Credential.digest
    (fun scheme => do return .other scheme (← parseParams)) hne (DigestCredential.field_params hd)
    (DigestCredential.foldl_params d)

/-- A challenge is read back if no value needs quotes. -/
theorem reads_parseAuthChallenge {d : DigestChallenge} (hd : d.All (Over isToken)) :
    Reads parseAuthChallenge (asBytes d.text) (13 :: rest) (.digest d) := by
  have hne : d.params ≠ [] := by simp [DigestChallenge.params]
  rw [DigestChallenge.asBytes_text]
  exact reads_digest DigestChallenge.store Challenge.digest
    (fun scheme => do return .other scheme (← parseParams)) hne (DigestChallenge.field_params hd)
    (DigestChallenge.foldl_params d)

/-- Every value of credentials was scanned as a token, or stood between quotes. -/
theorem scanned_parseAuthCredential :
    Yields (Quoteless quotes) (Credential.All (Scanned quotes isToken)) parseAuthCredential := by
  have hempty : DigestCredential.All (Scanned quotes isToken) {} := by
    simp [DigestCredential.All, DigestCredential.fields]
  apply Yields.bind scanned_token
  intro scheme _
  apply Yields.ite
  · apply Yields.bind
      (scanned_parseAuthParams (fun d p hd hp => DigestCredential.all_store hd hp.2) hempty)
    exact fun d hd => Yields.pure hd
  · exact scanned_parseParams.bind fun _ _ => Yields.pure trivial

/-- Every value of a challenge was scanned as a token, or stood between quotes. -/
theorem scanned_parseAuthChallenge :
    Yields (Quoteless quotes) (Challenge.All (Scanned quotes isToken)) parseAuthChallenge := by
  have hempty : DigestChallenge.All (Scanned quotes isToken) {} := by
    simp [DigestChallenge.All, DigestChallenge.fields]
  apply Yields.bind scanned_token
  intro scheme _
  apply Yields.ite
  · apply Yields.bind
      (scanned_parseAuthParams (fun d p hd hp => DigestChallenge.all_store hd hp.2) hempty)
    exact fun d hd => Yields.pure hd
  · exact scanned_parseParams.bind fun _ _ => Yields.pure trivial

/-- No quotes are printed around a value. -/
theorem quoteless_digest {text : String} {ps : List Param}
    (htext : asBytes text = asBytes digest ++ ([32] ++ authParamsBytes ps))
    (hps : ∀ p ∈ ps, p.Scanned quotes isToken) : 34 ∉ asBytes text := by
  rw [htext, List.mem_append, List.mem_append, not_or, not_or]
  exact ⟨by decide, by decide, quoteless_authParams hps⟩

end SipParser

namespace SipParser

/-- A header that is one value inside another. -/
theorem one_field {α β : Type} (toHeader : β → Header) (mk : α → β) (parse : Parse α) :
    one toHeader (do return mk (← parse)) = one (fun a => toHeader (mk a)) parse := by
  simp [one]

end SipParser

section Headers

variable {name : String}

/-- A header with scanned credentials is read back exactly if no value needs quotes. -/
theorem readBack_credential_iff {toHeader : Credential → Header} {d : DigestCredential}
    (h : PrintedAs toHeader parseAuthCredential name d.text (.digest d))
    (hinj : Function.Injective toHeader) (hd : d.All (Scanned True isToken)) :
    (toHeader (.digest d)).ReadBack ↔ d.All (Over isToken) := by
  have hquote := quoteless_digest d.asBytes_text (DigestCredential.field_params hd)
  apply h.readBack_iff_scanned hinj (P := Credential.All (Over isToken)) _ hquote
  · exact fun hover rest => ⟨h.start rest, reads_parseAuthCredential hover⟩
  · apply scanned_parseAuthCredential.imp
    intro c hc
    cases c with
    | digest d => exact fun o ho v hv => (hc o ho v hv).over
    | other scheme params => trivial

/-- A header with a scanned challenge is read back exactly if no value needs quotes. -/
theorem readBack_challenge_iff {toHeader : Challenge → Header} {d : DigestChallenge}
    (h : PrintedAs toHeader parseAuthChallenge name d.text (.digest d))
    (hinj : Function.Injective toHeader) (hd : d.All (Scanned True isToken)) :
    (toHeader (.digest d)).ReadBack ↔ d.All (Over isToken) := by
  have hquote := quoteless_digest d.asBytes_text (DigestChallenge.field_params hd)
  apply h.readBack_iff_scanned hinj (P := Challenge.All (Over isToken)) _ hquote
  · exact fun hover rest => ⟨h.start rest, reads_parseAuthChallenge hover⟩
  · apply scanned_parseAuthChallenge.imp
    intro c hc
    cases c with
    | digest d => exact fun o ho v hv => (hc o ho v hv).over
    | other scheme params => trivial

/-- The value of a digest header starts with its scheme, not with a blank. -/
theorem stops_isSpace_digest {text : String} {params : Bytes}
    (htext : asBytes text = asBytes digest ++ params) (rest : Bytes) :
    Stops isSpace (asBytes text ++ 13 :: rest) := by
  rw [htext]
  exact stops_cons.mpr (by decide)

/-- How an `Authorization` is printed, and by which parser it is read. -/
theorem printedAs_authorization (d : DigestCredential) :
    PrintedAs (fun c => .authorization ⟨c⟩) parseAuthCredential Authorization.name d.text
      (.digest d) where
  text := rfl
  token := by decide
  parser := Or.inl (one_field .authorization Authorization.mk parseAuthCredential)
  start := stops_isSpace_digest d.asBytes_text
  isContentType := rfl

/-- How a `Proxy-Authorization` is printed, and by which parser it is read. -/
theorem printedAs_proxyAuthorization (d : DigestCredential) :
    PrintedAs (fun c => .proxyAuthorization ⟨c⟩) parseAuthCredential ProxyAuthorization.name d.text
      (.digest d) where
  text := rfl
  token := by decide
  parser := Or.inl (one_field .proxyAuthorization ProxyAuthorization.mk parseAuthCredential)
  start := stops_isSpace_digest d.asBytes_text
  isContentType := rfl

/-- How a `Proxy-Authenticate` is printed, and by which parser it is read. -/
theorem printedAs_proxyAuthenticate (d : DigestChallenge) :
    PrintedAs (fun c => .proxyAuthenticate ⟨c⟩) parseAuthChallenge ProxyAuthenticate.name d.text
      (.digest d) where
  text := rfl
  token := by decide
  parser := Or.inl (one_field .proxyAuthenticate ProxyAuthenticate.mk parseAuthChallenge)
  start := stops_isSpace_digest d.asBytes_text
  isContentType := rfl

/-- How a `WWW-Authenticate` is printed, and by which parser it is read. -/
theorem printedAs_wwwAuthenticate (d : DigestChallenge) :
    PrintedAs (fun c => .wwwAuthenticate ⟨c⟩) parseAuthChallenge WWWAuthenticate.name d.text
      (.digest d) where
  text := rfl
  token := by decide
  parser := Or.inl (one_field .wwwAuthenticate WWWAuthenticate.mk parseAuthChallenge)
  start := stops_isSpace_digest d.asBytes_text
  isContentType := rfl

end Headers

/-- **A digest survives re-encoding** in each header it stands in if and only if its values are
    tokens. -/
theorem digest_reencodes_iff (c c' : Scanner) :
    (∀ d : DigestCredential, parseAuthCredential c = .ok (.digest d) c' →
      ((Header.authorization ⟨.digest d⟩).ReadBack ↔ d.All (Over isToken)) ∧
      ((Header.proxyAuthorization ⟨.digest d⟩).ReadBack ↔ d.All (Over isToken))) ∧
    (∀ d : DigestChallenge, parseAuthChallenge c = .ok (.digest d) c' →
      ((Header.proxyAuthenticate ⟨.digest d⟩).ReadBack ↔ d.All (Over isToken)) ∧
      ((Header.wwwAuthenticate ⟨.digest d⟩).ReadBack ↔ d.All (Over isToken))) := by
  constructor
  · intro d hrun
    have hd : d.All (Scanned True isToken) :=
      (scanned_parseAuthCredential c _ c' (Or.inl trivial) hrun).1
    constructor
    · apply readBack_credential_iff (printedAs_authorization d) _ hd
      exact fun _ _ h => Authorization.mk.inj (Header.authorization.inj h)
    · apply readBack_credential_iff (printedAs_proxyAuthorization d) _ hd
      exact fun _ _ h => ProxyAuthorization.mk.inj (Header.proxyAuthorization.inj h)
  · intro d hrun
    have hd : d.All (Scanned True isToken) :=
      (scanned_parseAuthChallenge c _ c' (Or.inl trivial) hrun).1
    constructor
    · apply readBack_challenge_iff (printedAs_proxyAuthenticate d) _ hd
      exact fun _ _ h => ProxyAuthenticate.mk.inj (Header.proxyAuthenticate.inj h)
    · apply readBack_challenge_iff (printedAs_wwwAuthenticate d) _ hd
      exact fun _ _ h => WWWAuthenticate.mk.inj (Header.wwwAuthenticate.inj h)

/-- The condition at headers with one value, a token. -/
theorem digest_reencodes_realm :
    ((Header.authorization ⟨.digest { realm := some "a" }⟩).ReadBack ↔
      DigestCredential.All (Over isToken) { realm := some "a" }) ∧
    ((Header.wwwAuthenticate ⟨.digest { realm := some "a" }⟩).ReadBack ↔
      DigestChallenge.All (Over isToken) { realm := some "a" }) :=
  ⟨((digest_reencodes_iff (Scanner.new (asBytes "Digest realm=\"a\"")) _).1
      { realm := some "a" } rfl).1,
    ((digest_reencodes_iff (Scanner.new (asBytes "Digest realm=\"a\"")) _).2
      { realm := some "a" } rfl).2⟩

/-- A realm with a blank, which has to be quoted: it is accepted, printed without its quotes, and
    not read back. -/
theorem not_digest_reencodes :
    ∃ d : DigestCredential,
      SipParser.fromStr parseAuthCredential "Digest realm=\"a b\"" = .ok (.digest d) ∧
      ¬ (Header.authorization ⟨.digest d⟩).ReadBack := by
  refine ⟨{ realm := some "a b" }, by decide +kernel, ?_⟩
  intro hread
  exact absurd (hread.fromStr rfl) (by decide +kernel)

end Rssip
