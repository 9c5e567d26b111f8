import Rssip.Parser.Reencoding

namespace Rssip

open Lib SipParser

/-!
# Addresses and the parameters behind them

`From`, `To` and `Contact` print an address and then parameters of their own.  A bare URI is read
back without its parameters, which are taken for those of the header.

* `SipUri.Plain` — nothing of the address is lost, or taken for something else;
* `scanned_parseSipUri_printed` — what is read at the start of a printed address;
* `address_readBack_iff` — the headers are read back if and only if the address is plain and no
  parameter of the header has the name of a field;
* `Contact.expires_readBack_iff` — a contact is read back if and only if it has no `expires`, which
  is printed without a name.
-/

/-- An address that is read from a text of its own. -/
def SipUri.fromStr (s : String) : Except Failure SipUri := SipParser.fromStr (parseSipUri true) s

/-- The host of an address. -/
def SipUri.hostPort : SipUri → HostPort
  | .uri u => u.hostPort
  | .nameAddr a => a.uri.hostPort

/-! ### Plain addresses -/

/-- No value of the URI needs quotes, and each header has one. -/
structure Uri.Plain (u : Uri) : Prop where
  userParam : ∀ v ∈ u.userParam, Over isParam v
  maddrParam : ∀ h ∈ u.maddrParam, Over isParam h.toText
  params : ∀ p ∈ u.params.inner, ∀ v ∈ p.value, Over isParam v
  headers : ∀ h ∈ u.headers, ∀ p ∈ h.params.inner, ∃ v ∈ p.value, Over isHdrUri v

/-- A plain URI in angle brackets, or one without parameters and headers. -/
def SipUri.Plain : SipUri → Prop
  | .uri u => u = u.base
  | .nameAddr a => a.uri.Plain

/-- A URI that is nothing but scheme, user and host is plain. -/
theorem Uri.plain_of_eq_base {u : Uri} (h : u = u.base) : u.Plain := by
  rw [h]
  constructor <;> simp [Uri.base]

/-- A scanned URI without quotes is plain if its headers have values. -/
theorem Uri.Scanned.plain {u : Uri} (h : u.Scanned False) (hvalues : u.HeadersHaveValues) :
    u.Plain where
  userParam v hv := (h.userParam v hv).over
  maddrParam host hhost :=
    (h.maddrParam host hhost).wellFormed.over isParam_alphanumeric (by decide) (by decide)
  params p hp v hv := ((h.params p hp).1.2 v hv).over
  headers hs hheaders p hp := by
    obtain ⟨v, hv⟩ := Option.isSome_iff_exists.mp (hvalues hs hheaders p hp)
    exact ⟨v, hv, (((h.headers hs hheaders).2 p hp).2 v hv).over⟩

/-- **A plain URI of the parser can be read back** unless its host is an IPv6 address. -/
theorem Uri.Plain.wellFormed {u : Uri} {quotes : Prop} (h : u.Plain) (hscanned : u.Scanned quotes)
    (hhost : ¬ u.hostPort.host.IsV6) : u.WellFormed where
  user := hscanned.user
  host := hscanned.host.resolve_right hhost
  userParam := h.userParam
  maddrParam host hmaddr := by
    cases host with
    | hostName name => exact ⟨h.maddrParam _ hmaddr, (hscanned.maddrParam _ hmaddr).2⟩
    | ipAddr ip => trivial
  params p hp := ⟨⟨(hscanned.params p hp).1.1, h.params p hp⟩, (hscanned.params p hp).2⟩
  headers hs hheaders := by
    refine ⟨(hscanned.headers hs hheaders).1, fun p hp => ?_⟩
    obtain ⟨v, hv, hover⟩ := h.headers hs hheaders p hp
    refine ⟨⟨((hscanned.headers hs hheaders).2 p hp).1, fun w hw => ?_⟩,
      Option.isSome_iff_exists.mpr ⟨v, hv⟩⟩
    rwa [Option.mem_unique hw hv]

/-- A plain address of the parser is read back, unless its host is an IPv6 address. -/
theorem SipUri.Plain.wellFormed {a : SipUri} {quotes : Prop} {params : Bool} (h : a.Plain)
    (hscanned : a.Scanned quotes params) (hhost : ¬ a.hostPort.host.IsV6) : a.WellFormed := by
  cases a with
  | uri u => exact ⟨(Uri.plain_of_eq_base h).wellFormed hscanned.1 hhost, h⟩
  | nameAddr a => exact ⟨hscanned.1, Uri.Plain.wellFormed h hscanned.2 hhost⟩

/-! ### Headers without a value -/

/-- The URI with the values its headers are printed with. -/
def Uri.filled (u : Uri) : Uri := { u with headers := u.headers.map UriHeaders.filled }

/-- An empty value of a header is printed like a missing one. -/
theorem Uri.toText_filled (u : Uri) : u.filled.toText = u.toText := by
  have hheaders : (u.filled.headers.elim "" fun headers => "?" ++ headers.toText) =
      u.headers.elim "" fun headers => "?" ++ headers.toText := by
    cases h : u.headers with
    | none => simp [filled, h]
    | some hs => simp [filled, h, UriHeaders.toText_filled]
  rw [toText, hheaders]
  rfl

/-- The filled URI could have been scanned as well. -/
theorem Uri.scanned_filled {u : Uri} (hscanned : u.Scanned False) : u.filled.Scanned False where
  user := hscanned.user
  host := hscanned.host
  userParam := hscanned.userParam
  maddrParam := hscanned.maddrParam
  params := hscanned.params
  headers hs hheaders := by
    obtain ⟨h, hh, rfl⟩ := Option.map_eq_some_iff.mp hheaders
    obtain ⟨hne, hps⟩ := hscanned.headers h hh
    have hwf := UriHeaders.wellFormed_filled hne hps
    exact ⟨hwf.1, fun p hp => (hwf.2 p hp).1.scanned⟩

/-- In the filled URI each header has a value. -/
theorem Uri.headersHaveValues_filled (u : Uri) : u.filled.HeadersHaveValues := by
  intro hs hheaders p hp
  obtain ⟨h, -, rfl⟩ := Option.map_eq_some_iff.mp hheaders
  obtain ⟨q, -, rfl⟩ := List.mem_map.mp hp
  rfl

/-- A URI that is filled already has a value for each header. -/
theorem Uri.headersHaveValues_of_filled {u : Uri} (heq : u.filled = u) : u.HeadersHaveValues := by
  intro h hh
  have hheaders : u.headers.map UriHeaders.filled = u.headers := congrArg Uri.headers heq
  rw [Option.mem_def.mp hh, Option.map_some] at hheaders
  exact UriHeaders.isSome_of_filled (Option.some.inj hheaders)

/-- The URI in brackets with the values its headers are printed with. -/
def SipUri.filled : SipUri → SipUri
  | .uri u => .uri u
  | .nameAddr a => .nameAddr { a with uri := a.uri.filled }

/-- The filled address in brackets has the same text as the address. -/
theorem SipUri.toText_filled (a : SipUri) : a.filled.toText = a.toText := by
  cases a with
  | uri u => rfl
  | nameAddr a =>
    show NameAddr.toText { a with uri := a.uri.filled } = a.toText
    rw [NameAddr.toText, Uri.toText_filled]
    rfl

/-- The filled address is read back, unless its host is an IPv6 address. -/
theorem SipUri.wellFormed_filled {a : SipUri} (hscanned : a.Scanned False false)
    (hhost : ¬ a.hostPort.host.IsV6) : a.filled.WellFormed := by
  cases a with
  | uri u =>
    have hplain : (SipUri.uri u).Plain := hscanned.2 rfl
    exact hplain.wellFormed hscanned hhost
  | nameAddr a =>
    exact ⟨hscanned.1, (Uri.scanned_filled hscanned.2).wellFormed hhost a.uri.headersHaveValues_filled⟩

/-- Headers that are read back from one text are the same. -/
theorem Header.ReadBack.eq_of_toText {h h' : Header} (hread : h.ReadBack) (hread' : h'.ReadBack)
    (htext : h.toText = h'.toText) : h = h' := by
  obtain ⟨line, hline, -⟩ := id hread
  have heq := (hread.fromStr hline).symm.trans (hread'.fromStr (htext.symm.trans hline))
  injection heq with heq
  exact (List.cons.inj (Prod.mk.inj heq).1).1

/-- In a header that is read back, the headers of a URI have values. -/
theorem SipUri.plain_of_readBack {a : SipUri} {mk : SipUri → Header} (hinj : Function.Injective mk)
    (htext : ∀ b : SipUri, b.toText = a.toText → (mk b).toText = (mk a).toText)
    (hscanned : a.Scanned False false) (hread : (mk a).ReadBack)
    (hfilled : (mk a.filled).ReadBack) : a.Plain := by
  cases a with
  | uri u => exact hscanned.2 rfl
  | nameAddr a =>
    have heq := hinj (hfilled.eq_of_toText hread (htext _ (SipUri.toText_filled _)))
    have huri : a.uri.filled = a.uri := congrArg NameAddr.uri (SipUri.nameAddr.inj heq)
    exact Uri.Scanned.plain hscanned.2 (Uri.headersHaveValues_of_filled huri)

/-! ### Printed addresses -/

namespace SipParser

variable {rest : Bytes} {quotes : Prop} {tab : LookupTable}

/-- The parameter that a field is printed as could have been scanned, if its value could. -/
theorem scanned_field {α : Type} {o : Option α} {name : String} {toText : α → String}
    (hname : Over tab name) (h : ∀ v ∈ o, Scanned quotes tab (toText v)) :
    ∀ p ∈ (o.map fun v => (⟨name, some (toText v)⟩ : Param)).toList, p.Scanned quotes tab := by
  intro p hp
  rw [Option.mem_toList, Option.map_eq_some_iff] at hp
  obtain ⟨v, hv, rfl⟩ := hp
  refine ⟨hname, ?_⟩
  rintro w ⟨⟩
  exact h v hv

/-- The parameters that a scanned URI prints from its fields could have been scanned. -/
theorem scanned_uriFieldParams {u : Uri} (hscanned : u.Scanned quotes) :
    ∀ p ∈ u.fieldParams, p.Scanned quotes isParam := by
  have hmethod : ∀ m : SipMethod, Over isParam m.asStr := by intro m; cases m <;> decide
  have htransport : ∀ t : TransportProtocol, Over isParam t.asLowerCase := by
    intro t; cases t <;> decide
  have hlr : ∀ p ∈ (if u.lrParam then [⟨Params.lr, none⟩] else [] : List Param),
      p.Scanned quotes isParam := by
    cases u.lrParam with
    | false => exact fun p hp => absurd hp List.not_mem_nil
    | true =>
      intro p hp
      rw [List.mem_singleton.mp hp]
      exact ⟨(by decide : Over isParam Params.lr), by simp⟩
  have hmaddr : ∀ h ∈ u.maddrParam, Scanned quotes isParam h.toText := by
    intro h hh
    cases h with
    | hostName name => exact (hscanned.maddrParam _ hh).1
    | ipAddr ip => exact Or.inl (over_ipAddr isParam_alphanumeric (by decide) (by decide) ip)
  simp only [Uri.fieldParams, List.forall_mem_append]
  refine ⟨⟨⟨⟨⟨?_, ?_⟩, ?_⟩, ?_⟩, ?_⟩, hlr⟩
  · exact scanned_field (by decide) hscanned.userParam
  · exact scanned_field (by decide) fun m _ => Or.inl (hmethod m)
  · exact scanned_field (by decide) hmaddr
  · exact scanned_field (by decide) fun t _ => Or.inl (htransport t)
  · exact scanned_field (by decide) fun n _ => Or.inl (over_decimal isParam_alphanumeric n.toNat)

/-- A user part prints no quote: neither of its tables has one. -/
theorem quoteless_userInfo {user : Option UserInfo} (hwf : ∀ i ∈ user, i.WellFormed) :
    34 ∉ asBytes (user.elim "" UserInfo.toText) := by
  cases user with
  | none => simp
  | some i =>
    obtain ⟨huser, hpass⟩ := hwf i rfl
    simp only [Option.elim_some, UserInfo.toText, asBytes_append, List.mem_append, not_or]
    refine ⟨⟨huser.not_mem (by decide), ?_⟩, by decide⟩
    cases hsome : i.pass with
    | none => simp
    | some pass =>
      rw [Option.elim_some, asBytes_append, List.mem_append, not_or]
      exact ⟨by decide, (hpass pass hsome).not_mem (by decide)⟩

/-- **No quotes are printed in a URI.** -/
theorem quoteless_uri {u : Uri} (hscanned : u.Scanned quotes) : 34 ∉ asBytes u.toText := by
  rw [asBytes_uri]
  simp only [List.mem_append, not_or]
  refine ⟨⟨?_, by decide⟩, quoteless_userInfo hscanned.user, ?_, ?_, ?_⟩
  · cases u.scheme <;> decide
  · intro hmem
    exact absurd (mem_hostPort hscanned.host 34 hmem) (by decide)
  · have hparams : ∀ p ∈ u.fieldParams ++ u.params.inner, p.Scanned quotes isParam :=
      List.forall_mem_append.mpr
        ⟨scanned_uriFieldParams hscanned, fun p hp => (hscanned.params p hp).1⟩
    exact quoteless_paramsBytes (by decide) hparams
  · cases hsome : u.headers with
    | none => simp
    | some h =>
      rw [Option.elim_some, asBytes_append, List.mem_append, not_or]
      exact ⟨by decide, quoteless_uriHeaders (hscanned.headers h hsome).2⟩

/-- A printed URI is taken for a URI, whatever is made of it. -/
theorem parseSipUri_of_uri {u : Uri} {b : SipUri} {params : Bool} {c c' : Scanner}
    (hc : c.remaining = asBytes u.toText ++ rest) (hrun : parseSipUri params c = .ok b c') :
    ∃ v, b = .uri v ∧ parseUri params c = .ok v c' := by
  have hspace : Reads skipWs [] c.remaining () := by
    rw [hc]
    exact reads_skipWs_nil (stops_isSpace_sipUri (.uri u) rest)
  have hhead : c.remaining.head? = some 115 := hc ▸ head?_uri u rest
  have hnil : Cursor.remaining c = [] ++ c.remaining := rfl
  -- the scheme is in sight, so this is no display name
  rw [parseSipUri, hspace.bind_run hnil, advance_nil, reads_peek.bind_run hnil, advance_nil,
    hhead, if_neg (by decide), get_bind_eq_ok_iff, peekWhile_uri hc] at hrun
  rw [if_pos (scheme_bytes u.scheme)] at hrun
  obtain ⟨v, c₁, hparse, hpure⟩ := bind_eq_ok_iff.mp hrun
  injection hpure with hb hc₁
  exact ⟨v, hb.symm, hc₁ ▸ hparse⟩

/-- A printed name-addr is read up to the bracket, whatever is made of the URI. -/
theorem parseSipUri_of_nameAddr {a : NameAddr} {b : SipUri} {params : Bool}
    (hdisplay : ∀ d ∈ a.display, 34 ∉ asBytes d) {c c' : Scanner}
    (hc : c.remaining = asBytes a.toText ++ rest) (hrun : parseSipUri params c = .ok b c') :
    ∃ v c₁ c₂, b = .nameAddr ⟨a.display, v⟩ ∧
      c₁.remaining = asBytes a.uri.toText ++ ([62] ++ rest) ∧ parseUri true c₁ = .ok v c₂ ∧
      mustRead 62 c₂ = .ok () c' := by
  have hspace : Reads skipWs [] c.remaining () := by
    rw [hc]
    exact reads_skipWs_nil (stops_isSpace_sipUri (.nameAddr a) rest)
  have hhead : c.remaining.head? = some 34 ∨ c.remaining.head? = some 60 :=
    hc ▸ head?_nameAddr a rest
  have hnil : Cursor.remaining c = [] ++ c.remaining := rfl
  rw [parseSipUri, hspace.bind_run hnil, advance_nil, reads_peek.bind_run hnil, advance_nil,
    if_pos hhead] at hrun
  obtain ⟨addr, c₃, hrun, hpure⟩ := bind_eq_ok_iff.mp hrun
  injection hpure with hb hc₃
  rw [parseNameAddr, hspace.bind_run hnil, advance_nil] at hrun
  -- what is left in front of the bracket is read, with the blank behind it
  have hbracket : ∃ c₄ : Scanner, c₄.remaining = [60] ++ (asBytes a.uri.toText ++ ([62] ++ rest)) ∧
      (do
        mustRead 60
        let uri ← parseUri true
        mustRead 62
        return (⟨a.display, uri⟩ : NameAddr)) c₄ = .ok addr c₃ := by
    rw [asBytes_nameAddr] at hc
    cases hd : a.display with
    | none =>
      rw [hd, displayBytes, List.nil_append] at hc
      have hnone : Reads parseDisplayName [] c.remaining none := by
        rw [hc]
        exact reads_parseDisplayName_none
      rw [hnone.bind_run hnil, advance_nil, hspace.bind_run hnil, advance_nil] at hrun
      refine ⟨c, ?_, hrun⟩
      rw [hc, List.append_assoc, List.append_assoc]
    | some d =>
      rw [hd, displayBytes, List.append_assoc, List.append_assoc] at hc
      rw [(reads_parseDisplayName_some (hdisplay d hd)).bind_run hc] at hrun
      have hc₁ := remaining_advance (σ := Scanner) hc
      have hblank : Reads skipWs [32] ([60] ++ (asBytes a.uri.toText ++ [62]) ++ rest) () :=
        reads_skipWs (by decide) (stops_cons.mpr (by decide))
      rw [hblank.bind_run hc₁] at hrun
      have hc₂ := remaining_advance (σ := Scanner) hc₁
      refine ⟨_, ?_, hrun⟩
      rw [List.append_assoc, List.append_assoc] at hc₂
      exact hc₂
  obtain ⟨c₄, hc₄, hrun⟩ := hbracket
  rw [reads_mustRead.bind_run hc₄] at hrun
  have hc₅ := remaining_advance (σ := Scanner) hc₄
  obtain ⟨v, c₆, hparse, hrun⟩ := bind_eq_ok_iff.mp hrun
  obtain ⟨_, c₇, hclose, hrun⟩ := bind_eq_ok_iff.mp hrun
  injection hrun with haddr hc₇
  refine ⟨v, _, c₆, ?_, hc₅, hparse, ?_⟩
  · rw [← hb, ← haddr]
  · rw [← hc₃, ← hc₇]
    exact hclose

/-- **What is read at the start of a printed address**: only a display name is taken from between
    quotes. -/
theorem scanned_parseSipUri_printed {a b : SipUri} {params params' : Bool}
    (ha : a.Scanned True params) (hrest : quotes ∨ 34 ∉ rest) {c c' : Scanner}
    (hc : c.remaining = asBytes a.toText ++ rest) (hrun : parseSipUri params' c = .ok b c') :
    b.Scanned quotes params' ∧ Quoteless quotes c' := by
  have hquoteless : ∀ {c : Scanner} {text after : Bytes}, c.remaining = text ++ (after ++ rest) →
      34 ∉ text → 34 ∉ after → Quoteless quotes c := by
    intro c text after hc htext hafter
    apply hrest.imp_right
    intro hrest
    rw [hc]
    simp only [List.mem_append, not_or]
    exact ⟨htext, hafter, hrest⟩
  cases a with
  | uri u =>
    obtain ⟨v, rfl, hparse⟩ := parseSipUri_of_uri hc hrun
    have hc₀ : c.remaining = asBytes u.toText ++ ([] ++ rest) := hc
    exact scanned_parseUri params' c v c' (hquoteless hc₀ (quoteless_uri ha.1) (by simp)) hparse
  | nameAddr a =>
    obtain ⟨v, c₁, c₂, rfl, hc₁, hparse, hclose⟩ := parseSipUri_of_nameAddr ha.1 hc hrun
    obtain ⟨hv, hc₂⟩ := scanned_parseUri true c₁ v c₂
      (hquoteless hc₁ (quoteless_uri ha.2) (by decide)) hparse
    exact ⟨⟨ha.1, hv.1⟩, (keepsQuoteless (ends_mustRead 62) c₂ () c' hc₂ hclose).2⟩

/-- **No IPv6 address is made from a printed address.** -/
theorem not_isV6_of_parseSipUri {a b : SipUri} {params : Bool} (ha : a.Scanned False false)
    (hrest : NoUserPart rest) {c c' : Scanner} (hc : c.remaining = asBytes a.toText ++ rest)
    (hrun : parseSipUri params c = .ok b c') : ¬ b.hostPort.host.IsV6 := by
  cases a with
  | uri u =>
    obtain ⟨v, rfl, hparse⟩ := parseSipUri_of_uri hc hrun
    have hvalues : u.HeadersHaveValues := by
      rw [ha.2 rfl]
      simp [Uri.HeadersHaveValues, Uri.base]
    exact not_isV6_of_parseUri ha.1 hvalues hrest hc hparse
  | nameAddr a =>
    obtain ⟨v, c₁, c₂, rfl, hc₁, hparse, -⟩ := parseSipUri_of_nameAddr ha.1 hc hrun
    have hclose : NoUserPart ([62] ++ rest) := noUserPart_of_stop (by decide) rest
    rw [← a.uri.toText_filled] at hc₁
    exact not_isV6_of_parseUri (Uri.scanned_filled ha.2) a.uri.headersHaveValues_filled hclose hc₁
      hparse

/-! ### Tags -/

/-- The tag of an address is scanned, and what is handed back has another name. -/
theorem scanned_storeTag {tag : Option String} {p : Param}
    (htag : ∀ t ∈ tag, Scanned quotes isToken t) (hp : p.Scanned quotes isToken) :
    Yields (Quoteless quotes) (fun r : Option String × Option Param =>
      (∀ t ∈ r.1, Scanned quotes isToken t) ∧ ∀ q ∈ r.2, q.name ≠ Params.tag) (storeTag tag p) := by
  unfold storeTag
  split
  · exact Yields.pure ⟨hp.2, by simp⟩
  · refine Yields.pure ⟨htag, ?_⟩
    rintro q ⟨⟩
    assumption

/-- What is read behind a printed address: no parameter given back has the name of the tag. -/
theorem scanned_parseTagged_printed {a b : SipUri} {tag : Option String} {params : Params}
    (ha : a.Scanned True true) (hrest : quotes ∨ 34 ∉ rest) {c c' : Scanner}
    (hc : c.remaining = asBytes a.toText ++ rest)
    (hrun : parseTagged c = .ok (b, tag, params) c') :
    b.Scanned quotes false ∧ (∀ t ∈ tag, Scanned quotes isToken t) ∧
      ∀ p ∈ params.inner, p.name ≠ Params.tag := by
  obtain ⟨uri, c₁, huri, hrun⟩ := bind_eq_ok_iff.mp hrun
  obtain ⟨⟨tag', params'⟩, c₂, hparams, hrun⟩ := bind_eq_ok_iff.mp hrun
  injection hrun with hr _
  injection hr with hb hr
  injection hr with htag hps
  obtain ⟨hscanned, hquoteless⟩ := scanned_parseSipUri_printed ha hrest hc huri
  have hnone : ∀ t ∈ (none : Option String), Scanned quotes isToken t := by simp
  have hloop := yields_parseParamsWith (P := fun tag => ∀ t ∈ tag, Scanned quotes isToken t)
    inherited_quoteless scanned_paramRef (fun _ _ htag hp => scanned_storeTag htag hp) hnone
  obtain ⟨htags, hnames⟩ := (hloop c₁ _ c₂ hquoteless hparams).1
  rw [← hb, ← htag, ← hps]
  exact ⟨hscanned, htags, hnames⟩

end SipParser

section Tagged

variable {toHeader : SipUri × Option String × Params → Header} {name : String} {a : SipUri}
  {tag : Option String} {params : Params}

/-- The condition under which a tagged address is read back. -/
theorem readBack_tagged_iff
    (h : ∀ a tag params, PrintedAs toHeader parseTagged name (taggedValue a tag params)
      (a, tag, params))
    (hinj : Function.Injective toHeader) (ha : a.Scanned True true)
    (hhost : ¬ a.hostPort.host.IsV6) (hparams : ∀ p ∈ params.inner, p.Over isToken) :
    (toHeader (a, tag, params)).ReadBack ↔
      a.Plain ∧ (∀ t ∈ tag, Over isToken t) ∧ ∀ p ∈ params.inner, p.name ≠ Params.tag := by
  have hwf : ∀ b : SipUri, b.WellFormed → (∀ t ∈ tag, Over isToken t) →
      (∀ p ∈ params.inner, p.name ≠ Params.tag) → (toHeader (b, tag, params)).ReadBack := by
    intro b hb htag hnames
    have hgeneric : ∀ p ∈ params.inner, p.Generic isToken [Params.tag] :=
      fun p hp => ⟨hparams p hp, by simpa using hnames p hp⟩
    exact (h b tag params).readBack fun rest => reads_parseTagged ⟨hb, htag, hgeneric⟩
  constructor
  · intro hread
    obtain ⟨c, c', hc, hrun⟩ := (h a tag params).parse_of_readBack hinj hread
    rw [taggedValue, asBytes_append, asBytes_append, List.append_assoc, List.append_assoc] at hc
    -- a tag that was read has no quotes, so that none were printed
    have hquote : ∀ t ∈ tag, 34 ∉ asBytes t := by
      intro t ht
      obtain ⟨-, htags, -⟩ := scanned_parseTagged_printed ha (Or.inl trivial) hc hrun
      exact (htags t ht).not_mem (by decide)
    have htag34 : 34 ∉ asBytes (tag.elim "" fun tag => ";tag=" ++ tag) := by
      cases tag with
      | none => simp
      | some t =>
        rw [Option.elim_some, asBytes_append, List.mem_append, not_or]
        exact ⟨by decide, hquote t rfl⟩
    have hscan : ∀ p ∈ params.inner, p.Scanned False isToken :=
      fun p hp => (hparams p hp).scanned
    have hparams34 : 34 ∉ asBytes params.toText := quoteless_params hscan
    have hrest : False ∨ 34 ∉ asBytes (tag.elim "" fun tag => ";tag=" ++ tag) ++
        (asBytes params.toText ++ [13, 10]) := by
      simp only [List.mem_append, not_or]
      exact Or.inr ⟨htag34, hparams34, by decide⟩
    obtain ⟨hscanned, htags, hnames⟩ := scanned_parseTagged_printed ha hrest hc hrun
    have hover : ∀ t ∈ tag, Over isToken t := fun t ht => (htags t ht).over
    have hmk : Function.Injective fun b : SipUri => toHeader (b, tag, params) :=
      fun _ _ heq => (Prod.mk.inj (hinj heq)).1
    refine ⟨SipUri.plain_of_readBack hmk ?_ hscanned hread
      (hwf a.filled (SipUri.wellFormed_filled hscanned hhost) hover hnames), hover, hnames⟩
    intro b htext
    rw [(h b tag params).text, (h a tag params).text, taggedValue, taggedValue, htext]
  · rintro ⟨hplain, htag, hnames⟩
    exact hwf a (hplain.wellFormed ha hhost) htag hnames

end Tagged

/-- How a `To` is printed, and by which parser it is read. -/
theorem printedAs_to (a : SipUri) (tag : Option String) (params : Params) :
    PrintedAs (fun r : SipUri × Option String × Params => .toHdr ⟨r.1, r.2.1, r.2.2⟩) parseTagged
      To.name (taggedValue a tag params) (a, tag, params) where
  text := rfl
  token := by decide
  parser := Or.inl (one_field .toHdr (fun r : SipUri × Option String × Params =>
    To.mk r.1 r.2.1 r.2.2) parseTagged)
  start rest := stops_isSpace_tagged a tag params (13 :: rest)
  isContentType := rfl

/-- How a `From` is printed, and by which parser it is read. -/
theorem printedAs_from (a : SipUri) (tag : Option String) (params : Params) :
    PrintedAs (fun r : SipUri × Option String × Params => .fromHdr ⟨r.1, r.2.1, r.2.2⟩) parseTagged
      From.name (taggedValue a tag params) (a, tag, params) where
  text := rfl
  token := by decide
  parser := Or.inl (one_field .fromHdr (fun r : SipUri × Option String × Params =>
    From.mk r.1 r.2.1 r.2.2) parseTagged)
  start rest := stops_isSpace_tagged a tag params (13 :: rest)
  isContentType := rfl

/-! ### Contacts -/

namespace SipParser

variable {rest : Bytes} {quotes : Prop}

/-- What a contact does not keep in a field has none of the names of its fields. -/
theorem names_storeContactParam (h : Contact) (p : Param) :
    Yields (fun _ => True) (fun r : Contact × Option Param =>
      r.1.uri = h.uri ∧ ∀ q ∈ r.2, q.name ∉ [Params.q, Params.expires]) (storeContactParam h p) := by
  have hvalue : ∀ {α : Type} {r : Parse α} {f : α → Contact}, (∀ a, (f a).uri = h.uri) →
      Yields (fun _ => True) (fun r : Contact × Option Param =>
        r.1.uri = h.uri ∧ ∀ q ∈ r.2, q.name ∉ [Params.q, Params.expires])
        (r >>= fun a => Pure.pure (f a, none)) := by
    intro α r f hf
    apply Yields.bind (P := fun _ => True) fun _ _ _ _ _ => ⟨trivial, trivial⟩
    exact fun a _ => Yields.pure ⟨hf a, by simp⟩
  unfold storeContactParam
  split
  · exact hvalue fun _ => rfl
  split
  · exact hvalue fun _ => rfl
  · refine Yields.pure ⟨rfl, ?_⟩
    rintro q ⟨⟩
    simp only [List.mem_cons, List.not_mem_nil, or_false, not_or]
    exact ⟨‹_›, ‹_›⟩

/-- What is read behind a printed address: no parameter given back has the name of a field. -/
theorem scanned_parseContact_printed {a : SipUri} {h : Contact} (ha : a.Scanned True true)
    (hrest : quotes ∨ 34 ∉ rest) {c c' : Scanner} (hc : c.remaining = asBytes a.toText ++ rest)
    (hrun : Contact.parse c = .ok h c') :
    h.uri.Scanned quotes false ∧ ∀ p ∈ h.param.inner, p.name ∉ [Params.q, Params.expires] := by
  obtain ⟨uri, c₁, huri, hrun⟩ := bind_eq_ok_iff.mp hrun
  obtain ⟨⟨h', params⟩, c₂, hparams, hrun⟩ := bind_eq_ok_iff.mp hrun
  injection hrun with hh _
  obtain ⟨hscanned, -⟩ := scanned_parseSipUri_printed ha hrest hc huri
  obtain ⟨huri', hnames⟩ := keeps_parseParamsWith (P := fun h : Contact => h.uri = uri)
    (fun h p hh => (names_storeContactParam h p).imp fun r hr => ⟨hr.1.trans hh, hr.2⟩) rfl hparams
  have hkept : h.uri = uri := by
    rw [← hh]
    exact huri'
  rw [hkept, ← hh]
  exact ⟨hscanned, hnames⟩

end SipParser

/-- How a `Contact` without an expiry is printed, and by which parser it is read. -/
theorem printedAs_contact (a : SipUri) (q : Option Q) (params : Params) :
    PrintedAs .contact Contact.parse Contact.name (contactValue ⟨a, q, none, params⟩)
      ⟨a, q, none, params⟩ where
  text := by
    show some (Contact.toText ⟨a, q, none, params⟩) = _
    rw [Contact.toText, Option.elim_none, String.append_empty]
    rfl
  token := by decide
  parser := Or.inr rfl
  start rest := by
    rw [asBytes_contactValue, List.append_assoc]
    exact stops_isSpace_sipUri _ _
  isContentType := rfl

/-- A scanned contact without an expiry is read back exactly if its address is. -/
theorem readBack_contact_iff {a : SipUri} {q : Option Q} {params : Params} (ha : a.Scanned True true)
    (hhost : ¬ a.hostPort.host.IsV6) (hparams : ∀ p ∈ params.inner, p.Over isToken) :
    (Header.contact ⟨a, q, none, params⟩).ReadBack ↔
      a.Plain ∧ ∀ p ∈ params.inner, p.name ∉ [Params.q, Params.expires] := by
  have hinj : Function.Injective Header.contact := fun _ _ => Header.contact.inj
  have hwf : ∀ b : SipUri, b.WellFormed →
      (∀ p ∈ params.inner, p.name ∉ [Params.q, Params.expires]) →
      (Header.contact ⟨b, q, none, params⟩).ReadBack := by
    intro b hb hnames
    have hcontact : Contact.WellFormed ⟨b, q, none, params⟩ :=
      ⟨hb, rfl, fun p hp => ⟨hparams p hp, hnames p hp⟩⟩
    exact Header.WellFormed.readBack (h := .contact ⟨b, q, none, params⟩) hcontact
  constructor
  · intro hread
    obtain ⟨c, c', hc, hrun⟩ := (printedAs_contact a q params).parse_of_readBack hinj hread
    rw [asBytes_contactValue, List.append_assoc] at hc
    have hover : ∀ p ∈ qParams q ++ params.inner, p.Scanned False isToken :=
      fun p hp => (over_contactParams q hparams p hp).scanned
    have hrest : False ∨ 34 ∉ paramsBytes (qParams q ++ params.inner) ++ [13, 10] := by
      rw [List.mem_append, not_or]
      exact Or.inr ⟨quoteless_paramsBytes (by decide) hover, by decide⟩
    -- no quotes are printed behind the address, so that what was read is scanned
    obtain ⟨hscanned, hnames⟩ := scanned_parseContact_printed ha hrest hc hrun
    have hmk : Function.Injective fun b : SipUri => Header.contact ⟨b, q, none, params⟩ :=
      fun _ _ heq => (Contact.mk.inj (hinj heq)).1
    refine ⟨SipUri.plain_of_readBack hmk ?_ hscanned hread
      (hwf a.filled (SipUri.wellFormed_filled hscanned hhost) hnames), hnames⟩
    intro b htext
    rw [(printedAs_contact b q params).text, (printedAs_contact a q params).text, contactValue,
      contactValue, htext]
  · rintro ⟨hplain, hnames⟩
    exact hwf a (hplain.wellFormed ha hhost) hnames

/-- **Address headers keep URI and header parameters apart** if and only if a bare URI has none,
    the values of a URI in brackets can be printed as they are, and no parameter of the header has
    the name of one of its fields. -/
theorem address_readBack_iff (s : String) (a : SipUri) (hread : SipUri.fromStr s = .ok a)
    (hhost : ¬ a.hostPort.host.IsV6) (params : Params)
    (hparams : ∀ p ∈ params.inner, p.Over isToken) :
    (∀ tag : Option String,
      ((Header.toHdr ⟨a, tag, params⟩).ReadBack ↔ a.Plain ∧ (∀ t ∈ tag, Over isToken t) ∧
        ∀ p ∈ params.inner, p.name ≠ Params.tag) ∧
      ((Header.fromHdr ⟨a, tag, params⟩).ReadBack ↔ a.Plain ∧ (∀ t ∈ tag, Over isToken t) ∧
        ∀ p ∈ params.inner, p.name ≠ Params.tag)) ∧
    (∀ q : Option Q, (Header.contact ⟨a, q, none, params⟩).ReadBack ↔
      a.Plain ∧ ∀ p ∈ params.inner, p.name ∉ [Params.q, Params.expires]) := by
  obtain ⟨c, hrun⟩ := fromStr_eq_ok_iff.mp hread
  have ha : a.Scanned True true := (scanned_parseSipUri true _ a c (Or.inl trivial) hrun).1
  refine ⟨fun tag => ⟨?_, ?_⟩, fun q => readBack_contact_iff ha hhost hparams⟩
  · apply readBack_tagged_iff printedAs_to _ ha hhost hparams
    rintro ⟨_, _, _⟩ ⟨_, _, _⟩ ⟨⟩
    rfl
  · apply readBack_tagged_iff printedAs_from _ ha hhost hparams
    rintro ⟨_, _, _⟩ ⟨_, _, _⟩ ⟨⟩
    rfl

/-- `sip:bob@example.com` -/
def Uri.ofBob : Uri :=
  { scheme := .sip, user := some ⟨"bob", none⟩, hostPort := ⟨.hostName "example.com", none⟩ }

/-- The condition at a name-addr with a tag, where both sides hold. -/
theorem address_readBack_ofBob :
    ((Header.toHdr ⟨.nameAddr ⟨some "Bob", { Uri.ofBob with lrParam := true }⟩, some "1",
        ⟨[⟨"a", some "b"⟩]⟩⟩).ReadBack ↔
      (SipUri.nameAddr ⟨some "Bob", { Uri.ofBob with lrParam := true }⟩).Plain ∧
      (∀ t ∈ some "1", Over isToken t) ∧ ∀ p ∈ [(⟨"a", some "b"⟩ : Param)], p.name ≠ Params.tag) :=
  ((address_readBack_iff "\"Bob\" <sip:bob@example.com;lr>"
    (.nameAddr ⟨some "Bob", { Uri.ofBob with lrParam := true }⟩) (by decide +kernel) (by decide)
    ⟨[⟨"a", some "b"⟩]⟩ (by decide)).1 (some "1")).1

/-- A bare URI with a parameter, which is read back as one of the header. -/
theorem not_address_readBack :
    ∃ a : SipUri, SipUri.fromStr "sip:bob@example.com;lr" = .ok a ∧ ¬ a.hostPort.host.IsV6 ∧
      ¬ (Header.toHdr ⟨a, none, {}⟩).ReadBack := by
  refine ⟨.uri { Uri.ofBob with lrParam := true }, by decide +kernel, by decide, ?_⟩
  intro hread
  exact absurd (hread.fromStr rfl) (by decide +kernel)

/-! ### Contacts that expire -/

/-- A contact that is read from a text of its own. -/
def Contact.fromStr (s : String) : Except Failure Contact := SipParser.fromStr Contact.parse s

/-- What is printed behind the name of the header. -/
def Contact.value (h : Contact) : String :=
  h.uri.toText ++ (h.q.elim "" Q.toText) ++ (h.expires.elim "" fun expires => decimal expires.toNat) ++
    h.param.toText

/-- A contact is printed as its name and its value. -/
theorem Contact.toText_eq (h : Contact) : h.toText = headerLine Contact.name h.value := rfl

namespace SipParser

variable {rest : Bytes} {v : String} {ps : List Param}

/-- Where no semicolon comes next there are no parameters. -/
theorem reads_parseParamsWith_none {α : Type} {ref : Parse Param}
    {store : α → Param → Parse (α × Option Param)} (a : α) (hspace : Stops isSpace rest)
    (hsemi : Stops (· == 59) rest) : Reads (parseParamsWith ref store a) [] rest (a, ⟨[]⟩) := by
  apply Reads.bind_nil (reads_skipWs_nil hspace)
  apply Reads.loop
  apply Iterates.done
  apply Reads.bind_nil (reads_takeIfEq_none hsemi)
  exact Reads.pure _ _

/-- A list of parameters cannot be read if the first one cannot be stored. -/
theorem fails_parseParamsWith {α : Type} {store : α → Param → Parse (α × Option Param)} {a : α}
    {p : Param} (hp : p.Over isToken) (hname : asBytes p.refText ≠ [])
    (hnext : Stops (inParam isToken) (paramsBytes ps ++ rest))
    (hstore : ∀ text, Fails (store a p) text) :
    Fails (parseParamsWith paramRef store a) (paramsBytes (p :: ps) ++ rest) := by
  have hsemi : Stops isSpace (paramsBytes (p :: ps) ++ rest) := stops_cons.mpr (by decide)
  have hstart : Stops isSpace (asBytes p.refText ++ (paramsBytes ps ++ rest)) :=
    stops_isSpace_refText isToken_table hp fun h => absurd h hname
  have htext : paramsBytes (p :: ps) ++ rest =
      [59] ++ (asBytes p.refText ++ (paramsBytes ps ++ rest)) := by
    simp [paramsBytes]
  apply Fails.reads_bind (reads_skipWs_nil hsemi)
  apply Fails.loop
  apply Fails.loopN
  rw [htext]
  apply Fails.reads_bind reads_takeIfEq_some
  apply Fails.reads_bind (reads_paramRef_nil isToken_table hp hstart hnext)
  exact Fails.bind (hstore _)

/-- A contact is not read with a quality that is none. -/
theorem fails_storeContactParam_q {h : Contact} (hv : Q.fromStr v = none) (text : Bytes) :
    Fails (storeContactParam h ⟨Params.q, some v⟩) text := by
  rw [storeContactParam_q]
  apply Fails.bind
  rw [parseQ, hv]
  exact fun s _ => ⟨_, s, rfl⟩

/-- A contact in brackets is read back at the end of a text. -/
theorem reads_parseContact_nil {a : NameAddr} (hwf : a.WellFormed) {q : Option Q} {qs : List Param}
    (hstores : Stores storeContactParam ⟨.nameAddr a, none, none, {}⟩ ps ⟨.nameAddr a, q, none, {}⟩ qs)
    (hps : ∀ p ∈ ps, p.Over isToken) :
    Reads Contact.parse (asBytes a.toText ++ paramsBytes ps) [] ⟨.nameAddr a, q, none, ⟨qs⟩⟩ := by
  apply Reads.bind (reads_parseSipUri_nameAddr hwf false)
  apply Reads.bind_nil (reads_parseParamsWith_nil isToken_table hstores (stops_nil _) (stops_nil _)
    (stops_nil _) hps)
  exact Reads.pure _ _

/-- Digits behind an address end it, and no parameter is read behind them. -/
theorem reads_parseContact_digits {a : NameAddr} (hwf : a.WellFormed) (n : UInt32) (text : Bytes) :
    Reads Contact.parse (asBytes a.toText) (asBytes (decimal n.toNat) ++ text)
      ⟨.nameAddr a, none, none, {}⟩ := by
  have hsemi : Stops (· == 59) (asBytes (decimal n.toNat) ++ text) := by
    apply (over_decimal isToken_alphanumeric n.toNat).stops
    · intro b hb
      have hne : b ≠ 59 := by
        rintro rfl
        exact absurd hb (by decide)
      simpa using hne
    · exact fun hnil => absurd hnil (asBytes_decimal_ne_nil n.toNat)
  apply Reads.bind_nil (reads_parseSipUri_nameAddr hwf false)
  apply Reads.bind_nil (reads_parseParamsWith_none _ (stops_isSpace_decimal _ _) hsemi)
  exact Reads.pure _ _

/-- What stands for `q` in front of the other parameters: they are read behind it, or nothing is. -/
theorem parseContact_q {a : NameAddr} (hwf : a.WellFormed) (hover : Over isToken v)
    (hps : ∀ p ∈ ps, p.Generic isToken [Params.q, Params.expires]) {c c' : Scanner}
    (hc : c.remaining = asBytes a.toText ++ paramsBytes (⟨Params.q, some v⟩ :: ps)) {h : Contact}
    (hrun : Contact.parse c = .ok h c') : h.expires = none := by
  have hp : Param.Over isToken ⟨Params.q, some v⟩ := by
    refine ⟨(by decide : Over isToken Params.q), ?_⟩
    rintro w ⟨⟩
    exact hover
  have hall : ∀ p ∈ (⟨Params.q, some v⟩ :: ps : List Param), p.Over isToken :=
    List.forall_mem_cons.mpr ⟨hp, fun p hp => (hps p hp).1⟩
  -- what stands for `q` is a number or it is not, whatever it was printed for
  cases hv : Q.fromStr v with
  | none =>
    have hnext : Stops (inParam isToken) (paramsBytes ps ++ []) :=
      stops_params (by decide) (stops_nil _)
    have hfails : Fails Contact.parse
        (asBytes a.toText ++ (paramsBytes (⟨Params.q, some v⟩ :: ps) ++ [])) := by
      apply Fails.reads_bind (reads_parseSipUri_nameAddr hwf false)
      apply Fails.bind
      have hname : asBytes Params.q ≠ [] := by decide
      apply fails_parseParamsWith hp (printable_of_name hp hname).2 hnext
      exact fails_storeContactParam_q hv
    rw [List.append_nil] at hfails
    obtain ⟨e, s, herror⟩ := hfails c hc
    rw [herror] at hrun
    injection hrun
  | some q =>
    have hread := reads_parseContact_nil hwf (stores_contactParams hv hps) hall
    rw [hread c ((List.append_nil _).symm ▸ hc)] at hrun
    injection hrun with hh _
    rw [← hh]

/-- **No `expires` is read** where the printer has put one. -/
theorem not_parseContact_expires {a : NameAddr} (hwf : a.WellFormed) {q : Option Q} {n : UInt32}
    {params : Params} (hparams : ∀ p ∈ params.inner, p.Generic isToken [Params.q, Params.expires])
    {c c' : Scanner} (hc : c.remaining = asBytes (Contact.value ⟨.nameAddr a, q, some n, params⟩))
    {h : Contact} (hrun : Contact.parse c = .ok h c') : h.expires = none := by
  simp only [Contact.value, asBytes_append, Option.elim_some, SipUri.toText, List.append_assoc] at hc
  cases q with
  | none =>
    rw [Option.elim_none, asBytes_empty, List.nil_append] at hc
    rw [reads_parseContact_digits hwf n _ c hc] at hrun
    injection hrun with hh _
    rw [← hh]
  | some q =>
    have hover : Over isToken (qText q ++ decimal n.toNat) := by
      intro b hb
      rw [asBytes_append, List.mem_append] at hb
      exact hb.elim (over_qText q b) (over_decimal isToken_alphanumeric n.toNat b)
    apply parseContact_q hwf hover hparams _ hrun
    rw [hc, Option.elim_some, Params.asBytes_toText, Q.toText]
    simp [paramsBytes, Param.refText, qText, asBytes_append, show asBytes ";q=" = 59 :: (asBytes Params.q ++ asBytes "=") by decide]

end SipParser

/-- **A contact is read back** if and only if it does not expire: its text alone, and its line in
    a message. -/
theorem Contact.expires_readBack_iff {h : Contact} {a : NameAddr} (huri : h.uri = .nameAddr a)
    (hwf : a.WellFormed) (hparams : ∀ p ∈ h.param.inner, p.Generic isToken [Params.q, Params.expires]) :
    (Contact.fromStr h.value = .ok h ∧ (Header.contact h).ReadBack) ↔ h.expires = none := by
  obtain ⟨uri, q, expires, params⟩ := h
  obtain rfl : uri = .nameAddr a := huri
  constructor
  · rintro ⟨hread, -⟩
    cases expires with
    | none => rfl
    | some n =>
      obtain ⟨c, hrun⟩ := fromStr_eq_ok_iff.mp hread
      exact not_parseContact_expires hwf hparams rfl hrun
  · rintro ⟨⟩
    have hcontact : Contact.WellFormed ⟨.nameAddr a, q, none, params⟩ := ⟨hwf, rfl, hparams⟩
    have hover := over_contactParams q fun p hp => (hparams p hp).1
    have hread := reads_parseContact_nil hwf (stores_contact (.nameAddr a) q hparams) hover
    have htext : asBytes (Contact.value ⟨.nameAddr a, q, none, params⟩) =
        asBytes a.toText ++ paramsBytes (qParams q ++ params.inner) := by
      rw [Contact.value, Option.elim_none, String.append_empty]
      exact asBytes_contactValue ⟨.nameAddr a, q, none, params⟩
    refine ⟨fromStr_of_reads ?_,
      Header.WellFormed.readBack (h := .contact ⟨.nameAddr a, q, none, params⟩) hcontact⟩
    rw [htext]
    exact hread

/-- The condition at a contact with a quality and without an expiry, where both sides hold. -/
theorem Contact.expires_readBack_ofBob :
    (Contact.fromStr (Contact.value ⟨.nameAddr ⟨none, Uri.ofBob⟩, some ⟨0, 7⟩, none, {}⟩) =
        .ok ⟨.nameAddr ⟨none, Uri.ofBob⟩, some ⟨0, 7⟩, none, {}⟩ ∧
      (Header.contact ⟨.nameAddr ⟨none, Uri.ofBob⟩, some ⟨0, 7⟩, none, {}⟩).ReadBack) ↔
      (none : Option UInt32) = none :=
  expires_readBack_iff (h := ⟨.nameAddr ⟨none, Uri.ofBob⟩, some ⟨0, 7⟩, none, {}⟩)
    (a := ⟨none, Uri.ofBob⟩) rfl (by decide) (by simp)

/-- A contact that expires in an hour: the parameter is printed so that the value read back is
    another one. -/
theorem Contact.not_expires_readBack :
    ¬ ∀ (h : Contact) (a : NameAddr), h.uri = .nameAddr a → a.WellFormed →
      (∀ p ∈ h.param.inner, p.Generic isToken [Params.q, Params.expires]) →
      Contact.fromStr h.value = .ok h ∧ (Header.contact h).ReadBack := by
  intro hall
  have hread := (hall ⟨.nameAddr ⟨none, Uri.ofBob⟩, none, some 3600, {}⟩ ⟨none, Uri.ofBob⟩ rfl
    (by decide) (by simp)).1
  exact absurd hread (by decide +kernel)

-- behind `q`, the digits are read as some of its own
example : Contact.fromStr (Contact.value ⟨.nameAddr ⟨none, Uri.ofBob⟩, some ⟨0, 7⟩, some 5, {}⟩) =
    .ok ⟨.nameAddr ⟨none, Uri.ofBob⟩, some ⟨0, 75⟩, none, {}⟩ := by decide +kernel

end Rssip
