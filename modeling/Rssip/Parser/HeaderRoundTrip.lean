import Rssip.Parser.Message
import Rssip.Parser.UriRoundTrip

namespace Rssip

open Lib SipParser

/-!
# Headers are read back as they are printed

What the parsers of `Rssip.Parser.Headers` make of the printed value of a header, in front of
the end of its line.

* `Via.WellFormed`, … — the values of each header type whose line can be read back;
* `reads_parseVia`, … — one lemma for each type;
* `Header.WellFormed.readBack` — the whole line of a header, by its name, is read as that header.
-/

/-! ### Well-formed headers -/

/-- The parameters of a `Via` that have a field of their own. -/
def Via.reserved : List String :=
  [Params.branch, Params.ttl, Params.maddr, Params.received, Params.rport]

/-- The fields of a `Via` consist of what the parser of their place takes. -/
structure Via.WellFormed (v : Via) : Prop where
  sentBy : v.sentBy.host.WellFormed
  maddr : ∀ h ∈ v.maddr, h.WellFormedParam isViaParam
  branch : ∀ b ∈ v.branch, Over isViaParam b
  params : ∀ p ∈ v.params.inner, p.Generic isViaParam Via.reserved
  comment : ∀ c ∈ v.comment, 41 ∉ asBytes c

/-- An address with a tag and parameters, over the token table. -/
structure Tagged (uri : SipUri) (tag : Option String) (params : Params) : Prop where
  uri : uri.WellFormed
  tag : ∀ t ∈ tag, Over isToken t
  params : ∀ p ∈ params.inner, p.Generic isToken [Params.tag]

/-- A `Contact` without `expires`, which is printed so that it cannot be read back. -/
structure Contact.WellFormed (h : Contact) : Prop where
  uri : h.uri.WellFormed
  expires : h.expires = none
  param : ∀ p ∈ h.param.inner, p.Generic isToken [Params.q, Params.expires]

/-- An address and parameters that `Route` and `Record-Route` read back. -/
def RouteParam (addr : NameAddr) (params : Params) : Prop :=
  addr.WellFormed ∧ ∀ p ∈ params.inner, p.Over isToken

/-- A text that is the whole value of a line: no line end in it, no blank before it. -/
def LineText (s : String) : Prop :=
  (∀ b ∈ asBytes s, isNewline b = false) ∧ ∀ b ∈ (asBytes s).head?, isSpace b = false

/-- There is a method, and none without a name of its own. -/
def Allow.WellFormed (h : Allow) : Prop := h.methods ≠ [] ∧ SipMethod.unknown ∉ h.methods

/-- There is a tag, and all are tokens. -/
def Supported.WellFormed (h : Supported) : Prop := h.tags ≠ [] ∧ ∀ t ∈ h.tags, Over isToken t

/-- The type, the subtype and the parameters are tokens. -/
def MediaType.WellFormed (m : MediaType) : Prop :=
  Over isToken m.mimetype.mtype ∧ Over isToken m.mimetype.subtype ∧
    ∀ p ∈ m.params.inner, p.Over isToken

/-- A header with a token for a name, for which there is no header type of its own. -/
def RawHeader.WellFormed (h : RawHeader) : Prop :=
  Over isToken h.name ∧ (∀ entry ∈ headerParsers.map Prod.fst, h.name ∉ entry) ∧ LineText h.data

/-- The headers that are read back as they are printed. -/
def Header.WellFormed : Header → Prop
  | .via h => h.WellFormed
  | .fromHdr h => Tagged h.uri h.tag h.params
  | .toHdr h => Tagged h.uri h.tag h.params
  | .callId h => LineText h.id
  | .cSeq h => h.method ≠ .unknown
  | .maxForwards _ => True
  | .contact h => h.WellFormed
  | .route h => RouteParam h.nameAddr h.params
  | .recordRoute h => RouteParam h.addr h.params
  | .allow h => h.WellFormed
  | .supported h => h.WellFormed
  | .contentType h => h.mediaType.WellFormed
  | .rawHeader h => h.WellFormed
  | _ => False

namespace SipParser

variable {rest text ws : Bytes} {b : UInt8} {s : String} {tab : LookupTable}

/-! ### The parameters of a Via -/

/-- A `Via` without parameters and comment. -/
def viaBase (v : Via) : Via := { transport := v.transport, sentBy := v.sentBy }

/-- The parameter to which an `rport` is printed. -/
def rportParam (r : Rport) : Param := ⟨Params.rport, r.port.map fun p => decimal p.toNat⟩

/-- The parameters with a field of their own, in the order they are printed. -/
def viaFieldParams (v : Via) : List Param :=
  (v.rport.map rportParam).toList ++
  (v.received.map fun ip => ⟨Params.received, some ip.toText⟩).toList ++
  (v.ttl.map fun n => ⟨Params.ttl, some (decimal n.toNat)⟩).toList ++
  (v.maddr.map fun h => ⟨Params.maddr, some h.toText⟩).toList ++
  (v.branch.map fun b => ⟨Params.branch, some b⟩).toList

/-- The parameters that a Via keeps in fields are printed like the ones of its list. -/
theorem asBytes_viaParamsText (v : Via) : asBytes v.paramsText = paramsBytes (viaFieldParams v) := by
  have hrport : asBytes (v.rport.elim "" fun rport =>
      ";rport" ++ rport.port.elim "" fun p => "=" ++ decimal p.toNat) =
      paramsBytes (v.rport.map rportParam).toList := by
    cases v.rport with
    | none => exact asBytes_empty
    | some r =>
      obtain ⟨port⟩ := r
      have hname : asBytes ";rport" = 59 :: asBytes Params.rport := by decide
      cases port <;>
        simp [rportParam, paramsBytes, Param.refText, hname]
  simp only [Via.paramsText, viaFieldParams, asBytes_append, paramsBytes_append, hrport,
    asBytes_field v.received ";received=" Params.received IpAddr.toText (by decide),
    asBytes_field v.ttl ";ttl=" Params.ttl (fun n => decimal n.toNat) (by decide),
    asBytes_field v.maddr ";maddr=" Params.maddr Host.toText (by decide),
    asBytes_field v.branch ";branch=" Params.branch (fun b => b) (by decide)]

section Store

variable (a : Via)

/-- The parameter `branch` becomes a field of the Via. -/
theorem storeViaParam_branch (s : String) :
    storeViaParam a ⟨Params.branch, some s⟩ = pure ({ a with branch := some s }, none) := rfl

/-- The parameter `ttl` becomes a field, a number of eight bits. -/
theorem storeViaParam_ttl (n : UInt8) :
    storeViaParam a ⟨Params.ttl, some (decimal n.toNat)⟩ =
      pure ({ a with ttl := some n }, none) := by
  show (do
    let ttl ← parseValue .param u8FromStr (some (decimal n.toNat))
    return ({ a with ttl := ttl }, none)) = _
  rw [parseValue_some (u8FromStr_decimal n)]
  rfl

/-- The parameter `maddr` becomes a field if its host reads back. -/
theorem storeViaParam_maddr {h : Host} (hwf : Host.fromStr h.toText = h) :
    storeViaParam a ⟨Params.maddr, some h.toText⟩ = pure ({ a with maddr := some h }, none) := by
  show pure ({ a with maddr := some (Host.fromStr h.toText) }, none) = _
  rw [hwf]

/-- The parameter `received` becomes a field: a printed address always reads back. -/
theorem storeViaParam_received (ip : IpAddr) :
    storeViaParam a ⟨Params.received, some ip.toText⟩ =
      pure ({ a with received := some ip }, none) := by
  show (do
    let received ← parseValue .param IpAddr.parse (some ip.toText)
    return ({ a with received := received }, none)) = _
  rw [parseValue_some (IpAddr.parse_toText ip)]
  rfl

/-- The parameter `rport` becomes a field, with its port or without a value. -/
theorem storeViaParam_rport (r : Rport) :
    storeViaParam a (rportParam r) = pure ({ a with rport := some r }, none) := by
  obtain ⟨port⟩ := r
  cases port with
  | none => rfl
  | some port =>
    have hne : decimal port.toNat ≠ "" := by
      intro h
      have hbytes := asBytes_decimal_ne_nil port.toNat
      rw [h] at hbytes
      exact hbytes asBytes_empty
    have hrport : parseRport (some (decimal port.toNat)) = pure ⟨some port⟩ := by
      rw [parseRport, Option.filter_some_pos (by simpa using hne),
        parseValue_some (u16FromStr_decimal port), pure_bind]
      dsimp only
      rw [if_pos (isValidPort_eq_true port)]
    show (do
      let rport ← parseRport (some (decimal port.toNat))
      return ({ a with rport := some rport }, none)) = _
    rw [hrport]
    rfl

/-- A parameter under any other name is handed back and goes into the list. -/
theorem storeViaParam_generic {p : Param} (hp : p.name ∉ Via.reserved) :
    storeViaParam a p = pure (a, some p) := by
  simp only [Via.reserved, List.mem_cons, List.not_mem_nil, or_false, not_or] at hp
  obtain ⟨hbranch, httl, hmaddr, hreceived, hrport⟩ := hp
  rw [storeViaParam, if_neg hbranch, if_neg httl, if_neg hmaddr, if_neg hreceived,
    if_neg hrport]

end Store

/-- From the bare Via, storing what it prints gives all of its fields and leaves its list. -/
theorem stores_via {v : Via} (hwf : v.WellFormed) :
    Stores storeViaParam (viaBase v) (viaFieldParams v ++ v.params.inner)
      { v with params := {}, comment := none } v.params.inner := by
  -- the `Via` as it fills up, in the order the parameters are printed
  let a₁ : Via := { viaBase v with rport := v.rport }
  let a₂ : Via := { a₁ with received := v.received }
  let a₃ : Via := { a₂ with ttl := v.ttl }
  let a₄ : Via := { a₃ with maddr := v.maddr }
  let a₅ : Via := { a₄ with branch := v.branch }
  have hrport : Stores storeViaParam (viaBase v) _ a₁ [] :=
    Stores.field v.rport _ (fun o => { viaBase v with rport := o })
      fun r _ => storeViaParam_rport _ r
  have hreceived : Stores storeViaParam a₁ _ a₂ [] :=
    Stores.field v.received _ (fun o => { a₁ with received := o })
      fun ip _ => storeViaParam_received _ ip
  have httl : Stores storeViaParam a₂ _ a₃ [] :=
    Stores.field v.ttl _ (fun o => { a₂ with ttl := o }) fun n _ => storeViaParam_ttl _ n
  have hmaddr : Stores storeViaParam a₃ _ a₄ [] :=
    Stores.field v.maddr _ (fun o => { a₃ with maddr := o })
      fun h hh => storeViaParam_maddr _ (hwf.maddr h hh).fromStr_toText
  have hbranch : Stores storeViaParam a₄ _ a₅ [] :=
    Stores.field v.branch _ (fun o => { a₄ with branch := o })
      fun b _ => storeViaParam_branch _ b
  have hgeneric : Stores storeViaParam a₅ v.params.inner a₅ v.params.inner := by
    apply Stores.generic
    intro p hp rest
    rw [storeViaParam_generic _ (hwf.params p hp).2]
    exact Reads.pure _ _
  exact ((((hrport.append hreceived).append httl).append hmaddr).append hbranch).append hgeneric

/-- All parameters of a well-formed Via, from fields and from the list, lie over their table. -/
theorem over_viaParams {v : Via} (hwf : v.WellFormed) :
    ∀ p ∈ viaFieldParams v ++ v.params.inner, p.Over isViaParam := by
  have halnum := isViaParam_alphanumeric
  have hrport : ∀ p ∈ (v.rport.map rportParam).toList, p.Over isViaParam := by
    intro p hp
    rw [Option.mem_toList, Option.map_eq_some_iff] at hp
    obtain ⟨⟨port⟩, -, rfl⟩ := hp
    refine ⟨(by decide : Over isViaParam Params.rport), ?_⟩
    intro value hvalue
    obtain ⟨n, -, rfl⟩ := Option.map_eq_some_iff.mp hvalue
    exact over_decimal halnum n.toNat
  have hfields : ∀ p ∈ viaFieldParams v, p.Over isViaParam := by
    simp only [viaFieldParams, List.forall_mem_append]
    refine ⟨⟨⟨⟨hrport, ?_⟩, ?_⟩, ?_⟩, ?_⟩
    · exact fun p hp => (printable_field (by decide) (by decide)
        (fun ip _ => over_ipAddr halnum (by decide) (by decide) ip) p hp).1
    · exact fun p hp => (printable_field (by decide) (by decide)
        (fun n _ => over_decimal halnum n.toNat) p hp).1
    · exact fun p hp => (printable_field (by decide) (by decide)
        (fun h hh => (hwf.maddr h hh).over halnum (by decide) (by decide)) p hp).1
    · exact fun p hp => (printable_field (by decide) (by decide) hwf.branch p hp).1
  exact List.forall_mem_append.mpr ⟨hfields, fun p hp => (hwf.params p hp).1⟩

/-! ### The value of a Via -/

/-- A comment without a closing parenthesis in it is read back from its parentheses. -/
theorem reads_parseComment_some {comment : String} (h : 41 ∉ asBytes comment) :
    Reads parseComment ([40] ++ (asBytes comment ++ [41])) rest (some comment) := by
  have hall : ∀ b ∈ asBytes comment, (b != 41) = true := by
    intro b hb
    simpa using ne_of_mem_of_not_mem hb h
  have huntil : Reads (takeUntil 41) (asBytes comment) ([41] ++ rest) (asBytes comment) :=
    reads_scanWhile hall (stops_cons.mpr (by decide))
  apply Reads.bind reads_takeIfEq_some
  apply Reads.bind huntil
  apply Reads.bind_nil reads_advance
  apply Reads.bind_nil reads_utf8
  exact Reads.pure _ _

/-- Without an opening parenthesis there is no comment, and nothing is read. -/
theorem reads_parseComment_none (hrest : Stops (· == 40) rest) :
    Reads parseComment [] rest none := by
  apply Reads.bind_nil (reads_takeIfEq_none hrest)
  exact Reads.pure _ _

/-- The comment of a `Via`, behind the blank before it. -/
def commentBytes : Option String → Bytes
  | some comment => [40] ++ (asBytes comment ++ [41])
  | none => []

/-- The blank before the comment of a `Via`. -/
def commentBlank : Option String → Bytes
  | some _ => [32]
  | none => []

/-- The comment of a Via at the end of its line, present or not, is read back. -/
theorem reads_comment {comment : Option String} (h : ∀ c ∈ comment, 41 ∉ asBytes c) :
    Reads parseComment (commentBytes comment) (13 :: rest) comment := by
  cases comment with
  | none => exact reads_parseComment_none (stops_cons.mpr (by decide))
  | some c => exact reads_parseComment_some (h c rfl)

/-- The value of a `Via`. -/
def viaValue (v : Via) : String :=
  sipV2 ++ "/" ++ v.transport.asUpperCase ++ " " ++ v.sentBy.toText ++ v.paramsText ++
    v.params.toText ++ v.comment.elim "" fun comment => " (" ++ comment ++ ")"

/-- How the value of a Via is spelled: protocol, transport, sent-by, parameters and comment. -/
theorem asBytes_viaValue (v : Via) :
    asBytes (viaValue v) = asBytes sipV2 ++ ([47] ++ (asBytes v.transport.asUpperCase ++
      ([32] ++ (asBytes v.sentBy.toText ++ ((paramsBytes (viaFieldParams v ++ v.params.inner) ++
        commentBlank v.comment) ++ commentBytes v.comment))))) := by
  have hcomment : asBytes (v.comment.elim "" fun comment => " (" ++ comment ++ ")") =
      commentBlank v.comment ++ commentBytes v.comment := by
    cases v.comment with
    | none => exact asBytes_empty
    | some comment =>
      rw [Option.elim_some, asBytes_append, asBytes_append, show asBytes " (" = [32, 40] by decide,
        show asBytes ")" = [41] by decide]
      rfl
  simp only [viaValue, asBytes_append, hcomment, asBytes_viaParamsText, Params.asBytes_toText,
    paramsBytes_append, List.append_assoc, show asBytes "/" = [47] by decide,
    show asBytes " " = [32] by decide]
  rfl

/-- A printed `host:port` starts with no blank, so skipping blanks stops in front of it. -/
theorem stops_isSpace_hostPort {h : HostPort} (hwf : h.host.WellFormed) (rest : Bytes) :
    Stops isSpace (asBytes h.toText ++ rest) := by
  have hne := hwf.toText_ne_empty
  have hover := hwf.over
  rw [HostPort.toText, asBytes_append, List.append_assoc]
  cases htext : asBytes h.host.toText with
  | nil => exact absurd (asBytes_injective (htext.trans asBytes_empty.symm)) hne
  | cons b text =>
    have hb : isHost b := hover b (by simp [htext])
    exact stops_cons.mpr (isSpace_eq_false (by decide) (by decide) hb)

/-- **A `Via` is read back.** -/
theorem reads_parseVia {v : Via} (hwf : v.WellFormed) :
    Reads Via.parse (asBytes (viaValue v)) (13 :: rest) v := by
  have htransport : Over isToken v.transport.asUpperCase := by cases v.transport <;> decide
  have hblank : ∀ b ∈ commentBlank v.comment, isSpace b := by
    cases v.comment with
    | none => exact fun b hb => absurd hb List.not_mem_nil
    | some c => exact (by decide : ∀ b ∈ ([32] : Bytes), isSpace b)
  have hnext : ∀ {predicate : UInt8 → Bool}, predicate 40 = false → predicate 13 = false →
      Stops predicate (commentBytes v.comment ++ 13 :: rest) := by
    intro predicate h40 h13
    cases v.comment with
    | none => exact stops_cons.mpr h13
    | some c => exact stops_cons.mpr h40
  have hhost : Stops inHostPort ((paramsBytes (viaFieldParams v ++ v.params.inner) ++
      commentBlank v.comment ++ commentBytes v.comment) ++ 13 :: rest) := by
    rw [List.append_assoc, List.append_assoc]
    apply stops_inHostPort_paramsBytes
    cases v.comment with
    | none => exact stops_cons.mpr (by decide)
    | some c => exact stops_cons.mpr (by decide)
  -- the steps of the parser, in its order
  rw [asBytes_viaValue]
  apply Reads.bind reads_parseSipVersion
  apply Reads.bind reads_advance
  apply Reads.bind (reads_readWhile htransport (stops_cons.mpr (by decide)))
  rw [TransportProtocol.fromStr_asUpperCase]
  apply Reads.nil_bind (Reads.pure _ _)
  apply Reads.bind
  · apply reads_skipWs (by decide)
    rw [List.append_assoc]
    exact stops_isSpace_hostPort hwf.sentBy _
  apply Reads.bind (reads_parseHostPort hwf.sentBy hhost)
  apply Reads.bind
  · exact reads_parseParamsWith isViaParam_table hblank (hnext (by decide) (by decide))
      (hnext (by decide) (by decide)) (stores_via hwf) (fun _ => hnext (by decide) (by decide))
      (over_viaParams hwf)
  · apply Reads.bind_nil (reads_comment hwf.comment)
    exact Reads.pure _ _

/-! ### Parameters up to the end of a line -/

/-- Parameters up to the end of the line are read back, sorted into fields and list by the header's
    own store. -/
theorem reads_paramsLine {α : Type} {store : α → Param → Parse (α × Option Param)} {a b : α}
    {ps qs : List Param} (htab : ParamTable tab) (h : Stores store a ps b qs)
    (hps : ∀ p ∈ ps, p.Over tab) :
    Reads (parseParamsWith (paramRefUnchecked tab) store a) (paramsBytes ps) (13 :: rest)
      (b, ⟨qs⟩) := by
  have h13 : inParam tab 13 = false :=
    htab.inParam_eq_false (by decide) (by decide) (by decide)
  exact reads_parseParamsWith_nil htab h (stops_cons.mpr (by decide)) (stops_cons.mpr (by decide))
    (stops_cons.mpr h13) hps

/-- Parameters are read back in front of what ends them. -/
theorem reads_parseParams_of {ps : Params} (hps : ∀ p ∈ ps.inner, p.Over isToken)
    (hspace : Stops isSpace rest) (hsemi : Stops (· == 59) rest)
    (hparam : Stops (inParam isToken) rest) : Reads parseParams (asBytes ps.toText) rest ps := by
  have hstores : Stores (fun _ param => return ((), some param)) () ps.inner () ps.inner :=
    Stores.generic fun p _ rest => Reads.pure _ _
  rw [Params.asBytes_toText]
  exact (reads_parseParamsWith_nil isToken_table hstores hspace hsemi hparam hps).map

/-- A parameter list without fields of its own is read back as it was printed. -/
theorem reads_parseParams {ps : Params} (hps : ∀ p ∈ ps.inner, p.Over isToken) :
    Reads parseParams (asBytes ps.toText) (13 :: rest) ps :=
  reads_parseParams_of hps (stops_cons.mpr (by decide)) (stops_cons.mpr (by decide))
    (stops_cons.mpr (by decide))

/-- The parameters behind an address announce no user part up to the end of the line. -/
theorem noUserPart_params {ps : List Param} (hps : ∀ p ∈ ps, p.Over isToken) :
    NoUserPart (paramsBytes ps ++ 13 :: rest) :=
  NoUserPart.append (not_mem_paramsBytes hps (by decide) (by decide) (by decide))
    (noUserPart_of_stop (by decide) rest)

/-- An address and the parameters of the header it stands in. -/
theorem reads_addressParams {α : Type} {store : α → Param → Parse (α × Option Param)} {a b : α}
    {uri : SipUri} {ps qs : List Param} {γ : Type} {f : SipUri → α × Params → γ}
    (huri : uri.WellFormed) (h : Stores store a ps b qs) (hps : ∀ p ∈ ps, p.Over isToken) :
    Reads (do
      let uri ← parseSipUri false
      let r ← parseParamsWith paramRef store a
      return f uri r) (asBytes uri.toText ++ paramsBytes ps) (13 :: rest) (f uri (b, ⟨qs⟩)) := by
  apply Reads.bind
  · apply reads_parseSipUri huri
    · exact stops_inHostPort_paramsBytes (stops_cons.mpr (by decide))
    · exact noUserPart_params hps
  · apply Reads.bind_nil (reads_paramsLine isToken_table h hps)
    exact Reads.pure _ _

/-! ### Addresses -/

/-- The parameters to which a tag is printed: one or none. -/
def tagParams (tag : Option String) : List Param :=
  (tag.map fun t => ⟨Params.tag, some t⟩).toList

/-- The value of a `From` or a `To`. -/
def taggedValue (uri : SipUri) (tag : Option String) (params : Params) : String :=
  uri.toText ++ (tag.elim "" fun tag => ";tag=" ++ tag) ++ params.toText

/-- **A tagged address is read back.** -/
theorem reads_parseTagged {uri : SipUri} {tag : Option String} {params : Params}
    (hwf : Tagged uri tag params) :
    Reads parseTagged (asBytes (taggedValue uri tag params)) (13 :: rest) (uri, tag, params) := by
  have htag : Stores storeTag none (tagParams tag) tag [] :=
    Stores.field tag _ (fun o => o) fun t _ => rfl
  have hgeneric : Stores storeTag tag params.inner tag params.inner := by
    apply Stores.generic
    intro p hp rest
    rw [storeTag, if_neg (by simpa using (hwf.params p hp).2)]
    exact Reads.pure _ _
  have hover : ∀ p ∈ tagParams tag ++ params.inner, p.Over isToken :=
    List.forall_mem_append.mpr
      ⟨fun p hp => (printable_field (by decide) (by decide) hwf.tag p hp).1,
        fun p hp => (hwf.params p hp).1⟩
  have htext : asBytes (taggedValue uri tag params) =
      asBytes uri.toText ++ paramsBytes (tagParams tag ++ params.inner) := by
    rw [taggedValue, asBytes_append, asBytes_append, Params.asBytes_toText, paramsBytes_append,
      asBytes_field tag ";tag=" Params.tag (fun t => t) (by decide), List.append_assoc]
    rfl
  rw [htext]
  exact reads_addressParams (f := fun uri r => (uri, r.1, r.2)) hwf.uri (htag.append hgeneric) hover

/-- A From is read back from its value. -/
theorem reads_parseFrom {h : From} (hwf : Tagged h.uri h.tag h.params) :
    Reads From.parse (asBytes (taggedValue h.uri h.tag h.params)) (13 :: rest) h :=
  Reads.bind_nil (reads_parseTagged hwf) (Reads.pure _ _)

/-- A To is read back from its value. -/
theorem reads_parseTo {h : To} (hwf : Tagged h.uri h.tag h.params) :
    Reads To.parse (asBytes (taggedValue h.uri h.tag h.params)) (13 :: rest) h :=
  Reads.bind_nil (reads_parseTagged hwf) (Reads.pure _ _)

/-! ### Contacts and routes -/

/-- The value of the `q` parameter. -/
def qText (q : Q) : String := decimal q.a.toNat ++ "." ++ decimal q.b.toNat

/-- A quality value is read back from its digits. -/
theorem Q.fromStr_qText (q : Q) : Q.fromStr (qText q) = some q := by
  have hdot : 46 ∉ asBytes (decimal q.b.toNat) := by
    intro hmem
    exact absurd (isAsciiDigit_of_mem_decimal hmem) (by decide)
  have hsplit : rsplitOnce 46 (asBytes (qText q)) =
      some (asBytes (decimal q.a.toNat), asBytes (decimal q.b.toNat)) := by
    rw [qText, asBytes_append, asBytes_append, show asBytes "." = [46] by decide,
      List.append_assoc]
    exact rsplitOnce_append _ hdot
  rw [Q.fromStr, hsplit]
  simp [u8FromStr_decimal]

/-- A printed quality value lies over the token table, as a parameter's value has to. -/
theorem over_qText (q : Q) : Over isToken (qText q) := by
  intro b hb
  rw [qText, asBytes_append, asBytes_append, show asBytes "." = [46] by decide, List.mem_append,
    List.mem_append, List.mem_singleton] at hb
  rcases hb with (hb | rfl) | hb
  · exact over_decimal isToken_alphanumeric _ b hb
  · decide
  · exact over_decimal isToken_alphanumeric _ b hb

/-- The parameters to which a preference is printed: one or none. -/
def qParams (q : Option Q) : List Param := (q.map fun q => ⟨Params.q, some (qText q)⟩).toList

/-- The value of a `Contact` without `expires`. -/
def contactValue (h : Contact) : String := h.uri.toText ++ (h.q.elim "" Q.toText) ++ h.param.toText

/-- A quality value is printed like a parameter with the name `q`. -/
theorem asBytes_qParams (q : Option Q) : asBytes (q.elim "" Q.toText) = paramsBytes (qParams q) := by
  rw [qParams, ← asBytes_field q ";q=" Params.q qText (by decide)]
  cases q with
  | none => rfl
  | some q => simp only [Option.elim_some, Q.toText, qText, String.append_assoc]

/-- How the value of a Contact is spelled: the address and the parameters, the quality in front. -/
theorem asBytes_contactValue (h : Contact) :
    asBytes (contactValue h) =
      asBytes h.uri.toText ++ paramsBytes (qParams h.q ++ h.param.inner) := by
  rw [contactValue, asBytes_append, asBytes_append, Params.asBytes_toText, paramsBytes_append,
    asBytes_qParams, List.append_assoc]
  rfl

/-- A parameter under any other name is handed back and goes into the list. -/
theorem storeContactParam_generic (a : Contact) {p : Param}
    (hp : p.name ∉ [Params.q, Params.expires]) : storeContactParam a p = pure (a, some p) := by
  simp only [List.mem_cons, List.not_mem_nil, or_false, not_or] at hp
  rw [storeContactParam, if_neg hp.1, if_neg hp.2]

/-- The parameter `q` becomes a field, through the parser of quality values. -/
theorem storeContactParam_q (a : Contact) (v : String) :
    storeContactParam a ⟨Params.q, some v⟩ = (do
      let q ← parseQ (some v)
      return ({ a with q := q }, none)) := rfl

/-- The parameters of a contact with a text that is read as `q` in front. -/
theorem stores_contactParams {a : Contact} {v : String} {q : Q} {ps : List Param}
    (hv : Q.fromStr v = some q) (hps : ∀ p ∈ ps, p.Generic isToken [Params.q, Params.expires]) :
    Stores storeContactParam a (⟨Params.q, some v⟩ :: ps) { a with q := some q } ps := by
  refine Stores.cons (q := none) ?_ (Stores.generic ?_)
  · intro rest
    rw [storeContactParam_q, parseQ, hv]
    exact Reads.pure _ _
  · intro p hp rest
    rw [storeContactParam_generic _ (hps p hp).2]
    exact Reads.pure _ _

/-- Storing what a Contact without an expiry prints gives its quality and leaves its list. -/
theorem stores_contact (uri : SipUri) (q : Option Q) {ps : List Param}
    (hps : ∀ p ∈ ps, p.Generic isToken [Params.q, Params.expires]) :
    Stores storeContactParam ⟨uri, none, none, {}⟩ (qParams q ++ ps) ⟨uri, q, none, {}⟩ ps := by
  cases q with
  | none =>
    apply Stores.generic
    intro p hp rest
    rw [storeContactParam_generic _ (hps p hp).2]
    exact Reads.pure _ _
  | some q => exact stores_contactParams (Q.fromStr_qText q) hps

/-- The quality and the listed parameters of a Contact lie over the token table. -/
theorem over_contactParams (q : Option Q) {ps : List Param} (hps : ∀ p ∈ ps, p.Over isToken) :
    ∀ p ∈ qParams q ++ ps, p.Over isToken :=
  List.forall_mem_append.mpr
    ⟨fun p hp => (printable_field (by decide) (by decide) (fun q _ => over_qText q) p hp).1, hps⟩

/-- **A `Contact` is read back** when it has no `expires`. -/
theorem reads_parseContact {h : Contact} (hwf : h.WellFormed) :
    Reads Contact.parse (asBytes (contactValue h)) (13 :: rest) h := by
  have hover := over_contactParams h.q fun p hp => (hwf.param p hp).1
  -- `expires` is never filled by the parser
  have hvalue : (⟨h.uri, h.q, none, ⟨h.param.inner⟩⟩ : Contact) = h := by
    obtain ⟨uri, q, expires, param⟩ := h
    have hexpires : expires = none := hwf.expires
    subst hexpires
    rfl
  rw [asBytes_contactValue]
  apply Reads.bind
  · apply reads_parseSipUri hwf.uri
    · exact stops_inHostPort_paramsBytes (stops_cons.mpr (by decide))
    · exact noUserPart_params hover
  · apply Reads.bind_nil (reads_paramsLine isToken_table (stores_contact h.uri h.q hwf.param) hover)
    show Reads (Pure.pure (⟨h.uri, h.q, none, ⟨h.param.inner⟩⟩ : Contact)) [] _ h
    rw [hvalue]
    exact Reads.pure _ _

/-- The value of a `Route` or a `Record-Route`. -/
def routeValue (addr : NameAddr) (params : Params) : String := addr.toText ++ params.toText

/-- A name-addr with parameters, as Route and Record-Route have it, is read back from its value. -/
theorem reads_parseRouteParam {addr : NameAddr} {params : Params} (hwf : RouteParam addr params) :
    Reads parseRouteParam (asBytes (routeValue addr params)) (13 :: rest) (addr, params) := by
  rw [routeValue, asBytes_append]
  apply Reads.bind (reads_parseNameAddr hwf.1)
  apply Reads.bind_nil (reads_parseParams hwf.2)
  exact Reads.pure _ _

/-! ### Numbers, lines and lists -/

/-- A 32-bit number at the end of a line is read back from its digits. -/
theorem reads_parseNumber (n : UInt32) : Reads parseU32 (asBytes (decimal n.toNat)) (13 :: rest) n :=
  reads_parseU32 (stops_cons.mpr (by decide))

/-- A known method is spelled with letters only. -/
theorem over_asStr {m : SipMethod} (hm : m ≠ .unknown) : ∀ b ∈ asBytes m.asStr,
    isAsciiAlphabetic b := by
  cases m with
  | unknown => exact absurd rfl hm
  | _ => exact List.all_eq_true.mp (by decide)

/-- No method has an empty name. -/
theorem asStr_ne_nil (m : SipMethod) : asBytes m.asStr ≠ [] := by cases m <;> decide

/-- A method name is not blank. -/
theorem stops_isSpace_asStr (m : SipMethod) (rest : Bytes) :
    Stops isSpace (asBytes m.asStr ++ rest) := by
  cases htext : asBytes m.asStr with
  | nil => exact absurd htext (asStr_ne_nil m)
  | cons b text =>
    have hhead : ∀ b ∈ (asBytes m.asStr).head?, isSpace b = false := by cases m <;> decide
    exact stops_cons.mpr (hhead b (by simp [htext]))

/-- A method is read by its name, if this has letters alone. -/
theorem reads_methodName {name : String} (hname : Over isAsciiAlphabetic name)
    (hrest : Stops isAsciiAlphabetic rest) :
    Reads (do return SipMethod.fromBytes (← takeAlphabetic)) (asBytes name) rest
      (.fromBytes (asBytes name)) := by
  apply Reads.bind_nil (reads_consumeWhile hname hrest)
  exact Reads.pure _ _

/-- Letters are no blanks. -/
theorem stops_isSpace_methodName {name : String} (hname : Over isAsciiAlphabetic name)
    (hrest : Stops isSpace rest) : Stops isSpace (asBytes name ++ rest) :=
  hname.stops (forall_byte_of_lt (p := fun b => isAsciiAlphabetic b → isSpace b = false)
    (by decide +kernel)) fun _ => hrest

/-- A CSeq reads the number and takes the letters behind it as a method, known or not. -/
theorem reads_cSeqValue (n : UInt32) {name : String} (hname : Over isAsciiAlphabetic name) :
    Reads CSeq.parse (asBytes (decimal n.toNat ++ " " ++ name)) (13 :: rest)
      ⟨n, .fromBytes (asBytes name)⟩ := by
  rw [asBytes_append, asBytes_append, show asBytes " " = [32] by decide, List.append_assoc]
  apply Reads.bind (reads_parseU32 (stops_cons.mpr (by decide)))
  apply Reads.bind
    (reads_skipWs (by decide) (stops_isSpace_methodName hname (stops_cons.mpr (by decide))))
  apply Reads.bind_nil (reads_consumeWhile hname (stops_cons.mpr (by decide)))
  exact Reads.pure _ _

/-- The text behind the name of a `CSeq`. -/
def cseqValue (h : CSeq) : String := decimal h.cseq.toNat ++ " " ++ h.method.asStr

/-- A CSeq with a known method is read back; all unknown ones would become one. -/
theorem reads_parseCSeq {h : CSeq} (hm : h.method ≠ .unknown) :
    Reads CSeq.parse (asBytes (cseqValue h)) (13 :: rest) h := by
  have hread : Reads CSeq.parse (asBytes (cseqValue h)) (13 :: rest) ⟨_, _⟩ :=
    reads_cSeqValue h.cseq (over_asStr hm)
  rwa [SipMethod.fromBytes_asStr] at hread

/-- **A list of elements is read back**, with a comma and a blank between them; each is a text and
    what it is read as. -/
theorem reads_collectTexts {α β : Type} {elem : Parse α} {toText : β → String} {value : β → α}
    {xs : List β} (hne : xs ≠ []) (hcomma : Stops (· == 44) rest)
    (hstart : ∀ x ∈ xs, ∀ next, ElemEnd 44 rest next → Stops isSpace (asBytes (toText x) ++ next))
    (helem : ∀ x ∈ xs, ∀ next, ElemEnd 44 rest next →
      Reads elem (asBytes (toText x)) next (value x)) :
    Reads (collectElemsSeparatedByComma elem) (asBytes (formatSep ", " (xs.map toText))) rest
      (xs.map value) := by
  obtain ⟨x, xs, rfl⟩ := List.exists_cons_of_ne_nil hne
  -- the blank behind a comma belongs to the element after it
  let ts : List (Bytes × α) :=
    (asBytes (toText x), value x) :: xs.map fun y => ([32] ++ asBytes (toText y), value y)
  have hvals : ts.map Prod.snd = (x :: xs).map value := by simp [ts, Function.comp_def]
  have htext : ∀ (x : β) (xs : List β), asBytes (formatSep ", " ((x :: xs).map toText)) =
      joinSep 44 (asBytes (toText x) :: xs.map fun y => [32] ++ asBytes (toText y)) := by
    intro x xs
    induction xs generalizing x with
    | nil => rfl
    | cons y xs ih =>
      have hcons : formatSep ", " ((x :: y :: xs).map toText) =
          toText x ++ ", " ++ formatSep ", " ((y :: xs).map toText) := rfl
      rw [hcons, asBytes_append, asBytes_append, ih, show asBytes ", " = [44, 32] by decide,
        List.append_assoc]
      cases xs <;> rfl
  have hread : ∀ t ∈ ts, ∀ next, ElemEnd 44 rest next →
      Reads (do skipWs; elem) t.1 next t.2 := by
    intro t ht next hnext
    rcases List.mem_cons.mp ht with rfl | ht
    · exact Reads.nil_bind (reads_skipWs_nil (hstart x (by simp) next hnext))
        (helem x (by simp) next hnext)
    · obtain ⟨y, hy, rfl⟩ := List.mem_map.mp ht
      exact Reads.bind (reads_skipWs (by decide) (hstart y (by simp [hy]) next hnext))
        (helem y (by simp [hy]) next hnext)
  have hts : ts.map Prod.fst =
      asBytes (toText x) :: xs.map fun y => [32] ++ asBytes (toText y) := by
    simp [ts, Function.comp_def]
  rw [htext, ← hts, ← hvals]
  exact reads_collectSep hcomma ts (by simp [ts]) hread

/-- A comma-separated list is read back if each of its values is, in front of a comma and at the
    end. -/
theorem reads_collectElems {α : Type} {elem : Parse α} {toText : α → String} {xs : List α}
    (hne : xs ≠ []) (hcomma : Stops (· == 44) rest)
    (hstart : ∀ x ∈ xs, ∀ next, ElemEnd 44 rest next → Stops isSpace (asBytes (toText x) ++ next))
    (helem : ∀ x ∈ xs, ∀ next, ElemEnd 44 rest next → Reads elem (asBytes (toText x)) next x) :
    Reads (collectElemsSeparatedByComma elem) (asBytes (formatSep ", " (xs.map toText))) rest
      xs := by
  have hread := reads_collectTexts hne hcomma hstart helem
  rwa [List.map_id'] at hread

/-- Methods are read by their names, if these have letters alone. -/
theorem reads_allowValue {names : List String} (hne : names ≠ [])
    (hnames : ∀ name ∈ names, Over isAsciiAlphabetic name) :
    Reads Allow.parse (asBytes (formatSep ", " names)) (13 :: rest)
      ⟨names.map fun name => .fromBytes (asBytes name)⟩ := by
  have hread : Reads (collectElemsSeparatedByComma do
      return SipMethod.fromBytes (← takeAlphabetic)) (asBytes (formatSep ", " (names.map id)))
      (13 :: rest) (names.map fun name => .fromBytes (asBytes name)) := by
    apply reads_collectTexts hne (stops_cons.mpr (by decide))
    · intro name hname next hnext
      exact stops_isSpace_methodName (hnames name hname)
        (hnext.stops (by decide) (stops_cons.mpr (by decide)))
    · intro name hname next hnext
      exact reads_methodName (hnames name hname)
        (hnext.stops (by decide) (stops_cons.mpr (by decide)))
  rw [List.map_id] at hread
  exact Reads.bind_nil hread (Reads.pure _ _)

/-- The text behind the name of an `Allow`. -/
def allowValue (h : Allow) : String := formatSep ", " (h.methods.map SipMethod.asStr)

/-- An Allow is read back from its list of methods. -/
theorem reads_parseAllow {h : Allow} (hwf : h.WellFormed) :
    Reads Allow.parse (asBytes (allowValue h)) (13 :: rest) h := by
  have hnames : ∀ name ∈ h.methods.map SipMethod.asStr, Over isAsciiAlphabetic name := by
    intro name hname
    obtain ⟨m, hm, rfl⟩ := List.mem_map.mp hname
    exact over_asStr fun hunknown => hwf.2 (hunknown ▸ hm)
  have hmethods : (h.methods.map SipMethod.asStr).map (fun name => SipMethod.fromBytes (asBytes name)) =
      h.methods := by
    rw [List.map_map]
    exact List.map_id'' SipMethod.fromBytes_asStr _
  have hread : Reads Allow.parse (asBytes (allowValue h)) (13 :: rest) ⟨_⟩ :=
    reads_allowValue (by simpa using hwf.1) hnames
  rwa [hmethods] at hread

/-- The text behind the name of a `Supported`. -/
def supportedValue (h : Supported) : String := formatSep ", " h.tags

/-- A list of tokens is read back, the form of Supported, Require and the like. -/
theorem reads_parseTokens {tags : List String} (hne : tags ≠ []) (htags : ∀ t ∈ tags, Over isToken t) :
    Reads parseTokens (asBytes (formatSep ", " tags)) (13 :: rest) tags := by
  have hvalue : formatSep ", " tags = formatSep ", " (tags.map fun t => t) := by rw [List.map_id']
  rw [hvalue]
  apply reads_collectElems hne (stops_cons.mpr (by decide))
  · intro t ht next hnext
    apply (htags t ht).stops isToken_table.isSpace_eq_false
    exact fun _ => hnext.stops (by decide) (stops_cons.mpr (by decide))
  · intro t ht next hnext
    have hquote := (htags t ht).stops_eq (b := 34) (by decide)
      (hnext.stops (by decide) (stops_cons.mpr (by decide)))
    exact reads_token (htags t ht) hquote (hnext.stops (by decide) (stops_cons.mpr (by decide)))

/-- A Supported is read back from its list of option tags. -/
theorem reads_parseSupported {h : Supported} (hwf : h.WellFormed) :
    Reads Supported.parse (asBytes (supportedValue h)) (13 :: rest) h :=
  Reads.bind_nil (reads_parseTokens hwf.1 hwf.2) (Reads.pure _ _)

/-- **A media type is read back**, alone on its line or between commas. -/
theorem reads_parseMediaType {m : MediaType} (hwf : m.WellFormed) {next : Bytes}
    (hnext : ElemEnd 44 (13 :: rest) next) : Reads MediaType.parse (asBytes m.toText) next m := by
  obtain ⟨htype, hsubtype, hparams⟩ := hwf
  have hstops : ∀ {predicate : UInt8 → Bool}, predicate 44 = false → predicate 13 = false →
      Stops predicate next := fun h44 h13 => hnext.stops h44 (stops_cons.mpr h13)
  have hbehind : ∀ {predicate : UInt8 → Bool}, predicate 59 = false → predicate 44 = false →
      predicate 13 = false → Stops predicate (asBytes m.params.toText ++ next) := by
    intro predicate h59 h44 h13
    rw [Params.asBytes_toText]
    exact stops_params h59 (hstops h44 h13)
  rw [MediaType.toText, asBytes_append, asBytes_append, asBytes_append,
    show asBytes "/" = [47] by decide, List.append_assoc, List.append_assoc]
  apply Reads.bind (reads_token htype (htype.stops_eq (by decide) (stops_cons.mpr (by decide)))
    (stops_cons.mpr (by decide)))
  apply Reads.bind reads_advance
  apply Reads.bind (reads_token hsubtype
    (hsubtype.stops_eq (by decide) (hbehind (by decide) (by decide) (by decide)))
    (hbehind (by decide) (by decide) (by decide)))
  apply Reads.bind_nil (reads_parseParams_of hparams (hstops (by decide) (by decide))
    (hstops (by decide) (by decide)) (hstops (by decide) (by decide)))
  exact Reads.pure _ _

/-! ### Header lines -/

/-- The name of a header is read back together with its colon and the blanks behind it. -/
theorem reads_headerName {name : String} {blanks : Bytes} (hname : Over isToken name)
    (hblanks : ∀ b ∈ blanks, isSpace b) (hvalue : Stops isSpace rest) :
    Reads headerName (asBytes name ++ ([58] ++ blanks)) rest name := by
  apply Reads.bind (reads_readWhile hname (stops_cons.mpr (by decide)))
  apply Reads.nil_bind (reads_skipWs_nil (stops_cons.mpr (by decide)))
  apply Reads.bind reads_mustRead
  apply Reads.bind_nil (reads_skipWs hblanks hvalue)
  exact Reads.pure _ _

/-- How a header line is spelled: name, colon, blank, value and line end. -/
theorem asBytes_headerLine (name value : String) :
    asBytes (headerLine name value ++ "\r\n") =
      (asBytes name ++ ([58] ++ [32])) ++ (asBytes value ++ [13, 10]) := by
  rw [headerLine, asBytes_append, asBytes_append, asBytes_append,
    show asBytes ": " = [58] ++ [32] by decide, show asBytes "\r\n" = [13, 10] by decide,
    List.append_assoc]

/-- A line is read as `headers` when its value is. -/
theorem reads_headerLine {name value : String} {headers : Headers} (hname : Over isToken name)
    (hvalue : Stops isSpace (asBytes value ++ 13 :: 10 :: rest))
    (h : Reads (parseHeaderValue name) (asBytes value) (13 :: 10 :: rest) headers) :
    Reads parseHeaderLine (asBytes (headerLine name value ++ "\r\n")) rest
      (headers, isContentTypeName name) := by
  rw [asBytes_headerLine]
  apply Reads.bind
  · apply reads_headerName hname (by decide)
    rw [List.append_assoc]
    exact hvalue
  · apply Reads.bind h
    apply Reads.bind_nil reads_scanNewline
    exact Reads.pure _ _

/-- A header of a single value becomes the one header of its line. -/
theorem reads_one {α : Type} {toHeader : α → Header} {parse : Parse α} {h : α}
    (hread : Reads parse text rest h) : Reads (one toHeader parse) text rest [toHeader h] :=
  Reads.bind_nil hread (Reads.pure _ _)

/-- A list header with one value on its line becomes one header. -/
theorem reads_many {α : Type} {toHeader : α → Header} {parse : Parse α} {h : α}
    (hread : Reads parse text (13 :: rest) h) :
    Reads (many toHeader parse) text (13 :: rest) [toHeader h] :=
  Reads.bind_nil (reads_collectSep_one (stops_cons.mpr (by decide)) hread) (Reads.pure _ _)

/-! ### What values start with -/

/-- A well-formed line text starts with no blank that the parser would drop. -/
theorem stops_isSpace_lineText {s : String} (hs : LineText s) (rest : Bytes) :
    Stops isSpace (asBytes s ++ 13 :: rest) :=
  stops_append (fun _ => hs.2) fun _ => stops_cons.mpr (by decide)

/-- A text over the token table starts with no blank. -/
theorem stops_isSpace_over {s : String} (hs : Over isToken s)
    (hrest : Stops isSpace rest) : Stops isSpace (asBytes s ++ rest) :=
  hs.stops isToken_table.isSpace_eq_false fun _ => hrest

/-- A printed number starts with no blank. -/
theorem stops_isSpace_decimal (n : Nat) (rest : Bytes) :
    Stops isSpace (asBytes (decimal n) ++ rest) :=
  (over_decimal isToken_alphanumeric n).stops isToken_table.isSpace_eq_false
    fun hnil => absurd hnil (asBytes_decimal_ne_nil n)

/-- A list starts as its first element does. -/
theorem stops_isSpace_formatSep {ss : List String} (hne : ss ≠ [])
    (h : ∀ s ∈ ss, ∀ next, Stops isSpace next → Stops isSpace (asBytes s ++ next)) (rest : Bytes) :
    Stops isSpace (asBytes (formatSep ", " ss) ++ 13 :: rest) := by
  obtain ⟨s, ss, rfl⟩ := List.exists_cons_of_ne_nil hne
  cases ss with
  | nil => exact h s (by simp) _ (stops_cons.mpr (by decide))
  | cons t ss =>
    have hcons : formatSep ", " (s :: t :: ss) = s ++ ", " ++ formatSep ", " (t :: ss) := rfl
    rw [hcons, asBytes_append, asBytes_append, show asBytes ", " = [44, 32] by decide,
      List.append_assoc, List.append_assoc]
    exact h s (by simp) _ (stops_cons.mpr (by decide))

end SipParser

/-- Whether the header is a `Content-Type`, for which the parser reads a body. -/
def Header.isContentType : Header → Bool
  | .contentType _ => true
  | _ => false

namespace SipParser

variable {rest text ws : Bytes} {b : UInt8} {s : String} {tab : LookupTable}

/-- The line is read as `headers`, which are those of a `Content-Type` or not, and no reader of
    line ends takes its start. -/
structure LineReads (line : String) (headers : Headers) (isContentType : Bool) : Prop where
  reads : ∀ rest, Reads parseHeaderLine (asBytes (line ++ "\r\n")) rest (headers, isContentType)
  start : ∃ b bs, asBytes line = b :: bs ∧ isNewline b = false

/-- The line of a header is read by the parser its name is mapped to. -/
theorem lineReads (name value : String) {headers : Headers} {isContentType : Bool}
    {parse : Parse Headers} (hname : Over isToken name) (hdispatch : parseHeaderValue name = parse)
    (htype : isContentTypeName name = isContentType)
    (hvalue : ∀ rest, Stops isSpace (asBytes value ++ 13 :: rest))
    (hread : ∀ rest, Reads parse (asBytes value) (13 :: rest) headers) :
    LineReads (headerLine name value) headers isContentType := by
  constructor
  · intro rest
    rw [← htype]
    apply reads_headerLine hname (hvalue _)
    rw [hdispatch]
    exact hread _
  · rw [headerLine, asBytes_append, asBytes_append, show asBytes ": " = [58, 32] by decide]
    cases htext : asBytes name with
    | nil => exact ⟨58, _, rfl, by decide⟩
    | cons b text =>
      have hb : isToken b := hname b (by simp [htext])
      refine ⟨b, _, rfl, ?_⟩
      by_cases hnewline : isNewline b
      · rcases (by simpa [isNewline] using hnewline : b = 13 ∨ b = 10) with rfl | rfl <;>
          exact absurd hb (by decide)
      · simpa using hnewline

/-- A name that no parser claims is kept with the rest of its line. -/
theorem parseHeaderValue_raw {name : String} (h : ∀ entry ∈ headerParsers.map Prod.fst, name ∉ entry) :
    parseHeaderValue name = (do return [.rawHeader ⟨name, ← readLine⟩]) := by
  have hnone : headerParsers.find? (fun entry => entry.1.contains name) = none := by
    rw [List.find?_eq_none]
    intro entry hentry
    simpa using h entry.1 (List.mem_map_of_mem hentry)
  rw [parseHeaderValue, hnone]

/-- The line of a well-formed Via reads back as that Via. -/
theorem lineReads_via {v : Via} (hwf : v.WellFormed) : LineReads v.toText [.via v] false := by
  apply lineReads Via.name (viaValue v) (by decide) rfl rfl
  · intro rest
    rw [asBytes_viaValue]
    exact stops_cons.mpr (by decide)
  · exact fun rest => reads_many (reads_parseVia hwf)

/-- A printed From or To value starts with no blank. -/
theorem stops_isSpace_tagged (uri : SipUri) (tag : Option String) (params : Params) (rest : Bytes) :
    Stops isSpace (asBytes (taggedValue uri tag params) ++ rest) := by
  rw [taggedValue, asBytes_append, asBytes_append, List.append_assoc, List.append_assoc]
  exact stops_isSpace_sipUri _ _

/-- The line of a well-formed From reads back as that From. -/
theorem lineReads_from {h : From} (hwf : Tagged h.uri h.tag h.params) :
    LineReads h.toText [.fromHdr h] false := by
  apply lineReads From.name (taggedValue h.uri h.tag h.params) (by decide)
    rfl rfl
  · exact fun rest => stops_isSpace_tagged _ _ _ _
  · exact fun rest => reads_one (reads_parseFrom hwf)

/-- The line of a well-formed To reads back as that To. -/
theorem lineReads_to {h : To} (hwf : Tagged h.uri h.tag h.params) :
    LineReads h.toText [.toHdr h] false := by
  apply lineReads To.name (taggedValue h.uri h.tag h.params) (by decide)
    rfl rfl
  · exact fun rest => stops_isSpace_tagged _ _ _ _
  · exact fun rest => reads_one (reads_parseTo hwf)

/-- The line of a well-formed Contact, one without an expiry, reads back as that Contact. -/
theorem lineReads_contact {h : Contact} (hwf : h.WellFormed) : LineReads h.toText [.contact h] false := by
  have htext : h.toText = headerLine Contact.name (contactValue h) := by
    rw [Contact.toText, hwf.expires, Option.elim_none, String.append_empty]
    rfl
  rw [htext]
  apply lineReads _ _ (by decide) rfl rfl
  · intro rest
    rw [asBytes_contactValue, List.append_assoc]
    exact stops_isSpace_sipUri _ _
  · exact fun rest => reads_many (reads_parseContact hwf)

/-- A printed Route value starts with no blank. -/
theorem stops_isSpace_route (addr : NameAddr) (params : Params) (rest : Bytes) :
    Stops isSpace (asBytes (routeValue addr params) ++ rest) := by
  rw [routeValue, asBytes_append, List.append_assoc]
  exact stops_isSpace_sipUri (.nameAddr addr) _

/-- The line of a well-formed Route reads back as that Route. -/
theorem lineReads_route {h : Route} (hwf : RouteParam h.nameAddr h.params) :
    LineReads h.toText [.route h] false := by
  apply lineReads Route.name (routeValue h.nameAddr h.params) (by decide)
    rfl rfl
  · exact fun rest => stops_isSpace_route _ _ _
  · exact fun rest => reads_many (Reads.bind_nil (reads_parseRouteParam hwf) (Reads.pure _ _))

/-- The line of a well-formed Record-Route reads back as that Record-Route. -/
theorem lineReads_recordRoute {h : RecordRoute} (hwf : RouteParam h.addr h.params) :
    LineReads h.toText [.recordRoute h] false := by
  apply lineReads RecordRoute.name (routeValue h.addr h.params) (by decide)
    rfl rfl
  · exact fun rest => stops_isSpace_route _ _ _
  · exact fun rest => reads_many (Reads.bind_nil (reads_parseRouteParam hwf) (Reads.pure _ _))

/-- The line of a Call-ID reads back: the parser keeps the whole of the line. -/
theorem lineReads_callId {h : CallId} (hwf : LineText h.id) : LineReads h.toText [.callId h] false := by
  apply lineReads CallId.name h.id (by decide) rfl rfl
  · exact fun rest => stops_isSpace_lineText hwf rest
  · exact fun rest => reads_one (Reads.bind_nil (reads_readLine hwf.1) (Reads.pure _ _))

/-- The line of a CSeq with a known method reads back as that CSeq. -/
theorem lineReads_cSeq {h : CSeq} (hm : h.method ≠ .unknown) : LineReads h.toText [.cSeq h] false := by
  apply lineReads CSeq.name (cseqValue h) (by decide) rfl rfl
  · intro rest
    rw [cseqValue, asBytes_append, asBytes_append, List.append_assoc, List.append_assoc]
    exact stops_isSpace_decimal _ _
  · exact fun rest => reads_one (reads_parseCSeq hm)

/-- Every Max-Forwards reads back from its line. -/
theorem lineReads_maxForwards (h : MaxForwards) : LineReads h.toText [.maxForwards h] false := by
  apply lineReads MaxForwards.name (decimal h.fowards.toNat) (by decide) rfl rfl
  · exact fun rest => stops_isSpace_decimal _ _
  · exact fun rest => reads_one (Reads.bind_nil (reads_parseNumber _) (Reads.pure _ _))

/-- Every Content-Length reads back from its line. -/
theorem lineReads_contentLength (h : ContentLength) : LineReads h.toText [.contentLength h] false := by
  apply lineReads ContentLength.name (decimal h.len.toNat) (by decide) rfl rfl
  · exact fun rest => stops_isSpace_decimal _ _
  · exact fun rest => reads_one (Reads.bind_nil (reads_parseNumber _) (Reads.pure _ _))

/-- The line of a well-formed Allow reads back as that Allow. -/
theorem lineReads_allow {h : Allow} (hwf : h.WellFormed) : LineReads h.toText [.allow h] false := by
  apply lineReads Allow.name (allowValue h) (by decide) rfl rfl
  · apply stops_isSpace_formatSep (by simpa using hwf.1)
    intro s hs next _
    obtain ⟨m, -, rfl⟩ := List.mem_map.mp hs
    exact stops_isSpace_asStr m next
  · exact fun rest => reads_one (reads_parseAllow hwf)

/-- The line of a well-formed Supported reads back as that Supported. -/
theorem lineReads_supported {h : Supported} (hwf : h.WellFormed) :
    LineReads h.toText [.supported h] false := by
  apply lineReads Supported.name (supportedValue h) (by decide) rfl rfl
  · apply stops_isSpace_formatSep hwf.1
    exact fun t ht next hnext => stops_isSpace_over (hwf.2 t ht) hnext
  · exact fun rest => reads_one (reads_parseSupported hwf)

/-- A Content-Type reads back, and it is the one header that announces a body to the parser. -/
theorem lineReads_contentType {h : ContentType} (hwf : h.mediaType.WellFormed) :
    LineReads h.toText [.contentType h] true := by
  apply lineReads ContentType.name h.mediaType.toText (by decide) rfl rfl
  · intro rest
    rw [MediaType.toText, asBytes_append, asBytes_append, asBytes_append,
      show asBytes "/" = [47] by decide, List.append_assoc, List.append_assoc, List.append_assoc]
    exact stops_isSpace_over hwf.1 (stops_cons.mpr (by decide))
  · exact fun rest => reads_one (Reads.bind_nil
      (reads_parseMediaType hwf (Or.inr rfl)) (Reads.pure _ _))

/-- A header unknown to the parser reads back with its name and its value. -/
theorem lineReads_rawHeader {h : RawHeader} (hwf : h.WellFormed) :
    LineReads h.toText [.rawHeader h] false := by
  obtain ⟨hname, hnone, hdata⟩ := hwf
  have htype : isContentTypeName h.name = false := by
    have hmem : [ContentType.name, ContentType.shortName] ∈ headerParsers.map Prod.fst := by
      decide
    have hne := hnone _ hmem
    simp only [List.mem_cons, List.not_mem_nil, or_false, not_or] at hne
    simp [isContentTypeName, hne]
  show LineReads (headerLine h.name h.data) _ _
  apply lineReads _ _ hname (parseHeaderValue_raw hnone) htype
  · exact fun rest => stops_isSpace_lineText hdata rest
  · exact fun rest => Reads.bind_nil (reads_readLine hdata.1) (Reads.pure _ _)

end SipParser

/-- The line of the header is read as the header alone, wherever it stands in a message. -/
def Header.ReadBack (h : Header) : Prop :=
  ∃ line, h.toText = some line ∧ LineReads line [h] h.isContentType

/-- **The line of a well-formed header is read as that header.** -/
theorem Header.WellFormed.readBack {h : Header} (hwf : h.WellFormed) : h.ReadBack := by
  cases h with
  | via h => exact ⟨_, rfl, lineReads_via hwf⟩
  | fromHdr h => exact ⟨_, rfl, lineReads_from hwf⟩
  | toHdr h => exact ⟨_, rfl, lineReads_to hwf⟩
  | callId h => exact ⟨_, rfl, lineReads_callId hwf⟩
  | cSeq h => exact ⟨_, rfl, lineReads_cSeq hwf⟩
  | maxForwards h => exact ⟨_, rfl, lineReads_maxForwards h⟩
  | contact h => exact ⟨_, rfl, lineReads_contact hwf⟩
  | route h => exact ⟨_, rfl, lineReads_route hwf⟩
  | recordRoute h => exact ⟨_, rfl, lineReads_recordRoute hwf⟩
  | allow h => exact ⟨_, rfl, lineReads_allow hwf⟩
  | supported h => exact ⟨_, rfl, lineReads_supported hwf⟩
  | contentType h => exact ⟨_, rfl, lineReads_contentType hwf⟩
  | rawHeader h => exact ⟨_, rfl, lineReads_rawHeader hwf⟩
  | _ => exact absurd hwf id

end Rssip
