import Rssip.Message.Clean
import Rssip.Parser.Image

namespace Rssip

open Lib

/-!
# Headers parsed from clean lines

From a text without line ends, every header parser makes a header without line ends.

* `InClean` — no line end remains;
* `yieldsClean_parseHeaderValue` — the header parsers keep it, and their values are clean.
-/

namespace SipParser

/-- No line end remains to be read. -/
def InClean (c : Scanner) : Prop := CleanBytes c.remaining

/-- From a text without line ends, the parser makes clean values. -/
abbrev YieldsClean {α : Type} [Texts α] (r : Parse α) : Prop := Yields InClean Clean r

/-- From a text without line ends, the parser leaves one. -/
abbrev KeepsClean {α : Type} (r : Parse α) : Prop := Yields InClean (fun _ => True) r

/-- What the parser has still to read stays clean when it only moves on: the remaining text is a
    suffix. -/
theorem inherited_inClean : Inherited InClean := fun _ _ hc hsuffix => hc.suffix hsuffix

/-- What a parser leaves of a clean text is clean. -/
theorem keepsClean_of_ends {E : Failure → Prop} {α : Type} {r : Parse α} (h : Bounded E r) :
    KeepsClean r := inherited_inClean.keeps h

/-- A reader confined to the line leaves the cursor in a clean text: whatever it consumed was clean
    anyway. -/
theorem keepsClean {E : Failure → Prop} {α : Type} {r : Parse α} (h : Confined isNewline E r) :
    KeepsClean r := keepsClean_of_ends h.toBounded

/-! ### Scans -/

section Scan

variable {ε : Type} {predicate : UInt8 → Bool}

/-- The bytes that one sweep takes are a piece of the remaining text, so they are clean with it. -/
theorem yields_scanWhile (predicate : UInt8 → Bool) :
    Yields InClean CleanBytes
      (modifyGet (Scanner.scanWhile predicate) : EStateM ε Scanner Bytes) := by
  intro c text c' hc h
  have hsuffix := (bounded_scanWhile (E := fun _ => True) predicate).suffix h
  obtain ⟨htext, -⟩ := scanWhile_eq_ok_iff.mp h
  refine ⟨fun b hb => hc b ?_, hc.suffix hsuffix⟩
  rw [← htext] at hb
  exact (List.takeWhile_sublist _).subset hb

/-- Decoding checked for validity changes no byte, so a clean slice decodes to a clean text. -/
theorem clean_of_fromUtf8 {bs : Bytes} {s : String} (h : fromUtf8 bs = some s)
    (hbs : CleanBytes bs) : Clean s := by
  rw [clean_string, fromUtf8_eq_some_iff.mp h]
  exact hbs

/-- The unchecked decoding keeps the bytes as they are, and the text is as clean as the slice. -/
theorem clean_fromUtf8Unchecked {bs : Bytes} (hbs : CleanBytes bs) :
    Clean (fromUtf8Unchecked bs) := by
  rw [fromUtf8Unchecked]
  cases h : fromUtf8 bs with
  | none => exact clean_empty
  | some s => exact clean_of_fromUtf8 h hbs

/-- The same sweep, decoded: the form in which most fields of a header are read. -/
theorem yields_scanWhileAsStrUnchecked (predicate : UInt8 → Bool) :
    Yields InClean Clean
      (modifyGet (Scanner.scanWhileAsStrUnchecked predicate) : EStateM ε Scanner String) := by
  rw [scanWhileAsStrUnchecked_eq]
  exact (yields_scanWhile predicate).map fun _ => clean_fromUtf8Unchecked

end Scan

/-- Where invalid UTF-8 is refused, what comes out is a clean text. -/
theorem yieldsClean_utf8 {bytes : Bytes} (h : CleanBytes bytes) : YieldsClean (utf8 bytes) := by
  unfold utf8
  split
  · rename_i str hstr
    exact Yields.pure (clean_of_fromUtf8 hstr h)
  · exact Yields.throw _

/-- The parser's own name for a sweep: the bytes taken are clean. -/
theorem yields_consumeWhile (predicate : UInt8 → Bool) :
    Yields InClean CleanBytes (consumeWhile predicate) := yields_scanWhile predicate

/-- A field read as long as a table of characters allows is clean, whatever the table. -/
theorem yieldsClean_readWhile (tab : LookupTable) : YieldsClean (readWhileAsStrUnchecked tab) :=
  yields_scanWhileAsStrUnchecked tab

/-- Even the rest of a line, which stops at line ends only, is clean in a clean text. -/
theorem yieldsClean_readLine : YieldsClean readLine := by
  apply yields_ofScan
  apply Yields.bind (yields_scanWhile _)
  intro bytes hbytes
  split
  · rename_i str hstr
    exact Yields.pure (clean_of_fromUtf8 hstr hbytes)
  · exact yields_scanError _

/-- A number is made of what was read, and it prints clean in any case. -/
theorem yieldsClean_parseF32 : YieldsClean parseF32 := by
  apply yields_ofScan
  apply Yields.bind (yields_scanWhileAsStrUnchecked _)
  intro number hnumber
  split
  · exact Yields.pure (clean_f32 _)
  · exact yields_scanError _

/-- A text up to a delimiter, and what is made of it. -/
theorem yields_takeUntil {α : Type} {P : α → Prop} {b : UInt8} {k : Bytes → Parse α}
    (hk : ∀ text, CleanBytes text → Yields InClean P (k text)) :
    Yields InClean P (do
      let text ← takeUntil b
      let _ ← advance
      k text) := by
  apply Yields.bind (yields_scanWhile _)
  intro text htext
  apply Yields.bind (keepsClean staysIn_advance)
  intro _ _
  exact hk text htext

/-- A quoted string is the piece of the text between its quotes. -/
theorem yieldsClean_quoted : YieldsClean quoted :=
  yields_takeUntil fun _ => yieldsClean_utf8

/-- A token is a piece of the text, taken by the token table. -/
theorem yieldsClean_token : YieldsClean token := by
  apply Yields.bind (keepsClean (staysIn_takeIfEq (by decide)))
  intro quote _
  exact yieldsClean_quoted.ite (yieldsClean_readWhile _)

/-! ### Parameters and lists -/

/-- A parameter is made of pieces of the text: its name, and its value, bare or quoted. -/
theorem yieldsClean_paramRefUnchecked (tab : LookupTable) :
    YieldsClean (paramRefUnchecked tab) := by
  apply Yields.bind (keepsClean staysIn_skipWs)
  intro _ _
  apply Yields.bind (yieldsClean_readWhile tab)
  intro name hname
  apply Yields.bind (keepsClean (staysIn_takeIfEq (by decide)))
  intro eq _
  apply Yields.ite (Yields.pure (clean_param.mpr ⟨hname, clean_none⟩))
  apply Yields.bind (keepsClean (staysIn_takeIfEq (by decide)))
  intro quote _
  have hvalue : ∀ {r : Parse String}, YieldsClean r →
      YieldsClean (do return (⟨name, some (← r)⟩ : Param)) := fun hr =>
    hr.bind fun v hv => Yields.pure (clean_param.mpr ⟨hname, clean_some.mpr hv⟩)
  exact (hvalue yieldsClean_quoted).ite (hvalue (yieldsClean_readWhile tab))

/-- The same for the parameters of headers, whose characters are those of tokens. -/
theorem yieldsClean_paramRef : YieldsClean paramRef := yieldsClean_paramRefUnchecked isToken

/-- A separated list of values is clean when one value is, however many the text holds. -/
theorem yieldsClean_collectSep {α : Type} [Texts α] {sep : UInt8} {elem : Parse α}
    (h : YieldsClean elem) : YieldsClean (collectSep sep elem) :=
  (yields_collectSep inherited_inClean h).imp fun _ has => clean_list.mpr has.2

/-- The same for the comma-separated lists of headers, with blanks around the commas. -/
theorem yieldsClean_collectElems {α : Type} [Texts α] {elem : Parse α} (h : YieldsClean elem) :
    YieldsClean (collectElemsSeparatedByComma elem) :=
  yieldsClean_collectSep ((keepsClean staysIn_skipWs).bind fun _ _ => h)

/-- A list of parameters, some of which are kept in a value with `P`. -/
theorem yieldsClean_parseParamsWith {α : Type} {P : α → Prop} {ref : Parse Param}
    {store : α → Param → Parse (α × Option Param)} (href : YieldsClean ref)
    (hstore : ∀ a p, P a → Clean p →
      Yields InClean (fun r : α × Option Param => P r.1 ∧ Clean r.2) (store a p)) {a : α} (ha : P a) :
    Yields InClean (fun r : α × Params => P r.1 ∧ Clean r.2) (parseParamsWith ref store a) := by
  have hkept : ∀ a p, P a → Clean p →
      Yields InClean (fun r : α × Option Param => P r.1 ∧ ∀ q ∈ r.2, Clean q) (store a p) := by
    intro a p ha hp
    apply (hstore a p ha hp).imp
    rintro ⟨a', q⟩ ⟨ha', hq⟩
    refine ⟨ha', ?_⟩
    rintro q' rfl
    exact clean_some.mp hq
  apply (yields_parseParamsWith inherited_inClean href hkept ha).imp
  exact fun r hr => ⟨hr.1, clean_list.mpr hr.2⟩

/-- A parameter list read from a clean text is clean, parameter by parameter. -/
theorem yieldsClean_parseParams : YieldsClean parseParams :=
  (yields_params inherited_inClean yieldsClean_paramRef).imp fun _ hps => clean_list.mpr hps

/-! ### URIs -/

/-- A host made of a clean text is clean: an address prints from a fixed alphabet and a name is
    kept. -/
theorem clean_hostFromStr {s : String} (hs : Clean s) : Clean (Host.fromStr s) := by
  unfold Host.fromStr
  split
  · exact fun t ht => absurd ht List.not_mem_nil
  · exact hs

/-- The host of a URI or a Via, bracketed or not, comes from the text. -/
theorem yieldsClean_parseHost : YieldsClean parseHost := by
  apply Yields.bind (keepsClean_of_ends ends_peek)
  intro next _
  apply Yields.ite
  · apply Yields.bind (keepsClean staysIn_advance)
    intro _ _
    apply Yields.bind
    · exact keepsClean_of_ends (ends_orError (ends_ofScan (bounded_scanWhileAsStr _)) _)
    · intro host _
      apply Yields.bind (keepsClean staysIn_advance)
      intro _ _
      split
      · exact Yields.pure fun t ht => absurd ht List.not_mem_nil
      · exact yields_error _
  · apply Yields.bind (yieldsClean_readWhile _)
    intro host hhost
    exact (yields_error _).ite (Yields.pure (clean_hostFromStr hhost))

/-- The host is clean, and the port behind it is a number. -/
theorem yieldsClean_parseHostPort : YieldsClean parseHostPort := by
  apply Yields.bind yieldsClean_parseHost
  intro host hhost
  apply Yields.bind (keepsClean staysIn_parsePort)
  intro port _
  exact Yields.pure hhost

/-- User and password are two pieces of the text in front of the `@`. -/
theorem yieldsClean_parseUserInfo : YieldsClean parseUserInfo := by
  apply Yields.bind (keepsClean (staysIn_existsUserPartInUri (NoNewline.excludes (by decide))))
  intro hasUser _
  apply Yields.ite _ (Yields.pure clean_none)
  apply Yields.bind (yieldsClean_readWhile _)
  intro user huser
  have hpass : YieldsClean parsePass := by
    apply Yields.bind (keepsClean (staysIn_takeIfEq (by decide)))
    intro colon _
    apply Yields.ite _ (Yields.pure clean_none)
    exact (yieldsClean_readWhile _).bind fun _ hpass => Yields.pure (clean_some.mpr hpass)
  apply Yields.bind hpass
  intro pass hpass
  apply Yields.bind (keepsClean (staysIn_orError (staysIn_mustRead 64) _))
  intro _ _
  exact Yields.pure (clean_some.mpr (clean_userInfo.mpr ⟨huser, hpass⟩))

/-- The host that a parameter's value names is as clean as the value. -/
theorem clean_maddr {p : Param} (hp : Clean p) : Clean (p.value.map Host.fromStr) := by
  obtain ⟨-, hvalue⟩ := clean_param.mp hp
  cases hv : p.value with
  | none => exact clean_none
  | some v => exact clean_some.mpr (clean_hostFromStr (clean_some.mp (hv ▸ hvalue)))

/-- To sort a parameter into a URI keeps both clean: it becomes a field or it is handed back. -/
theorem yields_storeUriParam (uri : Uri) (p : Param) (huri : Clean uri) (hp : Clean p) :
    Yields InClean (fun r : Uri × Option Param => Clean r.1 ∧ Clean r.2) (storeUriParam uri p) := by
  obtain ⟨huser, hhostPort, huserParam, hmaddr, hparams, hheaders⟩ := clean_uri.mp huri
  unfold storeUriParam
  apply Yields.ite (Yields.pure ⟨clean_uri.mpr ⟨huser, hhostPort, (clean_param.mp hp).2, hmaddr,
    hparams, hheaders⟩, clean_none⟩)
  apply Yields.ite (Yields.pure ⟨huri, clean_none⟩)
  refine Yields.ite ((keepsClean (staysIn_parseValue _ _ _)).bind fun _ _ =>
    Yields.pure ⟨huri, clean_none⟩) ?_
  refine Yields.ite ((keepsClean (staysIn_parseValue _ _ _)).bind fun _ _ =>
    Yields.pure ⟨huri, clean_none⟩) ?_
  apply Yields.ite (Yields.pure ⟨huri, clean_none⟩)
  apply Yields.ite (Yields.pure ⟨clean_uri.mpr ⟨huser, hhostPort, huserParam, clean_maddr hp,
    hparams, hheaders⟩, clean_none⟩)
  exact Yields.pure ⟨huri, clean_some.mpr hp⟩

/-- The URI headers behind the question mark are clean, where there are any. -/
theorem yieldsClean_parseUriHeaderPart : YieldsClean parseUriHeaderPart := by
  apply Yields.bind (keepsClean (staysIn_takeIfEq (by decide)))
  intro question _
  apply Yields.ite _ (Yields.pure clean_none)
  have hheaders : YieldsClean parseUriHeaders :=
    (yieldsClean_collectSep (yieldsClean_paramRefUnchecked isHdrUri)).bind fun _ hps =>
      Yields.pure hps
  exact hheaders.bind fun _ hhs => Yields.pure (clean_some.mpr hhs)

/-- A URI is clean when its text is, with or without the parameters that belong to it. -/
theorem yieldsClean_parseUri (parseParams : Bool) : YieldsClean (parseUri parseParams) := by
  apply Yields.bind (keepsClean staysIn_parseScheme)
  intro scheme _
  apply Yields.bind yieldsClean_parseUserInfo
  intro user huser
  apply Yields.bind yieldsClean_parseHostPort
  intro hostPort hhostPort
  have hbase : Clean { scheme := scheme, user := user, hostPort := hostPort : Uri } :=
    clean_uri.mpr ⟨huser, hhostPort, clean_none, clean_none, clean_nil, clean_none⟩
  apply Yields.ite (Yields.pure hbase)
  apply Yields.bind (yieldsClean_parseParamsWith (yieldsClean_paramRefUnchecked isParam)
    yields_storeUriParam hbase)
  rintro ⟨uri, params⟩ ⟨huri, hparams⟩
  apply Yields.bind yieldsClean_parseUriHeaderPart
  intro headers hheaders
  obtain ⟨huser, hhostPort, huserParam, hmaddr, -, -⟩ := clean_uri.mp huri
  exact Yields.pure (clean_uri.mpr ⟨huser, hhostPort, huserParam, hmaddr, hparams, hheaders⟩)

/-! ### Addresses -/

/-- A display name is a quoted piece of the text or the tokens in front of the angle bracket. -/
theorem yieldsClean_parseDisplayName : YieldsClean parseDisplayName := by
  apply Yields.bind (keepsClean_of_ends ends_peek)
  intro next _
  apply Yields.ite
  · apply Yields.bind (keepsClean staysIn_advance)
    intro _ _
    exact yieldsClean_quoted.bind fun _ hs => Yields.pure (clean_some.mpr hs)
  · apply Yields.bind (keepsClean_of_ends ends_peek)
    intro next _
    apply Yields.ite (Yields.pure clean_none)
    apply Yields.bind (yieldsClean_readWhile _)
    intro name hname
    exact (keepsClean staysIn_skipWs).bind fun _ _ => Yields.pure (clean_some.mpr hname)

/-- A name-addr is clean: its display name and its URI are read from the text one after the other.
    -/
theorem yieldsClean_parseNameAddr : YieldsClean parseNameAddr := by
  apply Yields.bind (keepsClean staysIn_skipWs)
  intro _ _
  apply Yields.bind yieldsClean_parseDisplayName
  intro display hdisplay
  apply Yields.bind (keepsClean staysIn_skipWs)
  intro _ _
  apply Yields.bind (keepsClean (staysIn_mustRead 60))
  intro _ _
  apply Yields.bind (yieldsClean_parseUri true)
  intro uri huri
  apply Yields.bind (keepsClean (staysIn_mustRead 62))
  intro _ _
  exact Yields.pure (clean_nameAddr.mpr ⟨hdisplay, huri⟩)

/-- An address in either of its forms is clean; the parser decides between them by looking ahead
    only. -/
theorem yieldsClean_parseSipUri (params : Bool) : YieldsClean (parseSipUri params) := by
  have hnameAddr : YieldsClean (do return SipUri.nameAddr (← parseNameAddr)) :=
    yieldsClean_parseNameAddr.bind fun _ ha => Yields.pure ha
  have huri : YieldsClean (do return SipUri.uri (← parseUri params)) :=
    (yieldsClean_parseUri params).bind fun _ hu => Yields.pure hu
  apply Yields.bind (keepsClean staysIn_skipWs)
  intro _ _
  apply Yields.bind (keepsClean_of_ends ends_peek)
  intro next _
  apply Yields.ite hnameAddr
  apply Yields.get_bind
  intro c
  exact huri.ite hnameAddr

/-! ### Parameters of headers -/

/-- The comment of a Via is the piece of the text between its parentheses. -/
theorem yieldsClean_parseComment : YieldsClean parseComment := by
  apply Yields.bind (keepsClean (staysIn_takeIfEq (by decide)))
  intro paren _
  apply Yields.ite _ (Yields.pure clean_none)
  apply yields_takeUntil
  intro comment hcomment
  exact (yieldsClean_utf8 hcomment).bind fun _ hs => Yields.pure (clean_some.mpr hs)

/-- To sort a parameter into a Via keeps both clean, as for a URI. -/
theorem yields_storeViaParam (via : Via) (p : Param) (hvia : Clean via) (hp : Clean p) :
    Yields InClean (fun r : Via × Option Param => Clean r.1 ∧ Clean r.2) (storeViaParam via p) := by
  obtain ⟨hsentBy, hmaddr, hbranch, hcomment, hparams⟩ := clean_via.mp hvia
  unfold storeViaParam
  apply Yields.ite (Yields.pure ⟨clean_via.mpr ⟨hsentBy, hmaddr, (clean_param.mp hp).2, hcomment,
    hparams⟩, clean_none⟩)
  refine Yields.ite ((keepsClean (staysIn_parseValue _ _ _)).bind fun _ _ =>
    Yields.pure ⟨hvia, clean_none⟩) ?_
  apply Yields.ite (Yields.pure ⟨clean_via.mpr ⟨hsentBy, clean_maddr hp, hbranch, hcomment,
    hparams⟩, clean_none⟩)
  refine Yields.ite ((keepsClean (staysIn_parseValue _ _ _)).bind fun _ _ =>
    Yields.pure ⟨hvia, clean_none⟩) ?_
  refine Yields.ite ((keepsClean (staysIn_parseRport _)).bind fun _ _ =>
    Yields.pure ⟨hvia, clean_none⟩) ?_
  exact Yields.pure ⟨hvia, clean_some.mpr hp⟩

/-- To take the tag out of the parameters moves a clean text to a field of its own. -/
theorem yields_storeTag (tag : Option String) (p : Param) (htag : Clean tag) (hp : Clean p) :
    Yields InClean (fun r : Option String × Option Param => Clean r.1 ∧ Clean r.2)
      (storeTag tag p) :=
  Yields.ite (Yields.pure ⟨(clean_param.mp hp).2, clean_none⟩)
    (Yields.pure ⟨htag, clean_some.mpr hp⟩)

/-- A quality value is a number; every other parameter is handed back as clean as it came. -/
theorem yields_storeQ (q : Option Q) (p : Param) (hp : Clean p) :
    Yields InClean (fun r : Option Q × Option Param => True ∧ Clean r.2) (storeQ q p) :=
  Yields.ite ((keepsClean (staysIn_parseQ _)).bind fun _ _ => Yields.pure ⟨trivial, clean_none⟩)
    (Yields.pure ⟨trivial, clean_some.mpr hp⟩)

/-- To sort a parameter into a Contact keeps both clean: quality and expiry are numbers. -/
theorem yields_storeContactParam (h : Contact) (p : Param) (hclean : Clean h) (hp : Clean p) :
    Yields InClean (fun r : Contact × Option Param => Clean r.1 ∧ Clean r.2)
      (storeContactParam h p) := by
  unfold storeContactParam
  refine Yields.ite ((keepsClean (staysIn_parseQ _)).bind fun _ _ =>
    Yields.pure ⟨hclean, clean_none⟩) ?_
  refine Yields.ite ((keepsClean (staysIn_parseValue _ _ _)).bind fun _ _ =>
    Yields.pure ⟨hclean, clean_none⟩) ?_
  exact Yields.pure ⟨hclean, clean_some.mpr hp⟩

/-! ### Header values -/

/-- What From and To share, the address, the tag and the other parameters, is clean. -/
theorem yields_parseTagged : Yields InClean
    (fun r : SipUri × Option String × Params => Clean r.1 ∧ Clean r.2.1 ∧ Clean r.2.2)
    parseTagged := by
  apply Yields.bind (yieldsClean_parseSipUri false)
  intro uri huri
  apply Yields.bind (yieldsClean_parseParamsWith yieldsClean_paramRef yields_storeTag clean_none)
  rintro ⟨tag, params⟩ ⟨htag, hparams⟩
  exact Yields.pure ⟨huri, htag, hparams⟩

/-- What Route and Record-Route share, the name-addr and its parameters, is clean. -/
theorem yields_parseRouteParam : Yields InClean
    (fun r : NameAddr × Params => Clean r.1 ∧ Clean r.2) parseRouteParam := by
  apply Yields.bind yieldsClean_parseNameAddr
  intro addr haddr
  exact yieldsClean_parseParams.bind fun params hparams => Yields.pure ⟨haddr, hparams⟩

/-- A Via is made of clean parts: the sent-by, the parameters and the comment. -/
theorem yieldsClean_via : YieldsClean Via.parse := by
  apply Yields.bind (keepsClean_of_ends ends_parseSipVersion)
  intro _ _
  apply Yields.bind (keepsClean staysIn_advance)
  intro _ _
  apply Yields.bind (keepsClean staysIn_readToken)
  intro token _
  apply Yields.bind (keepsClean (staysIn_ofOption _ _))
  intro transport _
  apply Yields.bind (keepsClean staysIn_skipWs)
  intro _ _
  apply Yields.bind yieldsClean_parseHostPort
  intro sentBy hsentBy
  have hbase : Clean { transport := transport, sentBy := sentBy : Via } :=
    clean_via.mpr ⟨hsentBy, clean_none, clean_none, clean_none, clean_nil⟩
  apply Yields.bind (yieldsClean_parseParamsWith (yieldsClean_paramRefUnchecked isViaParam)
    yields_storeViaParam hbase)
  rintro ⟨via, params⟩ ⟨hvia, hparams⟩
  apply Yields.bind yieldsClean_parseComment
  intro comment hcomment
  obtain ⟨hsentBy, hmaddr, hbranch, -, -⟩ := clean_via.mp hvia
  exact Yields.pure (clean_via.mpr ⟨hsentBy, hmaddr, hbranch, hcomment, hparams⟩)

/-- A From read from a clean text is clean, by what it shares with a To. -/
theorem yieldsClean_from : YieldsClean From.parse :=
  yields_parseTagged.bind fun _ hr => Yields.pure (clean_from.mpr hr)

/-- A To read from a clean text is clean, by what it shares with a From. -/
theorem yieldsClean_to : YieldsClean To.parse :=
  yields_parseTagged.bind fun _ hr => Yields.pure (clean_to.mpr hr)

/-- A Contact is the address and the parameters, each of them clean. -/
theorem yieldsClean_contact : YieldsClean Contact.parse := by
  apply Yields.bind (yieldsClean_parseSipUri false)
  intro uri huri
  apply Yields.bind (yieldsClean_parseParamsWith yieldsClean_paramRef yields_storeContactParam
    (clean_contact.mpr ⟨huri, clean_nil⟩))
  rintro ⟨h, param⟩ ⟨hclean, hparam⟩
  exact Yields.pure (clean_contact.mpr ⟨(clean_contact.mp hclean).1, hparam⟩)

/-- A Reply-To is the address and the parameters, with no field of its own. -/
theorem yieldsClean_replyTo : YieldsClean ReplyTo.parse := by
  apply Yields.bind (yieldsClean_parseSipUri false)
  intro uri huri
  exact yieldsClean_parseParams.bind fun _ hps => Yields.pure (clean_replyTo.mpr ⟨huri, hps⟩)

/-- A Route read from a clean text is clean, by what it shares with a Record-Route. -/
theorem yieldsClean_route : YieldsClean Route.parse :=
  yields_parseRouteParam.bind fun _ hr => Yields.pure (clean_route.mpr hr)

/-- A Record-Route read from a clean text is clean, by what it shares with a Route. -/
theorem yieldsClean_recordRoute : YieldsClean RecordRoute.parse :=
  yields_parseRouteParam.bind fun _ hr => Yields.pure (clean_recordRoute.mpr hr)

/-- Each Call-ID of an In-Reply-To is a piece of the text. -/
theorem yieldsClean_inReplyTo : Yields InClean (fun h : InReplyTo => Clean h.ids)
    InReplyTo.parse := by
  refine Yields.bind (yieldsClean_collectElems ?_) fun ids hids => Yields.pure hids
  apply Yields.bind (yields_consumeWhile _)
  intro id hid
  exact (yieldsClean_utf8 hid).bind fun _ hs => Yields.pure hs

/-- A language tag is one piece of the text. -/
theorem yieldsClean_languageTag : YieldsClean LanguageTag.parse :=
  (yieldsClean_readWhile _).bind fun _ ht => Yields.pure ht

/-- The two halves of a media type and its parameters are pieces of the text. -/
theorem yieldsClean_mediaType : YieldsClean MediaType.parse := by
  apply Yields.bind yieldsClean_token
  intro mtype hmtype
  apply Yields.bind (keepsClean staysIn_advance)
  intro _ _
  apply Yields.bind yieldsClean_token
  intro subtype hsubtype
  apply Yields.bind yieldsClean_parseParams
  intro params hparams
  exact Yields.pure (clean_mediaType.mpr ⟨hmtype, hsubtype, hparams⟩)

/-- A coding and its parameters are pieces of the text; its quality is a number. -/
theorem yieldsClean_coding : YieldsClean Coding.parse := by
  apply Yields.bind yieldsClean_token
  intro coding hcoding
  apply Yields.bind (yieldsClean_parseParamsWith (P := fun _ : Option Q => True) yieldsClean_paramRef
    (fun q p _ hp => yields_storeQ q p hp) trivial)
  rintro ⟨q, params⟩ ⟨-, hparams⟩
  exact Yields.pure (clean_coding.mpr ⟨hcoding, hparams⟩)

/-- A language and its parameters are pieces of the text; its quality is a number. -/
theorem yieldsClean_language : YieldsClean Language.parse := by
  apply Yields.bind yieldsClean_languageTag
  intro language hlanguage
  apply Yields.bind (yieldsClean_parseParamsWith (P := fun _ : Option Q => True) yieldsClean_paramRef
    (fun q p _ hp => yields_storeQ q p hp) trivial)
  rintro ⟨q, params⟩ ⟨-, hparams⟩
  exact Yields.pure (clean_language.mpr ⟨hlanguage, hparams⟩)

/-- The disposition type and its parameters are pieces of the text. -/
theorem yieldsClean_contentDisposition : YieldsClean ContentDisposition.parse := by
  apply Yields.bind yieldsClean_token
  intro type htype
  exact yieldsClean_parseParams.bind fun _ hps =>
    Yields.pure (clean_contentDisposition.mpr ⟨htype, hps⟩)

/-- A URL is the piece of the text between its angle brackets. -/
theorem yieldsClean_parseUrl : YieldsClean parseUrl := by
  apply Yields.bind (keepsClean (staysIn_mustRead 60))
  intro _ _
  exact yields_takeUntil fun _ => yieldsClean_utf8

/-- An Alert-Info is a URL with parameters, both clean. -/
theorem yieldsClean_alertInfo : YieldsClean AlertInfo.parse := by
  apply Yields.bind (keepsClean staysIn_skipWs)
  intro _ _
  apply Yields.bind yieldsClean_parseUrl
  intro url hurl
  exact yieldsClean_parseParams.bind fun _ hps => Yields.pure (clean_alertInfo.mpr ⟨hurl, hps⟩)

/-- One URI of an Error-Info is a URL with parameters, both clean. -/
theorem yieldsClean_errorInfoUri : YieldsClean ErrorInfoUri.parse := by
  apply Yields.bind yieldsClean_parseUrl
  intro url hurl
  exact yieldsClean_parseParams.bind fun _ hps => Yields.pure (clean_errorInfoUri.mpr ⟨hurl, hps⟩)

/-- The comment and the parameters of a Retry-After are pieces of the text. -/
theorem yieldsClean_retryAfter : YieldsClean RetryAfter.parse := by
  apply Yields.bind (keepsClean staysIn_parseU32)
  intro seconds _
  apply Yields.bind (keepsClean staysIn_skipWs)
  intro _ _
  apply Yields.bind yieldsClean_parseComment
  intro comment hcomment
  exact yieldsClean_parseParams.bind fun _ hps =>
    Yields.pure (clean_retryAfter.mpr ⟨hps, hcomment⟩)

/-- Both numbers of a Timestamp print clean, and nothing else is kept of it. -/
theorem yieldsClean_timestamp : YieldsClean Timestamp.parse := by
  apply Yields.bind yieldsClean_parseF32
  intro time htime
  apply Yields.bind (keepsClean staysIn_skipWs)
  intro _ _
  apply Yields.bind (keepsClean_of_ends ends_peek)
  intro next _
  apply Yields.ite _ (Yields.pure (clean_timestamp.mpr ⟨htime, clean_none⟩))
  exact yieldsClean_parseF32.bind fun _ hd =>
    Yields.pure (clean_timestamp.mpr ⟨htime, clean_some.mpr hd⟩)

/-- The host of a Warning and the text in its quotes are pieces of the text. -/
theorem yieldsClean_warning : YieldsClean Warning.parse := by
  apply Yields.bind (keepsClean staysIn_parseU32)
  intro code _
  apply Yields.bind (keepsClean staysIn_skipWs)
  intro _ _
  apply Yields.bind (yieldsClean_readWhile _)
  intro host hhost
  apply Yields.bind (keepsClean staysIn_skipWs)
  intro _ _
  apply Yields.bind (keepsClean (staysIn_mustRead 34))
  intro _ _
  apply yields_takeUntil
  intro text htext
  exact (yieldsClean_utf8 htext).bind fun _ hs => Yields.pure (clean_warning.mpr ⟨hhost, hs⟩)

/-- The loop over the parameters of an authentication header keeps its record clean if storing one
    does. -/
theorem yieldsClean_parseAuthParams {α : Type} [Texts α] {store : α → Param → α} {a : α}
    (hstore : ∀ a p, Clean a → Clean p → Clean (store a p)) (ha : Clean a) :
    YieldsClean (parseAuthParams store a) := by
  refine yields_foldSep inherited_inClean ?_ (fun _ => id) ha
  intro a ha
  apply Yields.bind (keepsClean staysIn_skipWs)
  intro _ _
  exact yieldsClean_paramRef.bind fun p hp => Yields.pure (hstore a p ha hp)

/-- A choice between two clean values is clean: the form in which a parameter is matched by its
    name. -/
theorem clean_ite {α : Type} [Texts α] {p : Prop} [Decidable p] {a b : α} (ha : Clean a)
    (hb : Clean b) : Clean (if p then a else b) := by
  split
  · exact ha
  · exact hb

/-- To store one parameter of a challenge puts its clean value into one of the fields. -/
theorem clean_storeChallenge (c : DigestChallenge) (p : Param) (hc : Clean c) (hp : Clean p) :
    Clean (c.store p) := by
  have hvalue := (clean_param.mp hp).2
  simp only [clean_digestChallenge, clean_cons] at hc
  unfold DigestChallenge.store
  -- one field is set, or none
  repeat' apply clean_ite
  all_goals simp only [clean_digestChallenge, clean_cons, hc, hvalue, and_self]

/-- To store one parameter of credentials puts its clean value into one of the fields. -/
theorem clean_storeCredential (c : DigestCredential) (p : Param) (hc : Clean c) (hp : Clean p) :
    Clean (c.store p) := by
  have hvalue := (clean_param.mp hp).2
  simp only [clean_digestCredential, clean_cons] at hc
  unfold DigestCredential.store
  -- one field is set, or none
  repeat' apply clean_ite
  all_goals simp only [clean_digestCredential, clean_cons, hc, hvalue, and_self]

/-- To store one parameter of an Authentication-Info puts its clean value into one of the fields. -/
theorem clean_storeAuthenticationInfo (h : AuthenticationInfo) (p : Param) (hclean : Clean h)
    (hp : Clean p) : Clean (h.store p) := by
  have hvalue := (clean_param.mp hp).2
  simp only [clean_authenticationInfo, clean_cons] at hclean
  unfold AuthenticationInfo.store
  -- one field is set, or none
  repeat' apply clean_ite
  all_goals simp only [clean_authenticationInfo, clean_cons, hclean, hvalue, and_self]

/-- An Authentication-Info is what the loop over its parameters stored. -/
theorem yieldsClean_authenticationInfo : YieldsClean AuthenticationInfo.parse :=
  yieldsClean_parseAuthParams clean_storeAuthenticationInfo (by decide)

/-- A challenge is clean: a digest by its fields, another scheme by its name and parameters. -/
theorem yieldsClean_parseAuthChallenge : YieldsClean parseAuthChallenge := by
  apply Yields.bind yieldsClean_token
  intro scheme hscheme
  apply Yields.ite
  · exact (yieldsClean_parseAuthParams clean_storeChallenge (by decide)).bind fun _ hc =>
      Yields.pure hc
  · apply Yields.bind yieldsClean_parseParams
    intro params hparams
    have hother : Clean (Challenge.other scheme params) ↔ Clean scheme ∧ Clean params := by
      simp only [Clean, texts, List.mem_append, or_imp, forall_and]
    exact Yields.pure (hother.mpr ⟨hscheme, hparams⟩)

/-- Credentials are clean: a digest by its fields, another scheme by its name and parameters. -/
theorem yieldsClean_parseAuthCredential : YieldsClean parseAuthCredential := by
  apply Yields.bind yieldsClean_token
  intro scheme hscheme
  apply Yields.ite
  · exact (yieldsClean_parseAuthParams clean_storeCredential (by decide)).bind fun _ hc =>
      Yields.pure hc
  · apply Yields.bind yieldsClean_parseParams
    intro params hparams
    have hother : Clean (Credential.other scheme params) ↔ Clean scheme ∧ Clean params := by
      simp only [Clean, texts, List.mem_append, or_imp, forall_and]
    exact Yields.pure (hother.mpr ⟨hscheme, hparams⟩)

/-! ### All headers -/

/-- A header of one value is as clean as the value it is made of. -/
theorem yieldsClean_one {α : Type} {P : α → Prop} {toHeader : α → Header} {parse : Parse α}
    (h : Yields InClean P parse) (htoHeader : ∀ a, P a → Clean (toHeader a)) :
    YieldsClean (one toHeader parse) := by
  apply Yields.bind h
  intro a ha
  exact Yields.pure (clean_cons.mpr ⟨htoHeader a ha, clean_nil⟩)

/-- A header without strings. -/
theorem yieldsClean_one_of_forall {E : Failure → Prop} {α : Type} {toHeader : α → Header}
    {parse : Parse α} (h : Confined isNewline E parse) (htoHeader : ∀ a, Clean (toHeader a)) :
    YieldsClean (one toHeader parse) :=
  yieldsClean_one (keepsClean h) fun a _ => htoHeader a

/-- A header line of several values gives a list of headers, each as clean as its value. -/
theorem yieldsClean_many {α : Type} [Texts α] {toHeader : α → Header} {parse : Parse α}
    (h : YieldsClean parse) (htoHeader : ∀ a, Clean a → Clean (toHeader a)) :
    YieldsClean (many toHeader parse) := by
  apply Yields.bind (yieldsClean_collectSep h)
  intro elems helems
  apply Yields.pure
  rw [clean_list] at helems ⊢
  intro header hheader
  obtain ⟨a, ha, rfl⟩ := List.mem_map.mp hheader
  exact htoHeader a (helems a ha)

/-- A header with one field, whose strings are those of the field. -/
theorem yields_field {α β : Type} {P : α → Prop} {Q : β → Prop} {parse : Parse α} {f : α → β}
    (h : Yields InClean P parse) (hf : ∀ a, P a → Q (f a)) :
    Yields InClean Q (do return f (← parse)) :=
  h.bind fun a ha => Yields.pure (hf a ha)

/-- **The header parsers keep the lines clean.** -/
theorem yieldsClean_headerParsers : ∀ entry ∈ headerParsers, YieldsClean entry.2 := by
  simp only [headerParsers, List.forall_mem_cons, List.not_mem_nil, false_implies, implies_true,
    and_true]
  have hnone : ∀ {header : Header}, texts header = [] → Clean header := fun h t ht =>
    absurd (h ▸ ht) List.not_mem_nil
  have htokens := yieldsClean_collectElems yieldsClean_token
  have hchallenge := yieldsClean_parseAuthChallenge
  have hcredential := yieldsClean_parseAuthCredential
  have hline := yieldsClean_readLine
  -- in the order of the table
  exact ⟨yieldsClean_one (yields_field (yieldsClean_collectElems yieldsClean_errorInfoUri)
      fun _ => id) fun _ => id,
    yieldsClean_many yieldsClean_route fun _ => id,
    yieldsClean_many yieldsClean_via fun _ => id,
    yieldsClean_one_of_forall (staysInLine_field staysIn_parseU32 _) fun _ => hnone rfl,
    yieldsClean_one yieldsClean_from fun _ => id,
    yieldsClean_one yieldsClean_to fun _ => id,
    yieldsClean_one (yields_field hline fun _ => id) fun _ => id,
    yieldsClean_one_of_forall staysInLine_cSeq fun _ => hnone rfl,
    yieldsClean_one (yields_field hcredential fun _ => id) fun _ => id,
    yieldsClean_many yieldsClean_contact fun _ => id,
    yieldsClean_one_of_forall (staysInLine_field staysIn_parseU32 _) fun _ => hnone rfl,
    yieldsClean_one yieldsClean_inReplyTo fun _ => id,
    yieldsClean_one_of_forall confined_mimeVersion fun _ => hnone rfl,
    yieldsClean_one_of_forall (staysInLine_field staysIn_parseU32 _) fun _ => hnone rfl,
    yieldsClean_one (yields_field hline fun _ => id) fun _ => id,
    yieldsClean_one (yields_field hline fun _ => id) fun _ => id,
    yieldsClean_one (yields_field hline fun _ => id) fun _ => id,
    yieldsClean_one (yields_field hline fun _ => id) fun _ => id,
    yieldsClean_one (yields_field yieldsClean_token fun _ => id) fun _ => id,
    yieldsClean_one (yields_field hchallenge fun _ => id) fun _ => id,
    yieldsClean_one (yields_field hcredential fun _ => id) fun _ => id,
    yieldsClean_one (yields_field htokens fun _ => id) fun _ => id,
    yieldsClean_one yieldsClean_replyTo fun _ => id,
    yieldsClean_one_of_forall (staysInLine_field staysIn_parseU32 _) fun _ => hnone rfl,
    yieldsClean_one (yields_field htokens fun _ => id) fun _ => id,
    yieldsClean_one (yields_field yieldsClean_mediaType fun _ => id) fun _ => id,
    yieldsClean_one yieldsClean_contentDisposition fun _ => id,
    yieldsClean_many yieldsClean_recordRoute fun _ => id,
    yieldsClean_one (yields_field htokens fun _ => id) fun _ => id,
    yieldsClean_one yieldsClean_retryAfter fun _ => id,
    yieldsClean_one (yields_field hline fun _ => id) fun _ => id,
    yieldsClean_one (yields_field (yieldsClean_collectElems yieldsClean_coding) fun _ => id)
      fun _ => id,
    yieldsClean_one (yields_field (yieldsClean_collectElems yieldsClean_mediaType) fun _ => id)
      fun _ => id,
    yieldsClean_one (yields_field (yieldsClean_collectElems yieldsClean_language) fun _ => id)
      fun _ => id,
    yieldsClean_one yieldsClean_alertInfo fun _ => id,
    yieldsClean_one_of_forall staysInLine_allow fun _ => hnone rfl,
    yieldsClean_one yieldsClean_authenticationInfo fun _ => id,
    yieldsClean_one (yields_field htokens fun _ => id) fun _ => id,
    yieldsClean_one yieldsClean_timestamp fun _ => id,
    yieldsClean_one (yields_field htokens fun _ => id) fun _ => id,
    yieldsClean_one (yields_field hchallenge fun _ => id) fun _ => id,
    yieldsClean_one yieldsClean_warning fun _ => id⟩

/-- Whichever parser the name selects, the headers of the line are clean; an unknown one keeps its
    clean name. -/
theorem yieldsClean_parseHeaderValue {name : String} (hname : Clean name) :
    YieldsClean (parseHeaderValue name) := by
  rcases parseHeaderValue_cases name with ⟨entry, hentry, -, heq⟩ | ⟨-, heq⟩
  · rw [heq]
    exact yieldsClean_headerParsers entry hentry
  · rw [heq]
    exact yieldsClean_one yieldsClean_readLine fun data hdata => clean_rawHeader.mpr ⟨hname, hdata⟩

/-- The name in front of the colon is a token of the text. -/
theorem yieldsClean_headerName : YieldsClean headerName := by
  apply Yields.bind (yieldsClean_readWhile _)
  intro name hname
  apply Yields.bind (keepsClean staysIn_skipWs)
  intro _ _
  apply Yields.bind (keepsClean (staysIn_mustRead 58))
  intro _ _
  exact (keepsClean staysIn_skipWs).bind fun _ _ => Yields.pure hname

end SipParser

end Rssip
