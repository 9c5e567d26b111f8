import Rssip.Parser.Canonical
import Rssip.Parser.Lists
import Rssip.Parser.MessageRoundTrip

namespace Rssip

open Lib SipParser

/-!
# What a header that is read back tells

When the printed line of a header is read as this header, then the parser of its value has made
the value from its text.

* `Printed`, `PrintedAs` — the name and the value of a line, and `PrintedAs.parse_of_readBack` from
  the line to the value;
* `Printed.readBack_iff_scanned` — for a value without quotes, what is read back is what is made
  from texts without quotes;
* `not_isV6_of_parseHostPort`, … — an IPv6 address is made from brackets only, and none are
  printed.
-/

/-! ### From a line to its value -/

namespace SipParser

variable {rest text : Bytes}

/-- The parser of the value runs behind the colon, where it and the blanks after it have been
    read. -/
theorem LineReads.parse {name value : String} {headers : Headers} {isContentType : Bool}
    (h : LineReads (headerLine name value) headers isContentType) (hname : Over isToken name) :
    ∃ c₀ c c' : Scanner, c₀.remaining = [32] ++ (asBytes value ++ [13, 10]) ∧
      skipWs c₀ = .ok () c ∧ parseHeaderValue name c = .ok headers c' := by
  let line := asBytes (headerLine name value ++ "\r\n")
  have hline : Cursor.remaining (Scanner.new line) =
      asBytes name ++ ([58] ++ ([32] ++ (asBytes value ++ [13, 10]))) := by
    show line = _
    rw [← List.append_assoc [58], ← List.append_assoc, ← asBytes_headerLine]
  have hrun := h.reads [] (Scanner.new line) (List.append_nil _).symm
  have hread : Reads readToken (asBytes name) ([58] ++ ([32] ++ (asBytes value ++ [13, 10]))) name :=
    reads_readWhile hname (stops_cons.mpr (by decide))
  rw [parseHeaderLine] at hrun
  obtain ⟨name', c, hhead, hrun⟩ := bind_eq_ok_iff.mp hrun
  rw [headerName, hread.bind_run hline] at hhead
  have hc₁ := remaining_advance (σ := Scanner) hline
  have hnone : Reads skipWs [] ([58] ++ ([32] ++ (asBytes value ++ [13, 10]))) () :=
    reads_skipWs_nil (stops_cons.mpr (by decide))
  rw [hnone.bind_run hc₁, advance_nil, reads_mustRead.bind_run hc₁] at hhead
  have hc₀ := remaining_advance (σ := Scanner) hc₁
  obtain ⟨_, c₂, hblanks, hpure⟩ := bind_eq_ok_iff.mp hhead
  injection hpure with hname' hc₂
  obtain ⟨headers', c', hparse, hrun⟩ := bind_eq_ok_iff.mp hrun
  obtain ⟨-, c'', -, hrun⟩ := bind_eq_ok_iff.mp hrun
  injection hrun with hheaders _
  rw [(Prod.mk.inj hheaders).1, ← hname', ← hc₂] at hparse
  exact ⟨_, c₂, c', hc₀, hblanks, hparse⟩

theorem one_eq_ok {α : Type} {toHeader : α → Header} {parse : Parse α} {c c' : Scanner} {headers : Headers}
    (h : one toHeader parse c = .ok headers c') :
    ∃ a, parse c = .ok a c' ∧ headers = [toHeader a] := by
  obtain ⟨a, c₁, hparse, h⟩ := bind_eq_ok_iff.mp h
  injection h with hheaders hc
  rw [hc] at hparse
  exact ⟨a, hparse, hheaders.symm⟩

/-- The first element of a list is made from the start of its text. -/
theorem collectSep_eq_ok {α : Type} {p : Parse α} {c c' : Scanner} {as : List α}
    (h : collectSep 44 p c = .ok as c') : ∃ a as' c₁, p c = .ok a c₁ ∧ as = a :: as' := by
  have hloop : ∃ a as' c₁, as = [] ++ a :: as' ∧ p c = .ok a c₁ := by
    apply loop_ok (P := fun acc c as _ => ∃ a as' c₁, as = acc ++ a :: as' ∧ p c = .ok a c₁) _ _ h
    · intro acc c as c' hbody
      obtain ⟨a, c₁, ha, ⟨hnext, -⟩ | ⟨hnext, -⟩⟩ := collectBody_eq_ok hbody
      · cases hnext
      · exact ⟨a, [], c₁, Sum.inr.inj hnext, ha⟩
    · intro acc c acc' c₂ as c' hbody ⟨b, as', _, has, _⟩
      obtain ⟨a, c₁, ha, ⟨hnext, -⟩ | ⟨hnext, -⟩⟩ := collectBody_eq_ok hbody
      · refine ⟨a, b :: as', c₁, ?_, ha⟩
        rw [has, Sum.inl.inj hnext, List.append_assoc]
        rfl
      · cases hnext
  obtain ⟨a, as', c₁, has, ha⟩ := hloop
  exact ⟨a, as', c₁, ha, has⟩

theorem many_eq_ok {α : Type} {toHeader : α → Header} {parse : Parse α} {c c' : Scanner}
    {headers : Headers} (h : many toHeader parse c = .ok headers c') :
    ∃ a as c₁, parse c = .ok a c₁ ∧ headers = toHeader a :: as := by
  obtain ⟨as, c₁, hcollect, h⟩ := bind_eq_ok_iff.mp h
  injection h with hheaders _
  obtain ⟨a, as', c₂, ha, rfl⟩ := collectSep_eq_ok hcollect
  exact ⟨a, as'.map toHeader, c₂, ha, hheaders.symm⟩

/-- The header `toHeader a` is printed as the line `name: value`, and `parse` is the parser of such
    values. -/
structure Printed {α : Type} (toHeader : α → Header) (parse : Parse α) (name value : String)
    (a : α) : Prop where
  text : (toHeader a).toText = some (headerLine name value)
  token : Over isToken name
  parser : parseHeaderValue name = one toHeader parse ∨ parseHeaderValue name = many toHeader parse
  isContentType : isContentTypeName name = (toHeader a).isContentType

/-- And the value does not start with a blank, so that it is read from its start on. -/
structure PrintedAs {α : Type} (toHeader : α → Header) (parse : Parse α) (name value : String)
    (a : α) : Prop extends Printed toHeader parse name value a where
  start : ∀ rest, Stops isSpace (asBytes value ++ 13 :: rest)

section Printed

variable {α : Type} {toHeader : α → Header} {parse : Parse α} {name value : String} {a : α}

/-- A header whose value is read back is read back. -/
theorem PrintedAs.readBack (h : PrintedAs toHeader parse name value a)
    (hread : ∀ rest, Reads parse (asBytes value) (13 :: rest) a) : (toHeader a).ReadBack := by
  have hvalue : ∀ rest, Reads (parseHeaderValue name) (asBytes value) (13 :: rest) [toHeader a] := by
    intro rest
    rcases h.parser with hparser | hparser
    · exact hparser ▸ reads_one (hread rest)
    · exact hparser ▸ reads_many (hread rest)
  exact ⟨_, h.text, lineReads name value h.token rfl h.isContentType h.start hvalue⟩

/-- A header that is read back is what its parser makes of its value, behind the blanks. -/
theorem Printed.parse_of_readBack (h : Printed toHeader parse name value a)
    (hinj : Function.Injective toHeader) (hread : (toHeader a).ReadBack) :
    ∃ c₀ c c' : Scanner, c₀.remaining = [32] ++ (asBytes value ++ [13, 10]) ∧
      skipWs c₀ = .ok () c ∧ parse c = .ok a c' := by
  obtain ⟨line, htext, hread⟩ := hread
  obtain rfl : headerLine name value = line := Option.some.inj (h.text.symm.trans htext)
  obtain ⟨c₀, c, c', hc₀, hblanks, hrun⟩ := hread.parse h.token
  -- the first header of the line is the only one
  obtain ⟨b, bs, c₁, hparse, hheaders⟩ :
      ∃ b bs c₁, parse c = .ok b c₁ ∧ [toHeader a] = toHeader b :: bs := by
    rcases h.parser with hparser | hparser
    · rw [hparser] at hrun
      obtain ⟨b, hparse, hheaders⟩ := one_eq_ok hrun
      exact ⟨b, [], c', hparse, hheaders⟩
    · rw [hparser] at hrun
      exact many_eq_ok hrun
  rw [hinj (List.cons.inj hheaders).1]
  exact ⟨c₀, c, c₁, hc₀, hblanks, hparse⟩

/-- **A header that is read back** is what its parser makes of its value. -/
theorem PrintedAs.parse_of_readBack (h : PrintedAs toHeader parse name value a)
    (hinj : Function.Injective toHeader) (hread : (toHeader a).ReadBack) :
    ∃ c c', Scanner.remaining c = asBytes value ++ [13, 10] ∧ parse c = .ok a c' := by
  obtain ⟨c₀, c, c', hc₀, hblanks, hparse⟩ := h.toPrinted.parse_of_readBack hinj hread
  have hskip : Reads skipWs [32] (asBytes value ++ [13, 10]) () :=
    reads_skipWs (by decide) (h.start [10])
  have heq := (hskip c₀ hc₀).symm.trans hblanks
  injection heq with _ hc
  rw [← hc] at hparse
  have hrem := remaining_advance (σ := Scanner) hc₀
  exact ⟨_, c', hrem, hparse⟩

/-- From a value with a property that every rest of it has, only certain headers are made. -/
theorem Printed.of_readBack (h : Printed toHeader parse name value a)
    (hinj : Function.Injective toHeader) {S : Scanner → Prop} (hS : Inherited S)
    (hvalue : S (Scanner.new ([32] ++ (asBytes value ++ [13, 10])))) {P : α → Prop}
    (hparse : Yields S P parse) (hread : (toHeader a).ReadBack) : P a := by
  obtain ⟨c₀, c, c', hc₀, hblanks, hrun⟩ := h.parse_of_readBack hinj hread
  have hsuffix : c.remaining <:+ (Scanner.new ([32] ++ (asBytes value ++ [13, 10]))).remaining := by
    show c.remaining <:+ [32] ++ (asBytes value ++ [13, 10])
    rw [← hc₀]
    exact ends_skipWs.suffix hblanks
  exact (hparse c a c' (hS hvalue hsuffix) hrun).1

/-- **A header without quotes is read back** if and only if it is one of those that are made from
    texts without quotes. -/
theorem Printed.readBack_iff_scanned (h : Printed toHeader parse name value a)
    (hinj : Function.Injective toHeader) {P : α → Prop} (hparse : Yields (Quoteless False) P parse)
    (hquote : 34 ∉ asBytes value)
    (hreads : P a → ∀ rest, Stops isSpace (asBytes value ++ 13 :: rest) ∧
      Reads parse (asBytes value) (13 :: rest) a) :
    (toHeader a).ReadBack ↔ P a := by
  constructor
  · apply h.of_readBack hinj inherited_quoteless _ hparse
    apply quoteless_new
    simp only [List.mem_append, not_or]
    exact ⟨by decide, hquote, by decide⟩
  · intro ha
    have hprinted : PrintedAs toHeader parse name value a :=
      { h with start := fun rest => (hreads ha rest).1 }
    exact hprinted.readBack fun rest => (hreads ha rest).2

end Printed

/-- What a loop over parameters fills has what every one of them keeps, and what it gives back has
    what they are given back with. -/
theorem keeps_parseParamsWith {α : Type} {P : α → Prop} {R : Param → Prop} {ref : Parse Param}
    {store : α → Param → Parse (α × Option Param)}
    (hstore : ∀ a p, P a → Yields (fun _ => True) (fun r => P r.1 ∧ ∀ q ∈ r.2, R q) (store a p))
    {a : α} (ha : P a) {c c' : Scanner} {r : α × Params}
    (hrun : parseParamsWith ref store a c = .ok r c') : P r.1 ∧ ∀ q ∈ r.2.inner, R q := by
  have hinherited : Inherited fun _ => True := fun _ _ _ _ => trivial
  have href : Yields (fun _ => True) (fun _ => True) ref := fun _ _ _ _ _ => ⟨trivial, trivial⟩
  have hkeeps := yields_parseParamsWith hinherited href (fun a p ha _ => hstore a p ha) ha
  exact (hkeeps c r c' trivial hrun).1

theorem of_parseParamsWith {α : Type} {P : α → Prop} {ref : Parse Param}
    {store : α → Param → Parse (α × Option Param)}
    (hstore : ∀ a p, P a → Yields (fun _ => True) (fun r => P r.1) (store a p)) {a : α} (ha : P a)
    {c c' : Scanner} {r : α × Params} (hrun : parseParamsWith ref store a c = .ok r c') : P r.1 := by
  have hkeeps : ∀ a p, P a →
      Yields (fun _ => True) (fun r => P r.1 ∧ ∀ q ∈ r.2, True) (store a p) :=
    fun a p ha => (hstore a p ha).imp fun r hr => ⟨hr, fun _ _ => trivial⟩
  exact (keeps_parseParamsWith hkeeps ha hrun).1

end SipParser

/-- A header that is read back is read back from its line alone. -/
theorem Header.ReadBack.fromStr {h : Header} {line : String} (hread : h.ReadBack)
    (htext : h.toText = some line) :
    SipParser.fromStr parseHeaderLine (line ++ "\r\n") = .ok ([h], h.isContentType) := by
  obtain ⟨line', htext', hread⟩ := hread
  obtain rfl : line' = line := Option.some.inj (htext'.symm.trans htext)
  exact fromStr_of_reads (hread.reads [])

namespace SipParser

variable {rest : Bytes}

/-! ### Hosts -/

/-- Only from brackets is an IPv6 address made. -/
theorem bracket_of_parseHost {c c' : Scanner} {h : Host} (hrun : parseHost c = .ok h c')
    (hv6 : h.IsV6) : c.remaining.head? = some 91 := by
  obtain ⟨next, c₁, hpeek, hrun⟩ := bind_eq_ok_iff.mp hrun
  injection hpeek with hnext hc₁
  rw [Scanner.peek_eq_head?] at hnext
  by_cases hbracket : next = some 91
  · exact hnext.trans hbracket
  · -- a name over the host table has no colon
    rw [if_neg hbracket] at hrun
    obtain ⟨name, c₂, hread, hrun⟩ := bind_eq_ok_iff.mp hrun
    have hover : Over isHost name :=
      (yields_readWhile inherited_quoteless isHost _ name c₂ (Or.inl trivial) hread).1
    split at hrun
    · injection hrun
    · injection hrun with hhost _
      rw [← hhost, Host.fromStr] at hv6
      cases hparse : IpAddr.parse name with
      | none =>
        rw [hparse] at hv6
        exact absurd hv6 id
      | some ip =>
        rw [hparse] at hv6
        cases ip with
        | v4 ip => exact absurd hv6 id
        | v6 ip => exact absurd (IpAddr.colon_mem_of_parse hparse) (hover.not_mem (by decide))

theorem bracket_of_parseHostPort {c c' : Scanner} {h : HostPort}
    (hrun : parseHostPort c = .ok h c') (hv6 : h.host.IsV6) : c.remaining.head? = some 91 := by
  obtain ⟨host, c₁, hhost, hrun⟩ := bind_eq_ok_iff.mp hrun
  obtain ⟨port, c₂, -, hrun⟩ := bind_eq_ok_iff.mp hrun
  injection hrun with hh _
  rw [← hh] at hv6
  exact bracket_of_parseHost hhost hv6

/-- A byte of a printed host and its port. -/
theorem mem_hostPort {h : HostPort} (hhost : h.host.WellFormed ∨ h.host.IsV6) :
    ∀ b ∈ asBytes h.toText, inHostPort b := by
  intro b hb
  rcases hhost with hhost | hhost
  · exact inHostPort_of_mem hhost b hb
  · rw [HostPort.toText, asBytes_append, List.mem_append] at hb
    rcases hb with hb | hb
    · -- the address itself, in hexadecimal digits, points and colons
      cases hip : h.host with
      | hostName name =>
        rw [hip] at hhost
        exact absurd hhost id
      | ipAddr ip =>
        rw [hip] at hb
        rcases IpAddr.mem_toText hb with hdigit | rfl | rfl
        · simp [inHostPort, isHost_alphanumeric b (mem_alphanumeric (Or.inl hdigit))]
        · decide
        · decide
    · have hmem : b ∈ asBytes (HostPort.toText ⟨.hostName "a", h.port⟩) := by
        rw [HostPort.toText, asBytes_append]
        exact List.mem_append_right _ hb
      have hname : (Host.hostName "a").WellFormed := by decide
      exact inHostPort_of_mem (h := ⟨.hostName "a", h.port⟩) hname b hmem

theorem hostPort_ne_nil {h : HostPort} (hhost : h.host.WellFormed ∨ h.host.IsV6) :
    asBytes h.toText ≠ [] := by
  rw [HostPort.toText, asBytes_append]
  intro hnil
  have htext : h.host.toText = "" :=
    asBytes_injective ((List.append_eq_nil_iff.mp hnil).1.trans asBytes_empty.symm)
  rcases hhost with hhost | hhost
  · exact hhost.toText_ne_empty htext
  · cases hip : h.host with
    | hostName name =>
      rw [hip] at hhost
      exact hhost
    | ipAddr ip =>
      rw [hip] at htext
      have hparse := IpAddr.parse_toText ip
      rw [show ip.toText = "" from htext, show IpAddr.parse "" = none by decide] at hparse
      exact absurd hparse (by simp)

/-- **No host is printed in brackets**, so that no IPv6 address is made from a printed host. -/
theorem not_isV6_of_parseHostPort {h h' : HostPort} (hhost : h.host.WellFormed ∨ h.host.IsV6)
    {c c' : Scanner} (hc : c.remaining = asBytes h.toText ++ rest)
    (hrun : parseHostPort c = .ok h' c') : ¬ h'.host.IsV6 := by
  intro hv6
  have hbracket := bracket_of_parseHostPort hrun hv6
  cases htext : asBytes h.toText with
  | nil => exact hostPort_ne_nil hhost htext
  | cons b bs =>
    have hb : inHostPort b := mem_hostPort hhost b (by simp [htext])
    rw [hc, htext, List.cons_append, List.head?_cons, Option.some.injEq] at hbracket
    rw [hbracket] at hb
    exact absurd hb (by decide)

/-! ### URIs -/

/-- The host of a URI is not changed by its parameters. -/
theorem hostPort_storeUriParam (uri : Uri) (p : Param) :
    Yields (fun _ => True) (fun r : Uri × Option Param => r.1.hostPort = uri.hostPort)
      (storeUriParam uri p) := by
  have hvalue : ∀ {α : Type} {kind : ParseErrorKind} {fromStr : String → Option α} {v : Option String}
      {f : Option α → Uri × Option Param}, (∀ o, (f o).1.hostPort = uri.hostPort) →
      Yields (fun _ => True) (fun r : Uri × Option Param => r.1.hostPort = uri.hostPort)
        (parseValue kind fromStr v >>= fun o => Pure.pure (f o)) := by
    intro α kind fromStr v f hf
    apply Yields.bind (P := fun _ => True) fun _ _ _ _ _ => ⟨trivial, trivial⟩
    exact fun o _ => Yields.pure (hf o)
  unfold storeUriParam
  split
  · exact Yields.pure rfl
  split
  · exact Yields.pure rfl
  split
  · exact hvalue fun _ => rfl
  split
  · exact hvalue fun _ => rfl
  split
  · exact Yields.pure rfl
  split <;> exact Yields.pure rfl

/-- What is read behind the host of a URI leaves the host as it is. -/
theorem hostPort_parseUri {params : Bool} {c c' : Scanner} {u : Uri}
    (hrun : parseUri params c = .ok u c') : ∃ c₁ c₂ user,
      (parseScheme >>= fun _ => parseUserInfo) c = .ok user c₁ ∧
        parseHostPort c₁ = .ok u.hostPort c₂ := by
  obtain ⟨scheme, c₁, hscheme, hrun⟩ := bind_eq_ok_iff.mp hrun
  obtain ⟨user, c₂, huser, hrun⟩ := bind_eq_ok_iff.mp hrun
  obtain ⟨hostPort, c₃, hhost, hrun⟩ := bind_eq_ok_iff.mp hrun
  refine ⟨c₂, c₃, user, bind_eq_ok_iff.mpr ⟨scheme, c₁, hscheme, huser⟩, ?_⟩
  have hkeeps : u.hostPort = hostPort := by
    cases params with
    | false =>
      injection hrun with hu _
      rw [← hu]
    | true =>
      obtain ⟨⟨uri, ps⟩, c₄, hparams, hrun⟩ := bind_eq_ok_iff.mp hrun
      obtain ⟨headers, c₅, -, hrun⟩ := bind_eq_ok_iff.mp hrun
      injection hrun with hu _
      rw [← hu]
      refine of_parseParamsWith (P := fun uri : Uri => uri.hostPort = hostPort) ?_ rfl hparams
      exact fun uri p huri => (hostPort_storeUriParam uri p).imp fun _ hr => hr.trans huri
  rwa [hkeeps]

/-- What is printed behind the host of a URI. -/
def behindHost (u : Uri) : Bytes :=
  paramsBytes (u.fieldParams ++ u.params.inner) ++
    asBytes (u.headers.elim "" fun headers => "?" ++ headers.toText)

/-- No at sign is printed behind the host. -/
theorem noUserPart_behindHost {u : Uri} (hscanned : u.Scanned False) (hvalues : u.HeadersHaveValues)
    (hrest : NoUserPart rest) : NoUserPart (behindHost u ++ rest) := by
  -- the host makes no difference to what is behind it
  let v : Uri := { u with hostPort := default }
  have hlocalhost : (default : HostPort).host.WellFormed := by decide
  have hwf : v.WellFormed := hscanned.wellFormed_of_host hlocalhost hvalues
  have hheaders : 64 ∉ asBytes (u.headers.elim "" fun headers => "?" ++ headers.toText) := by
    cases hsome : u.headers with
    | none =>
      rw [Option.elim_none, asBytes_empty]
      exact List.not_mem_nil
    | some h =>
      rw [Option.elim_some, asBytes_append, List.mem_append, not_or]
      exact ⟨by decide, at_not_mem_uriHeaders (hwf.headers h hsome)⟩
  rw [behindHost, List.append_assoc]
  exact noUserPart_uriParams (u := v) hwf (NoUserPart.append hheaders hrest)

/-- **No IPv6 address is made from a printed URI.** -/
theorem not_isV6_of_parseUri {u u' : Uri} (hscanned : u.Scanned False) (hvalues : u.HeadersHaveValues)
    (hrest : NoUserPart rest) {params : Bool} {c c' : Scanner}
    (hc : c.remaining = asBytes u.toText ++ rest) (hrun : parseUri params c = .ok u' c') :
    ¬ u'.hostPort.host.IsV6 := by
  obtain ⟨c₁, c₂, user, hstart, hparse⟩ := hostPort_parseUri hrun
  have hat : 64 ∉ asBytes u.hostPort.toText := by
    intro hmem
    exact absurd (mem_hostPort hscanned.host 64 hmem) (by decide)
  have hread : Reads (parseScheme >>= fun _ => parseUserInfo)
      ((asBytes u.scheme.toText ++ [58]) ++ asBytes (u.user.elim "" UserInfo.toText))
      (asBytes u.hostPort.toText ++ (behindHost u ++ rest)) u.user := by
    apply Reads.bind (reads_parseScheme _)
    apply reads_parseUserInfo hscanned.user
    exact fun _ => NoUserPart.append hat (noUserPart_behindHost hscanned hvalues hrest)
  have htext : asBytes u.toText ++ rest =
      ((asBytes u.scheme.toText ++ [58]) ++ asBytes (u.user.elim "" UserInfo.toText)) ++
        (asBytes u.hostPort.toText ++ (behindHost u ++ rest)) := by
    rw [asBytes_uri, behindHost]
    simp only [List.append_assoc]
  rw [htext] at hc
  rw [hread c hc] at hstart
  injection hstart with _ hc₁
  rw [← hc₁] at hparse
  have hrem := remaining_advance (σ := Scanner) hc
  exact not_isV6_of_parseHostPort hscanned.host hrem hparse

/-! ### Vias -/

theorem sentBy_storeViaParam (via : Via) (p : Param) :
    Yields (fun _ => True) (fun r : Via × Option Param => r.1.sentBy = via.sentBy)
      (storeViaParam via p) := by
  have hvalue : ∀ {α : Type} {r : Parse α} {f : α → Via × Option Param},
      (∀ a, (f a).1.sentBy = via.sentBy) →
      Yields (fun _ => True) (fun r : Via × Option Param => r.1.sentBy = via.sentBy)
        (r >>= fun a => Pure.pure (f a)) := by
    intro α r f hf
    apply Yields.bind (P := fun _ => True) fun _ _ _ _ _ => ⟨trivial, trivial⟩
    exact fun a _ => Yields.pure (hf a)
  unfold storeViaParam
  split
  · exact Yields.pure rfl
  split
  · exact hvalue fun _ => rfl
  split
  · exact Yields.pure rfl
  split
  · exact hvalue fun _ => rfl
  split
  · exact hvalue fun _ => rfl
  · exact Yields.pure rfl

/-- **No IPv6 address is made from the sent-by of a printed `Via`.** -/
theorem not_isV6_of_parseVia {v v' : Via} (hhost : v.sentBy.host.WellFormed ∨ v.sentBy.host.IsV6)
    {c c' : Scanner} (hc : c.remaining = asBytes (viaValue v) ++ rest)
    (hrun : Via.parse c = .ok v' c') : ¬ v'.sentBy.host.IsV6 := by
  have htransport : Over isToken v.transport.asUpperCase := by cases v.transport <;> decide
  have hnext : ∀ after : Bytes, Stops isSpace (asBytes v.sentBy.toText ++ after) := by
    intro after
    cases htext : asBytes v.sentBy.toText with
    | nil => exact absurd htext (hostPort_ne_nil hhost)
    | cons b bs =>
      have hb : inHostPort b := mem_hostPort hhost b (by simp [htext])
      exact stops_cons.mpr (isSpace_eq_false (by decide) (by decide) hb)
  rw [asBytes_viaValue] at hc
  simp only [List.append_assoc] at hc
  -- the steps up to the host read what was printed
  rw [Via.parse, reads_parseSipVersion.bind_run hc] at hrun
  have hc₁ := remaining_advance (σ := Scanner) hc
  rw [reads_advance.bind_run hc₁] at hrun
  have hc₂ := remaining_advance (σ := Scanner) hc₁
  have hread : ∀ next, Reads readToken (asBytes v.transport.asUpperCase) ([32] ++ next)
      v.transport.asUpperCase := fun _ => reads_readWhile htransport (stops_cons.mpr (by decide))
  rw [(hread _).bind_run hc₂] at hrun
  have hc₃ := remaining_advance (σ := Scanner) hc₂
  rw [TransportProtocol.fromStr_asUpperCase] at hrun
  obtain ⟨transport, c₄, hok, hrun⟩ := bind_eq_ok_iff.mp hrun
  injection hok with _ hc₄
  rw [← hc₄, (reads_skipWs (by decide) (hnext _)).bind_run hc₃] at hrun
  have hc₅ := remaining_advance (σ := Scanner) hc₃
  obtain ⟨sentBy, c₆, hparse, hrun⟩ := bind_eq_ok_iff.mp hrun
  -- and nothing behind the host changes it
  obtain ⟨⟨via, ps⟩, c₇, hparams, hrun⟩ := bind_eq_ok_iff.mp hrun
  obtain ⟨comment, c₈, -, hrun⟩ := bind_eq_ok_iff.mp hrun
  injection hrun with hv _
  have hsentBy : v'.sentBy = sentBy := by
    rw [← hv]
    refine of_parseParamsWith (P := fun via : Via => via.sentBy = sentBy) ?_ rfl hparams
    exact fun via p hvia => (sentBy_storeViaParam via p).imp fun _ hr => hr.trans hvia
  rw [hsentBy]
  exact not_isV6_of_parseHostPort hhost hc₅ hparse

end SipParser

end Rssip
