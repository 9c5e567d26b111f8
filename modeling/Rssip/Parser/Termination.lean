import Rssip.Parser.Body
import Rssip.Parser.Confined

namespace Rssip

open Lib

/-!
# The parser terminates

The loops of the parser are bounded in the model, and end in `Failure.stuck` when they outrun
their bound.  They never do, since each iteration but the last consumes something.

* `LoopBody` — the loops of the parser;
* `parse_terminates` — every one of them makes progress, the parser never gets stuck, and it
  returns at most one header for each byte.
-/

namespace SipParser

/-! ### The loop over the header lines -/

/-- One line end is read without a loop. -/
theorem ends_scanNewline : Ends scanNewline := by
  apply ends_ofScan
  apply Bounded.bind (bounded_scanIfEq 13)
  intro carriageReturn
  apply Bounded.bind (bounded_scanIfEq 10)
  intro lineFeed
  split
  · exact bounded_scanError _
  · exact Bounded.pure _

/-- The name of a header is read, or the parser fails. -/
theorem ends_headerName : Ends headerName := by
  apply Bounded.bind ends_readToken
  intro name
  apply Bounded.bind ends_skipWs
  intro _
  apply Bounded.bind (ends_mustRead 58)
  intro _
  exact ends_skipWs.bind fun _ => Bounded.pure _

/-- A name comes with its colon. -/
theorem length_headerName {c c' : Scanner} {name : String} (h : headerName c = .ok name c') :
    (Cursor.remaining c').length < (Cursor.remaining c).length := by
  obtain ⟨token, c₁, htoken, h⟩ := bind_eq_ok_iff.mp h
  obtain ⟨_, c₂, hws, h⟩ := bind_eq_ok_iff.mp h
  obtain ⟨_, c₃, hcolon, h⟩ := bind_eq_ok_iff.mp h
  obtain ⟨_, c₄, hws', h⟩ := bind_eq_ok_iff.mp h
  injection h with _ hc'
  have htoken_le := ends_readToken.length_le htoken
  have hws_le := ends_skipWs.length_le hws
  have hcolon' := gives_mustRead.mp ⟨c₃, ofScan_eq_ok_iff.mp hcolon, rfl⟩
  have hlen : (Cursor.remaining c₂).length = (Cursor.remaining c₃).length + 1 := by
    rw [show Cursor.remaining c₂ = c₂.remaining from rfl, hcolon', List.length_cons]
  have hws_le' := ends_skipWs.length_le hws'
  rw [← hc']
  omega

/-- **A header line panics for its version only.** -/
theorem ends_parseHeaderValue (name : String) : EndsOrPanics (parseHeaderValue name) :=
  (valueParser_parseHeaderValue name).inLine.toBounded.mono (Failure.IsErrorOr.mono fun _ => trivial)

/-- A parser that never gets stuck does not need the exception for panics. -/
theorem endsOrPanics_of_ends {α : Type} {r : Parse α} (h : Ends r) : EndsOrPanics r :=
  h.mono (Failure.IsErrorOr.mono False.elim)

/-- A header line is read, or the parser fails or panics, whatever its name. -/
theorem ends_parseHeaderLine : EndsOrPanics parseHeaderLine := by
  apply Bounded.bind (endsOrPanics_of_ends ends_headerName)
  intro name
  apply Bounded.bind (ends_parseHeaderValue name)
  intro headers
  exact (endsOrPanics_of_ends ends_scanNewline).bind fun _ => Bounded.pure _

/-- A line holds at most as many headers as it has bytes. -/
theorem length_parseHeaderLine {c c' : Scanner} {line : Headers × Bool}
    (h : parseHeaderLine c = .ok line c') :
    line.1.length + (Cursor.remaining c').length ≤ (Cursor.remaining c).length := by
  obtain ⟨name, c₁, hname, h⟩ := bind_eq_ok_iff.mp h
  obtain ⟨headers, c₂, hvalue, h⟩ := bind_eq_ok_iff.mp h
  obtain ⟨_, c₃, hnewline, h⟩ := bind_eq_ok_iff.mp h
  injection h with hline hc'
  have hname_lt := length_headerName hname
  have hvalue_le := (valueParser_parseHeaderValue name).length_le hvalue
  have hnewline_le := ends_scanNewline.length_le hnewline
  rw [← hline, ← hc']
  dsimp only
  omega

/-- One turn of the loop over the headers does not get stuck. -/
theorem ends_headersBody (a : Headers × Bool) : EndsOrPanics (headersBody a) := by
  obtain ⟨headers, found⟩ := a
  apply Bounded.bind ends_parseHeaderLine
  rintro ⟨line, isContentType⟩
  apply Bounded.bind (endsOrPanics_of_ends ends_peek)
  intro next
  split <;> exact Bounded.pure _

/-- One iteration, whether it is the last or not. -/
theorem headersBody_eq_ok {headers : Headers} {found : Bool} {c c' : Scanner}
    {next : (Headers × Bool) ⊕ (Headers × Bool)} (h : headersBody (headers, found) c = .ok next c') :
    ∃ line, parseHeaderLine c = .ok line c' ∧
      next.elim id id = (headers ++ line.1, found || line.2) ∧
      (next.isRight ↔ c'.peek = some 13 ∨ c'.peek = some 10 ∨ c'.peek = none) := by
  obtain ⟨⟨line, isContentType⟩, c₁, hline, h⟩ := bind_eq_ok_iff.mp h
  obtain ⟨o, c₂, hpeek, h⟩ := bind_eq_ok_iff.mp h
  injection hpeek with ho hc₂
  rw [← hc₂, ← ho] at h
  refine ⟨(line, isContentType), ?_⟩
  split at h
  · rename_i hend
    injection h with hnext hc'
    rw [← hnext, ← hc']
    exact ⟨hline, rfl, iff_of_true rfl hend⟩
  · rename_i hgo
    injection h with hnext hc'
    rw [← hnext, ← hc']
    exact ⟨hline, rfl, iff_of_false nofun hgo⟩

/-- **Each iteration consumes a header line.** -/
theorem consumes_headersBody : Consumes headersBody := by
  rintro ⟨headers, found⟩ c a' c' h
  obtain ⟨line, hline, -⟩ := headersBody_eq_ok h
  obtain ⟨name, c₁, hname, h⟩ := bind_eq_ok_iff.mp hline
  obtain ⟨values, c₂, hvalue, h⟩ := bind_eq_ok_iff.mp h
  obtain ⟨_, c₃, hnewline, h⟩ := bind_eq_ok_iff.mp h
  injection h with _ hc'
  have hname_lt := length_headerName hname
  have hvalue_le := (ends_parseHeaderValue name).length_le hvalue
  have hnewline_le := ends_scanNewline.length_le hnewline
  rw [← hc']
  omega

/-- The loop over the headers ends: each turn that goes on has read a line. -/
theorem ends_parseHeaders : EndsOrPanics parseHeaders :=
  Bounded.loop ends_headersBody consumes_headersBody _

/-- **There is a byte for each header.** -/
theorem length_parseHeaders {c c' : Scanner} {headers : Headers} {found : Bool}
    (h : parseHeaders c = .ok (headers, found) c') :
    headers.length + (Cursor.remaining c').length ≤ (Cursor.remaining c).length := by
  have hstep : ∀ {a : Headers × Bool} {c next c'}, headersBody a c = .ok next c' →
      (next.elim id id).1.length + (Cursor.remaining c').length ≤
        a.1.length + (Cursor.remaining c).length := by
    rintro ⟨headers, found⟩ c next c' h
    obtain ⟨line, hline, hnext, -⟩ := headersBody_eq_ok h
    have hle := length_parseHeaderLine hline
    rw [hnext, List.length_append]
    dsimp only
    omega
  have hsize := size_loop (fun a : Headers × Bool => a.1.length)
    (fun a : Headers × Bool => a.1.length) 0 (fun hinl => hstep hinl) (fun hinr => hstep hinr) h
  simpa using hsize

/-! ### Messages -/

/-- A status line is read, or the parser fails. -/
theorem ends_parseStatusLine : Ends parseStatusLine := by
  apply Bounded.bind ends_parseSipVersion
  intro _
  apply Bounded.bind
  · apply Bounded.bind ends_skipWs
    intro _
    apply Bounded.bind (ends_consumeWhile isAsciiDigit)
    intro digits
    apply Bounded.bind ends_skipWs
    intro _
    exact ends_ofOption _ _
  · intro code
    apply Bounded.bind staysInLine_readLine.toBounded
    intro reason
    exact ends_skipNewline.bind fun _ => Bounded.pure _

/-- A request line is read, or the parser fails. -/
theorem ends_parseRequestLine : Ends parseRequestLine := by
  apply Bounded.bind (ends_consumeWhile isToken)
  intro token
  apply Bounded.bind ends_skipWs
  intro _
  apply Bounded.bind (ends_parseUri true)
  intro uri
  apply Bounded.bind ends_skipWs
  intro _
  apply Bounded.bind ends_parseSipVersion
  intro _
  exact ends_skipNewline.bind fun _ => Bounded.pure _

/-- Whichever of the two lines it is, it is read, or the parser fails. -/
theorem ends_parseStartLine : Ends parseStartLine := by
  apply Bounded.get_bind
  intro c
  dsimp only
  split
  · exact ends_parseStatusLine.bind fun _ => Bounded.pure _
  · exact ends_parseRequestLine.bind fun _ => Bounded.pure _

/-- The body is what is left, without a loop. -/
theorem ends_parseBody : Ends parseBody :=
  ends_skipNewline.bind fun _ => Bounded.get_bind fun _ => Bounded.pure _

/-- A message is read, or the parser fails or panics. -/
theorem ends_parseSipMsg : EndsOrPanics parseSipMsg := by
  apply Bounded.bind (endsOrPanics_of_ends ends_parseStartLine)
  intro bare
  apply Bounded.bind ends_parseHeaders
  rintro ⟨headers, found⟩
  dsimp only
  split
  · exact (endsOrPanics_of_ends ends_parseBody).bind fun _ => Bounded.pure _
  · exact Bounded.pure _

/-! ### All loops -/

/-- The body of `collectSep`. -/
def collectBody {α : Type} (sep : UInt8) (elem : Parse α) :
    List α → Parse (List α ⊕ List α) :=
  foldSepBody sep fun elems => (elems ++ [·]) <$> elem

/-- The elements of `collectElemsSeparatedByComma`. -/
def commaElem {α : Type} (elem : Parse α) : Parse α := do
  skipWs
  elem

/-- The body of the loop over the parameters of an authentication header. -/
def authBody {α : Type} (store : α → Param → α) : α → Parse (α ⊕ α) :=
  foldSepBody 44 fun a => do
    skipWs
    return store a (← paramRef)

/-- The bodies of the loops of the parser. -/
inductive LoopBody : {α γ : Type} → (α → Parse (α ⊕ γ)) → Prop
  | headers : LoopBody headersBody
  | via : LoopBody (collectBody 44 Via.parse)
  | route : LoopBody (collectBody 44 Route.parse)
  | recordRoute : LoopBody (collectBody 44 RecordRoute.parse)
  | contact : LoopBody (collectBody 44 Contact.parse)
  | errorInfo : LoopBody (collectBody 44 (commaElem ErrorInfoUri.parse))
  | inReplyTo : LoopBody (collectBody 44 (commaElem do
      let id ← consumeWhile fun b => !isNewline b && b != 44
      return CallId.mk (← utf8 id)))
  | tokens : LoopBody (collectBody 44 (commaElem token))
  | allow : LoopBody (collectBody 44 (commaElem do
      return SipMethod.fromBytes (← takeAlphabetic)))
  | accept : LoopBody (collectBody 44 (commaElem MediaType.parse))
  | acceptEncoding : LoopBody (collectBody 44 (commaElem Coding.parse))
  | acceptLanguage : LoopBody (collectBody 44 (commaElem Language.parse))
  | contentLanguage : LoopBody (collectBody 44 (commaElem LanguageTag.parse))
  | digestChallenge : LoopBody (authBody DigestChallenge.store)
  | digestCredential : LoopBody (authBody DigestCredential.store)
  | authenticationInfo : LoopBody (authBody AuthenticationInfo.store)
  | uriHeaders : LoopBody (collectBody 38 parseUriHeader)
  | uriParams : LoopBody (paramsBody parseUriParam storeUriParam)
  | viaParams : LoopBody (paramsBody viaParam storeViaParam)
  | tagParams : LoopBody (paramsBody paramRef storeTag)
  | contactParams : LoopBody (paramsBody paramRef storeContactParam)
  | qParams : LoopBody (paramsBody paramRef storeQ)
  | purposeParams : LoopBody (paramsBody paramRef storePurpose)
  | params : LoopBody (paramsBody paramRef fun _ param => return ((), some param))

/-- A turn of a list that goes on has consumed its separator. -/
theorem consumes_collectBody {α : Type} {sep : UInt8} {elem : Parse α} (h : StaysInLine elem) :
    Consumes (collectBody sep elem) := consumes_foldSepBody fun _ => h.map.toBounded

/-- A turn of a comma-separated list that goes on has consumed its comma. -/
theorem consumes_commaBody {α : Type} {elem : Parse α} (h : StaysInLine elem) :
    Consumes (collectBody 44 (commaElem elem)) :=
  consumes_collectBody (staysIn_skipWs.bind fun _ => h)

/-- A turn over authentication parameters that goes on has consumed its comma. -/
theorem consumes_authBody {α : Type} (store : α → Param → α) : Consumes (authBody store) :=
  consumes_foldSepBody fun _ => ends_skipWs.bind fun _ =>
    (staysInLine_field staysIn_paramRef _).toBounded

/-- **Every loop makes progress**, even around elements that consume nothing. -/
theorem LoopBody.consumes {α γ : Type} {body : α → Parse (α ⊕ γ)} (h : LoopBody body) :
    Consumes body := by
  -- one case for each loop of the parser
  cases h with
  | headers => exact consumes_headersBody
  | via => exact consumes_collectBody staysIn_via
  | route => exact consumes_collectBody staysIn_route
  | recordRoute => exact consumes_collectBody staysIn_recordRoute
  | contact => exact consumes_collectBody staysInLine_contact
  | errorInfo => exact consumes_commaBody staysInLine_errorInfoUri
  | inReplyTo =>
    apply consumes_commaBody
    apply Confined.bind (staysIn_consumeWhile (NoNewline.excludes (by decide)))
    exact fun id => staysInLine_field (staysIn_utf8 id) _
  | tokens => exact consumes_commaBody staysIn_token
  | allow => exact consumes_commaBody (staysInLine_field staysInLine_takeAlphabetic _)
  | accept => exact consumes_commaBody staysInLine_mediaType
  | acceptEncoding => exact consumes_commaBody staysInLine_coding
  | acceptLanguage => exact consumes_commaBody staysInLine_language
  | contentLanguage => exact consumes_commaBody staysInLine_languageTag
  | digestChallenge => exact consumes_authBody _
  | digestCredential => exact consumes_authBody _
  | authenticationInfo => exact consumes_authBody _
  | uriHeaders => exact consumes_collectBody staysIn_parseUriHeader
  -- a loop over parameters consumes the `;` in front of each
  | uriParams =>
    exact consumes_paramsBody (ends_paramRefUnchecked isParam_table)
      fun _ _ => ends_of_line (staysIn_storeUriParam _ _)
  | viaParams =>
    exact consumes_paramsBody (ends_paramRefUnchecked isViaParam_table)
      fun _ _ => ends_of_line (staysIn_storeViaParam _ _)
  | tagParams =>
    exact consumes_paramsBody (ends_paramRefUnchecked isToken_table)
      fun _ _ => ends_of_line (staysIn_storeTag _ _)
  | contactParams =>
    exact consumes_paramsBody (ends_paramRefUnchecked isToken_table)
      fun _ _ => ends_of_line (staysIn_storeContactParam _ _)
  | qParams =>
    exact consumes_paramsBody (ends_paramRefUnchecked isToken_table)
      fun _ _ => ends_of_line (staysIn_storeQ _ _)
  | purposeParams =>
    exact consumes_paramsBody (ends_paramRefUnchecked isToken_table)
      fun _ _ => ends_of_line (staysInLine_storePurpose _ _)
  | params =>
    exact consumes_paramsBody (ends_paramRefUnchecked isToken_table) fun _ _ => Bounded.pure _

/-- On no buffer does the parser get stuck in a loop. -/
theorem parse_ne_stuck (buf : Bytes) : parse buf ≠ .error .stuck := by
  intro h
  obtain ⟨c, hrun⟩ := parse_eq_error_iff.mp h
  exact ends_parseSipMsg.error hrun

/-- The headers that are set are the ones there are then. -/
theorem setHeaders_headers (m : SipMessage) (hs : Headers) : (m.setHeaders hs).headers = hs := by
  cases m <;> rfl

/-- To set the body does not change the headers. -/
theorem setBody_headers (m : SipMessage) (b : Option Bytes) :
    (m.setBody b).headers = m.headers := by
  cases m <;> rfl

/-- The headers that were read are those of the message. -/
theorem readMessage_headers (m : SipMessage) (headers : Headers) (found : Bool) (body : Bytes) :
    (readMessage m headers found body).headers = headers := by
  unfold readMessage
  split
  · rw [setBody_headers, setHeaders_headers]
  · rw [setHeaders_headers]

/-- There are no more headers than bytes. -/
theorem length_headers_le {buf : Bytes} {m : SipMessage} (h : parse buf = .ok m) :
    m.headers.length ≤ buf.length := by
  obtain ⟨c, hrun⟩ := parse_eq_ok_iff.mp h
  obtain ⟨bare, c₁, headers, found, c₂, hstart, hheaders, hread⟩ := parseSipMsg_eq_ok hrun
  have hstart_le := ends_parseStartLine.length_le hstart
  have hheaders_le := length_parseHeaders hheaders
  have hnew : (Cursor.remaining (Scanner.new buf)).length = buf.length := rfl
  rw [hread, readMessage_headers]
  omega

/-- **The parser terminates on every input**: it never gets stuck, a message has no more headers
    than bytes, and each iteration of a loop of the parser that is followed by another one has
    consumed something. -/
theorem parse_terminates (buf : Bytes) :
    parse buf ≠ .error .stuck ∧
    (∀ m, parse buf = .ok m → m.headers.length ≤ buf.length) ∧
    ∀ (α γ : Type) (body : α → Parse (α ⊕ γ)), LoopBody body → Consumes body :=
  ⟨parse_ne_stuck buf, fun _ h => length_headers_le h, fun _ _ _ h => h.consumes⟩

/-- A message cut off in its header line, and the loop over these lines. -/
theorem parse_terminates_via :
    parse (asBytes "SIP/2.0 200 OK\r\nVia: ,") ≠ .error .stuck ∧ Consumes headersBody :=
  have h := parse_terminates (asBytes "SIP/2.0 200 OK\r\nVia: ,")
  ⟨h.1, h.2.2 _ _ _ .headers⟩

end SipParser

end Rssip
