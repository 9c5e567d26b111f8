import Rssip.Endpoint.CreateResponse
import Rssip.Endpoint.Plugins
import Rssip.Lib.Machine

namespace Rssip

open Lib

/-!
# Dialogs

One structure serves both sides of a dialog.  It is filled by the request that opens the dialog,
and every later request of the other side goes through it.

* `Dialog.createUas`, `Dialog.createUac` — the two constructors, which also register the dialog;
* `Dialog.createRequest` — a request of this side;
* `Dialog.processIncomingRequest`, `Dialog.receive`, `Dialog.receiveRequest`, `Dialog.waitForAck`
  — a request of the other side, on its way to the user agent;
* `Dialog.createResponse`, `Dialog.provisionalResponse`, `Dialog.finalResponse`.

Random numbers and texts are arguments, and so is what comes of sending a response.
-/

/-! ### Headers by type -/

/-- The value of a `Contact` header. -/
def Header.contact? : Header → Option Contact
  | .contact c => some c
  | _ => none

/-- The value of a `CSeq` header. -/
def Header.cseq? : Header → Option CSeq
  | .cSeq c => some c
  | _ => none

/-- The value of a `From` header. -/
def Header.fromHdr? : Header → Option From
  | .fromHdr f => some f
  | _ => none

/-- The value of a `To` header. -/
def Header.toHdr? : Header → Option To
  | .toHdr t => some t
  | _ => none

/-- The value of a `Call-ID` header. -/
def Header.callId? : Header → Option CallId
  | .callId c => some c
  | _ => none

/-- Whether the header is an `Allow`. -/
def Header.isAllow : Header → Bool
  | .allow _ => true
  | _ => false

/-- Whether the header is a `Supported`. -/
def Header.isSupported : Header → Bool
  | .supported _ => true
  | _ => false

/-- The first `To` is replaced. -/
def Headers.mapTo (f : To → To) : Headers → Headers
  | [] => []
  | .toHdr t :: headers => .toHdr (f t) :: headers
  | header :: headers => header :: Headers.mapTo f headers

/-- The URI of an address, with or without a display name. -/
def SipUri.toUri : SipUri → Uri
  | .uri u => u
  | .nameAddr addr => addr.uri

/-- The scheme of a URI, with or without angle brackets around it. -/
def SipUri.scheme (u : SipUri) : Scheme := u.toUri.scheme

/-! ### The parts of a dialog -/

/-- How far a dialog is. -/
inductive DialogState where
  | init
  | early
  | confirmed
  | terminated
deriving DecidableEq

/-- A hop of the route of a dialog, taken from a `Record-Route`. -/
structure RouteSet where
  uri : Uri
  params : Params
deriving DecidableEq

/-- The recorded routes, in their order. -/
def RouteSet.fromHeaders (headers : Headers) : List RouteSet :=
  headers.filterMap fun header => match header with
    | .recordRoute route => some ⟨route.addr.uri, route.params⟩
    | _ => none

/-- What a dialog asks its endpoint for. -/
structure Endpoint where
  allow : Allow := ⟨[]⟩
  supported : Supported := ⟨[]⟩
deriving DecidableEq

/-- A dialog: its identifier and state, the numbers of both sides, what goes into its requests, and
    the channel to which its plugin sends. -/
structure Dialog where
  dialogId : DialogId
  state : DialogState
  remoteCseq : Option UInt32
  localCseq : Option UInt32
  fromHdr : From
  toHdr : To
  contact : Contact
  secure : Bool
  routeSet : List RouteSet
  role : Role
  receiver : ChannelId
  endpoint : Endpoint
deriving DecidableEq

namespace DialogPlugin

/-- The dialog is entered under its identifier; one that was there before is lost. -/
def registerDialog (id : DialogId) (sender : ChannelId) (p : DialogPlugin) : DialogPlugin where
  dialogs := Function.update p.dialogs id (some sender)

/-- What is entered under the identifier is taken out. -/
def removeDialog (id : DialogId) (p : DialogPlugin) : DialogPlugin where
  dialogs := Function.update p.dialogs id none

@[simp] theorem getDialog_registerDialog_self (id : DialogId) (sender : ChannelId)
    (p : DialogPlugin) : (p.registerDialog id sender).getDialog id = some sender :=
  Function.update_self _ _ _

@[simp] theorem getDialog_removeDialog_self (id : DialogId) (p : DialogPlugin) :
    (p.removeDialog id).getDialog id = none :=
  Function.update_self _ _ _

end DialogPlugin

namespace IncomingRequest

/-- The number of a request. -/
def cseq (r : IncomingRequest) : UInt32 := r.incomingInfo.mandatoryHeaders.cseq.cseq

end IncomingRequest

/-- A read of the channel of a dialog: a message, or `none` once the channel is closed, and what
    comes of sending a response to it. -/
structure Reception where
  msg : Option IncomingMessage
  sent : Except Error Unit

/-- How far a call on a dialog came: its result, or `none` while it waits for a message, and the
    responses that were sent. -/
structure Call (α : Type) where
  result : Option (Except Error α)
  dialog : Dialog
  responses : List Response := []

namespace Dialog

/-! ### Constructors -/

/-- The dialog of an accepted request. -/
def newUas (request : IncomingRequest) (contact : Contact) (endpoint : Endpoint) (tag : String)
    (channel : ChannelId) : Dialog :=
  let mandatoryHeaders := request.incomingInfo.mandatoryHeaders
  { dialogId :=
      { callId := mandatoryHeaders.callId
        remoteTag := mandatoryHeaders.fromHdr.tag
        localTag := tag }
    remoteCseq := some mandatoryHeaders.cseq.cseq
    localCseq := none
    fromHdr := mandatoryHeaders.fromHdr
    toHdr := mandatoryHeaders.toHdr
    secure := request.incomingInfo.transportMsg.transport.isSecure &&
      request.request.reqLine.uri.scheme = .sips
    routeSet := RouteSet.fromHeaders request.request.headers
    state := .init
    role := .uas
    contact := contact
    receiver := channel
    endpoint := endpoint }

/-- The side that is called. -/
def createUas (request : IncomingRequest) (contact : Contact) (endpoint : Endpoint)
    (tag : String) (channel : ChannelId) (plugin : DialogPlugin) :
    Except Error (Dialog × DialogPlugin) :=
  if !request.method.canEstablishDialog then
    .error (.dialog ("The sip method '" ++ request.method.asStr ++
      "' cannot establish a dialog"))
  else if request.incomingInfo.mandatoryHeaders.toHdr.tag.isSome then
    .error (.dialog "The To header tag is added only by the server (UAS) in the response.")
  else
    let dialog := newUas request contact endpoint tag channel
    .ok (dialog, plugin.registerDialog dialog.dialogId channel)

theorem createUas_ok {request : IncomingRequest} {contact : Contact} {endpoint : Endpoint}
    {tag : String} {channel : ChannelId} {plugin plugin' : DialogPlugin} {d : Dialog}
    (h : createUas request contact endpoint tag channel plugin = .ok (d, plugin')) :
    request.incomingInfo.mandatoryHeaders.toHdr.tag = none ∧
      d = newUas request contact endpoint tag channel ∧
      plugin' = plugin.registerDialog d.dialogId channel := by
  unfold createUas at h
  by_cases hmethod : (!request.method.canEstablishDialog) = true
  · rw [if_pos hmethod] at h
    cases h
  · by_cases htag : request.incomingInfo.mandatoryHeaders.toHdr.tag.isSome = true
    · rw [if_neg hmethod, if_pos htag] at h
      cases h
    · rw [if_neg hmethod, if_neg htag] at h
      obtain ⟨rfl, rfl⟩ := Prod.mk.inj (Except.ok.inj h)
      exact ⟨Option.not_isSome_iff_eq_none.mp htag, rfl, rfl⟩

/-- The dialog of a request that is to be sent. -/
def newUac (fromUri toUri : SipUri) (contactUri : Option SipUri) (endpoint : Endpoint)
    (tag callId : String) (cseq : UInt32) (channel : ChannelId) : Dialog where
  dialogId := { callId := ⟨callId⟩, localTag := tag, remoteTag := none }
  remoteCseq := none
  localCseq := some cseq
  fromHdr := ⟨fromUri, some tag, {}⟩
  toHdr := ⟨toUri, none, {}⟩
  secure := toUri.scheme = .sips
  routeSet := []
  state := .init
  role := .uac
  contact := ⟨contactUri.getD fromUri, none, none, {}⟩
  receiver := channel
  endpoint := endpoint

/-- The side that calls. -/
def createUac (fromUri toUri : SipUri) (contactUri : Option SipUri) (endpoint : Endpoint)
    (tag callId : String) (cseq : UInt32) (channel : ChannelId) (plugin : DialogPlugin) :
    Dialog × DialogPlugin :=
  let dialog := newUac fromUri toUri contactUri endpoint tag callId cseq channel
  (dialog, plugin.registerDialog dialog.dialogId channel)

/-- The entry of a dialog goes with it. -/
def drop (plugin : DialogPlugin) (d : Dialog) : DialogPlugin := plugin.removeDialog d.dialogId

/-! ### Requests and responses of this side -/

/-- A request; a dialog without a number of its own takes `random`. -/
def createRequest (method : SipMethod) (random : UInt32) (d : Dialog) : Request × Dialog :=
  let localCseq := d.localCseq.getD random
  ({ reqLine := ⟨method, d.contact.uri.toUri⟩
     headers := [.fromHdr d.fromHdr, .toHdr d.toHdr, .callId d.dialogId.callId,
       .cSeq ⟨localCseq, method⟩, .maxForwards ⟨70⟩] },
    { d with localCseq := some localCseq })

/-- A response of a transaction with the headers of the dialog: those of `create_response`, then
    the ones it lacks. -/
def createResponse (serverTsx : ServerTransaction) (code : StatusCode) (reason : Option String)
    (d : Dialog) : Response :=
  let response := Endpoint.createResponse serverTsx.request code reason
  let u16 := code.asU16
  let headers := response.headers
  let headers :=
    if (101 ≤ u16 ∧ u16 ≤ 399 ∨ u16 = 485) ∧ !headers.any (fun h => h.contact?.isSome) then
      headers ++ [.contact d.contact]
    else headers
  let headers :=
    if (180 ≤ u16 ∧ u16 ≤ 189 ∨ 200 ≤ u16 ∧ u16 ≤ 299 ∨ u16 = 405) ∧
        d.endpoint.allow.methods ≠ [] ∧ !headers.any Header.isAllow then
      headers ++ [.allow d.endpoint.allow]
    else headers
  let headers :=
    if (200 ≤ u16 ∧ u16 ≤ 299) ∧ d.endpoint.supported.tags ≠ [] ∧
        !headers.any Header.isSupported then
      headers ++ [.supported d.endpoint.supported]
    else headers
  -- the tag of the dialog takes the place of the one that `create_response` put in
  let headers :=
    if u16 ≠ 100 then headers.mapTo fun t => { t with tag := some d.dialogId.localTag }
    else headers
  { response with headers := headers }

/-- The responses on the wire after one has been sent with the result `sent`. -/
def transmitted (response : Response) : Except Error Unit → List Response
  | .ok () => [response]
  | .error _ => []

/-- A provisional response is made and sent.  All but a 100 make the dialog `Early`, if they can be
    sent. -/
def provisionalResponse (serverTsx : ServerTransaction) (code : StatusCode)
    (reason : Option String) (sent : Except Error Unit) (d : Dialog) : Call Unit where
  result := some sent
  dialog := match sent with
    | .ok () => if code.asU16 ≠ 100 then { d with state := .early } else d
    | .error _ => d
  responses := transmitted (d.createResponse serverTsx code reason) sent

/-- A final response is made and sent.  It leaves the state of the dialog as it is. -/
def finalResponse (serverTsx : ServerTransaction) (code : StatusCode) (sent : Except Error Unit)
    (d : Dialog) : Call Unit where
  result := some sent
  dialog := d
  responses := transmitted (d.createResponse serverTsx code none) sent

/-! ### Requests of the other side -/

/-- The number of the request is checked, and it is not above the last one. -/
def InvalidCseq (request : IncomingRequest) (d : Dialog) : Prop :=
  ¬ (request.method = .cancel ∨ request.method = .ack) ∧ request.cseq ≤ d.remoteCseq.getD 0

instance (request : IncomingRequest) (d : Dialog) : Decidable (d.InvalidCseq request) :=
  inferInstanceAs (Decidable (_ ∧ _))

/-- The remote target after a request: an `INVITE` may bring a new one. -/
def refreshed (request : IncomingRequest) (d : Dialog) : Contact :=
  if request.method = .invite then
    (request.request.headers.findSome? Header.contact?).getD d.contact
  else d.contact

/-- The response to a request whose number is not above the last one. -/
def invalidCseqResponse (request : IncomingRequest) : Response :=
  Endpoint.createResponse request .serverInternalError (some "Invalid Cseq")

/-- A rejected request is answered, and the call returns as for any other. -/
def processIncomingRequest (request : IncomingRequest) (sent : Except Error Unit) (d : Dialog) :
    Call Unit :=
  if d.InvalidCseq request then
    { result := some sent
      dialog := d
      responses := transmitted (invalidCseqResponse request) sent }
  else
    { result := some (.ok ())
      dialog := { d with remoteCseq := some request.cseq, contact := d.refreshed request } }

/-- **A request that is rejected** is answered and changes nothing. -/
theorem processIncomingRequest_of_invalid {request : IncomingRequest} {d : Dialog}
    (h : d.InvalidCseq request) (sent : Except Error Unit) :
    d.processIncomingRequest request sent =
      { result := some sent
        dialog := d
        responses := transmitted (invalidCseqResponse request) sent } :=
  if_pos h

/-- **A request that is accepted** leaves its number, and an `INVITE` its `Contact`. -/
theorem processIncomingRequest_of_valid {request : IncomingRequest} {d : Dialog}
    (h : ¬ d.InvalidCseq request) (sent : Except Error Unit) :
    d.processIncomingRequest request sent =
      { result := some (.ok ())
        dialog := { d with remoteCseq := some request.cseq, contact := d.refreshed request } } :=
  if_neg h

/-- One read of the channel. -/
def receive (r : Reception) (d : Dialog) : Call IncomingMessage :=
  match r.msg with
  | none => { result := some (.error .channelClosed), dialog := d }
  | some (.request request) =>
    let processed := d.processIncomingRequest request r.sent
    { result := processed.result.map fun result => result.map fun _ => .request request
      dialog := processed.dialog
      responses := processed.responses }
  | some (.response response) => { result := some (.ok (.response response)), dialog := d }

/-- Reads up to the first request or error. -/
def receiveRequest : List Reception → Dialog → Call IncomingRequest
  | [], d => { result := none, dialog := d }
  | r :: receptions, d =>
    let received := d.receive r
    match received.result with
    | some (.ok (.request request)) =>
      { received with result := some (.ok request) }
    | some (.error e) => { received with result := some (.error e) }
    -- a response is read and passed over
    | _ =>
      let later := receiveRequest receptions received.dialog
      { later with responses := received.responses ++ later.responses }

/-- Reads up to the first `ACK` or error; `none` is the end of the timer, which starts anew after
    every request. -/
def waitForAck : List (Option Reception) → Dialog → Call IncomingRequest
  | [], d => { result := none, dialog := d }
  | none :: _, d => { result := some (.error (.custom "No ACK received")), dialog := d }
  | some r :: receptions, d =>
    let received := d.receive r
    match received.result with
    | some (.error e) => { received with result := some (.error e) }
    | some (.ok (.request request)) =>
      if request.method = .ack then
        { received with
          result := some (.ok request), dialog := { received.dialog with state := .confirmed } }
      else
        -- another request starts the timer anew
        let later := waitForAck receptions received.dialog
        { later with responses := received.responses ++ later.responses }
    | _ =>
      let later := waitForAck receptions received.dialog
      { later with responses := received.responses ++ later.responses }

/-! ### What stays as it is -/

/-- The two are one dialog. -/
structure SameEnds (d d' : Dialog) : Prop where
  dialogId : d'.dialogId = d.dialogId
  fromHdr : d'.fromHdr = d.fromHdr
  toHdr : d'.toHdr = d.toHdr
  role : d'.role = d.role
  receiver : d'.receiver = d.receiver

theorem processIncomingRequest_sameEnds (request : IncomingRequest) (sent : Except Error Unit)
    (d : Dialog) : d.SameEnds (d.processIncomingRequest request sent).dialog := by
  unfold processIncomingRequest
  by_cases h : d.InvalidCseq request
  · rw [if_pos h]
    exact ⟨rfl, rfl, rfl, rfl, rfl⟩
  · rw [if_neg h]
    exact ⟨rfl, rfl, rfl, rfl, rfl⟩

theorem receive_sameEnds (r : Reception) (d : Dialog) : d.SameEnds (d.receive r).dialog := by
  unfold receive
  split
  · exact ⟨rfl, rfl, rfl, rfl, rfl⟩
  · exact processIncomingRequest_sameEnds _ _ _
  · exact ⟨rfl, rfl, rfl, rfl, rfl⟩

theorem createRequest_sameEnds (method : SipMethod) (random : UInt32) (d : Dialog) :
    d.SameEnds (d.createRequest method random).2 :=
  ⟨rfl, rfl, rfl, rfl, rfl⟩

/-! ### A dialog to run with -/

/-- The dialog of an `INVITE` from `localhost` with the number 1. -/
def invited : Dialog :=
  newUas (.fromLocalhost .invite none false) ⟨.uri Uri.localhost, none, none, {}⟩ {} "to" 0

/-- A dialog with `localhost`. -/
def calling : Dialog :=
  newUac (.uri Uri.localhost) (.uri Uri.localhost) none {} "from" "1" 1 0

end Dialog

/-- A request of the other side of `Dialog.invited`. -/
def IncomingRequest.inDialog (method : SipMethod) (cseq : UInt32) : IncomingRequest :=
  let r := IncomingRequest.fromLocalhost method (some "to") false
  { r with
    incomingInfo :=
      { r.incomingInfo with
        mandatoryHeaders := { r.incomingInfo.mandatoryHeaders with cseq := ⟨cseq, method⟩ } } }

end Rssip
