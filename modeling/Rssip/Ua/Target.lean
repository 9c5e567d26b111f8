import Rssip.Ua.Dialog

namespace Rssip

open Lib

/-!
# Where the requests of a dialog go

A request of a dialog goes to the other side: from the local URI and tag to the remote ones, at
the remote target, along the route set.

* `DialogView` — a dialog by its two ends, the same for both sides;
* `Addressed` — a request as it must be addressed;
* `Conversation` — a dialog together with the view of it, through a run of requests and
  responses of both sides;
* `run_addressed_iff` — when a request is addressed: before the other side has a tag, and if the
  `Contact` in the one field of the dialog is that of the other side.
-/

/-- The hop of a `Route` header. -/
def Header.route? : Header → Option RouteSet
  | .route r => some ⟨r.nameAddr.uri, r.params⟩
  | _ => none

/-- A dialog by its two ends. -/
structure DialogView where
  localUri : SipUri
  localTag : String
  remoteUri : SipUri
  remoteTag : Option String
  callId : CallId
  remoteTarget : Uri
  routeSet : List RouteSet

namespace DialogView

/-- A `Contact` of the other side is the new target. -/
def refresh (headers : Headers) (v : DialogView) : DialogView :=
  { v with
    remoteTarget :=
      ((headers.findSome? Header.contact?).map fun c => c.uri.toUri).getD v.remoteTarget }

/-- The dialog of a request that came in, with the tag of this side. -/
def ofRequest (request : IncomingRequest) (tag : String) : DialogView :=
  let mandatoryHeaders := request.incomingInfo.mandatoryHeaders
  { localUri := mandatoryHeaders.toHdr.uri
    localTag := tag
    remoteUri := mandatoryHeaders.fromHdr.uri
    remoteTag := mandatoryHeaders.fromHdr.tag
    callId := mandatoryHeaders.callId
    remoteTarget := mandatoryHeaders.fromHdr.uri.toUri
    routeSet := RouteSet.fromHeaders request.request.headers : DialogView }.refresh
    request.request.headers

/-- The dialog of a request that is to be sent. -/
def ofCall (fromUri toUri : SipUri) (tag callId : String) : DialogView where
  localUri := fromUri
  localTag := tag
  remoteUri := toUri
  remoteTag := none
  callId := ⟨callId⟩
  remoteTarget := toUri.toUri
  routeSet := []

/-- The first response with a tag, other than a rejection, tells the end of the other side; every
    one may bring a new target. -/
def answered (response : IncomingResponse) (v : DialogView) : DialogView :=
  let tag := response.incomingInfo.mandatoryHeaders.toHdr.tag
  let headers := response.response.headers
  if 101 ≤ response.code.asU16 ∧ response.code.asU16 ≤ 299 ∧ tag.isSome then
    if v.remoteTag.isNone then
      { v with remoteTag := tag, routeSet := (RouteSet.fromHeaders headers).reverse }.refresh
        headers
    else v.refresh headers
  else v

end DialogView

/-- A request that goes to the other side. -/
structure Addressed (v : DialogView) (r : Request) : Prop where
  fromHdr : ∃ f, r.headers.findSome? Header.fromHdr? = some f ∧ f.uri = v.localUri ∧
    f.tag = some v.localTag
  toHdr : ∃ t, r.headers.findSome? Header.toHdr? = some t ∧ t.uri = v.remoteUri ∧
    t.tag = v.remoteTag
  callId : r.headers.findSome? Header.callId? = some v.callId
  target : r.reqLine.uri = v.remoteTarget
  routes : r.headers.filterMap Header.route? = v.routeSet

/-- A dialog, and what it should be. -/
structure Conversation where
  dialog : Dialog
  view : DialogView

/-- What happens to a dialog. -/
inductive ConversationEvent where
  | createRequest (method : SipMethod) (random : UInt32)
  | receive (r : Reception)
  /-- A response to a request of this side. -/
  | answered (response : IncomingResponse)

/-- How a dialog comes about. -/
inductive Opening where
  | uas (request : IncomingRequest) (contact : Contact) (tag : String)
  | uac (fromUri toUri : SipUri) (contactUri : Option SipUri) (tag callId : String)
      (cseq : UInt32)

namespace Conversation

/-- A conversation starts with a dialog for a request that came in, or with one for a call that is
    made. -/
def start (endpoint : Endpoint) (channel : ChannelId) (plugin : DialogPlugin) :
    Opening → Except Error Conversation
  | .uas request contact tag => do
    let created ← Dialog.createUas request contact endpoint tag channel plugin
    return { dialog := created.1, view := .ofRequest request tag }
  | .uac fromUri toUri contactUri tag callId cseq =>
    let created :=
      Dialog.createUac fromUri toUri contactUri endpoint tag callId cseq channel plugin
    return { dialog := created.1, view := .ofCall fromUri toUri tag callId }

/-- An `INVITE` that is accepted may bring a new target. -/
def received (w : Conversation) : Option IncomingMessage → DialogView
  | some (.request request) =>
    if request.method = .invite ∧ ¬ w.dialog.InvalidCseq request then
      w.view.refresh request.request.headers
    else w.view
  | some (.response _) | none => w.view

/-- The code keeps nothing of a response in the dialog. -/
def step (w : Conversation) : ConversationEvent → Conversation
  | .createRequest method random =>
    { w with dialog := (w.dialog.createRequest method random).2 }
  | .receive r => { dialog := (w.dialog.receive r).dialog, view := w.received r.msg }
  | .answered response => { w with view := w.view.answered response }

/-- What the two have in common all along a run. -/
structure Kept (w : Conversation) : Prop where
  toTag : w.dialog.toHdr.tag = none
  uac : w.dialog.role = .uac →
    w.dialog.fromHdr.uri = w.view.localUri ∧ w.dialog.fromHdr.tag = some w.view.localTag ∧
      w.dialog.toHdr.uri = w.view.remoteUri ∧ w.dialog.dialogId.callId = w.view.callId
  routes : w.dialog.role = .uac → w.view.remoteTag = none → w.view.routeSet = []
  /-- The side that is called has the tag of the other one in its `From`. -/
  uas : w.dialog.role = .uas → w.view.remoteTag = none → w.dialog.fromHdr.tag = none

theorem kept_start {endpoint : Endpoint} {channel : ChannelId} {plugin : DialogPlugin}
    {opening : Opening} {w : Conversation} (h : start endpoint channel plugin opening = .ok w) :
    w.Kept := by
  cases opening with
  | uas request contact tag =>
    obtain ⟨⟨d, plugin'⟩, hcreated, h⟩ := except_bind_eq_ok_iff.mp h
    obtain rfl := Except.ok.inj h
    obtain ⟨htag, rfl, -⟩ := Dialog.createUas_ok hcreated
    exact ⟨htag, nofun, nofun, fun _ hremote => hremote⟩
  | uac fromUri toUri contactUri tag callId cseq =>
    obtain rfl := Except.ok.inj h
    exact ⟨rfl, fun _ => ⟨rfl, rfl, rfl, rfl⟩, fun _ _ => rfl, nofun⟩

/-- The ends of a dialog in the two views. -/
structure SameView (v v' : DialogView) : Prop where
  localUri : v'.localUri = v.localUri
  localTag : v'.localTag = v.localTag
  remoteUri : v'.remoteUri = v.remoteUri
  callId : v'.callId = v.callId
  remote : v'.remoteTag = none → v.remoteTag = none ∧ v'.routeSet = v.routeSet

theorem sameView_refresh (headers : Headers) (v : DialogView) : SameView v (v.refresh headers) :=
  ⟨rfl, rfl, rfl, rfl, fun h => ⟨h, rfl⟩⟩

theorem sameView_answered (response : IncomingResponse) (v : DialogView) :
    SameView v (v.answered response) := by
  unfold DialogView.answered
  dsimp only
  split_ifs with hcode hnone
  · refine ⟨rfl, rfl, rfl, rfl, fun htag => ?_⟩
    -- the tag of the response is there
    obtain ⟨-, -, hsome⟩ := hcode
    have htag : response.incomingInfo.mandatoryHeaders.toHdr.tag = none := htag
    rw [htag] at hsome
    cases hsome
  · exact sameView_refresh _ _
  · exact ⟨rfl, rfl, rfl, rfl, fun h => ⟨h, rfl⟩⟩

theorem sameView_received (w : Conversation) (msg : Option IncomingMessage) :
    SameView w.view (w.received msg) := by
  unfold received
  split
  · split_ifs
    · exact sameView_refresh _ _
    · exact ⟨rfl, rfl, rfl, rfl, fun h => ⟨h, rfl⟩⟩
  · exact ⟨rfl, rfl, rfl, rfl, fun h => ⟨h, rfl⟩⟩
  · exact ⟨rfl, rfl, rfl, rfl, fun h => ⟨h, rfl⟩⟩

/-- A step keeps the ends. -/
theorem Kept.of_same {w w' : Conversation} (h : w.Kept) (hdialog : w.dialog.SameEnds w'.dialog)
    (hview : SameView w.view w'.view) : w'.Kept where
  toTag := by rw [hdialog.toHdr, h.toTag]
  uac := by
    rw [hdialog.role, hdialog.fromHdr, hdialog.toHdr, hdialog.dialogId, hview.localUri,
      hview.localTag, hview.remoteUri, hview.callId]
    exact h.uac
  routes := by
    intro hrole hremote
    obtain ⟨hremote, hroutes⟩ := hview.remote hremote
    rw [hdialog.role] at hrole
    rw [hroutes]
    exact h.routes hrole hremote
  uas := by
    intro hrole hremote
    rw [hdialog.role] at hrole
    rw [hdialog.fromHdr]
    exact h.uas hrole (hview.remote hremote).1

theorem Kept.step {w : Conversation} (h : w.Kept) (e : ConversationEvent) : (w.step e).Kept := by
  have hsame : w.dialog.SameEnds w.dialog := ⟨rfl, rfl, rfl, rfl, rfl⟩
  have hview : SameView w.view w.view := ⟨rfl, rfl, rfl, rfl, fun h => ⟨h, rfl⟩⟩
  cases e with
  | createRequest method random =>
    exact h.of_same (Dialog.createRequest_sameEnds method random w.dialog) hview
  | receive r => exact h.of_same (Dialog.receive_sameEnds r w.dialog) (sameView_received w r.msg)
  | answered response => exact h.of_same hsame (sameView_answered response w.view)

/-- **When one request is addressed.** -/
theorem createRequest_addressed_iff {w : Conversation} (h : w.Kept) (method : SipMethod)
    (random : UInt32) :
    Addressed w.view (w.dialog.createRequest method random).1 ↔
      w.dialog.role = .uac ∧ w.view.remoteTag = none ∧
        w.dialog.contact.uri.toUri = w.view.remoteTarget := by
  have hfrom : (w.dialog.createRequest method random).1.headers.findSome? Header.fromHdr? =
      some w.dialog.fromHdr := rfl
  have hto : (w.dialog.createRequest method random).1.headers.findSome? Header.toHdr? =
      some w.dialog.toHdr := rfl
  constructor
  · rintro ⟨⟨f, hf, -, hlocal⟩, ⟨t, ht, -, hremote⟩, -, htarget, -⟩
    rw [hfrom, Option.some.injEq] at hf
    rw [hto, Option.some.injEq] at ht
    rw [← ht, h.toTag] at hremote
    refine ⟨?_, hremote.symm, htarget⟩
    cases hrole : w.dialog.role with
    | uac => rfl
    | uas =>
      -- without a tag of the other side there is none in `From`
      rw [← hf, h.uas hrole hremote.symm] at hlocal
      cases hlocal
  · rintro ⟨hrole, hremote, htarget⟩
    obtain ⟨hlocalUri, hlocalTag, hremoteUri, hcallId⟩ := h.uac hrole
    exact ⟨⟨_, hfrom, hlocalUri, hlocalTag⟩,
      ⟨_, hto, hremoteUri, by rw [h.toTag, hremote]⟩, congrArg some hcallId, htarget,
      (h.routes hrole hremote).symm⟩

/-- **When the requests of a dialog are addressed.** After any run a request goes to the other
    side exactly when this side has called, the other one has no tag yet, and the URI of the
    `Contact` in the dialog is the remote target. -/
theorem run_addressed_iff {endpoint : Endpoint} {channel : ChannelId} {plugin : DialogPlugin}
    {opening : Opening} {start' : Conversation}
    (h : start endpoint channel plugin opening = .ok start') (es : List ConversationEvent)
    (method : SipMethod) (random : UInt32) :
    let w := exec step start' es
    Addressed w.view (w.dialog.createRequest method random).1 ↔
      w.dialog.role = .uac ∧ w.view.remoteTag = none ∧
        w.dialog.contact.uri.toUri = w.view.remoteTarget :=
  createRequest_addressed_iff (exec_invariant (fun _ e h => h.step e) (kept_start h) es) method
    random

/-- A call to `localhost` from `localhost`: the own `Contact` is that of the other side. -/
theorem run_addressed_localhost :
    Addressed (.ofCall (.uri Uri.localhost) (.uri Uri.localhost) "from" "1")
      (Dialog.calling.createRequest .invite 0).1 :=
  (run_addressed_iff
    (show start {} 0 {} (.uac (.uri Uri.localhost) (.uri Uri.localhost) none "from" "1" 1) =
      .ok ⟨Dialog.calling, .ofCall (.uri Uri.localhost) (.uri Uri.localhost) "from" "1"⟩ from rfl)
    [] .invite 0).mpr ⟨rfl, rfl, rfl⟩

/-- `sip:bob@example.com`. -/
def bob : SipUri :=
  .uri { scheme := .sip, user := some ⟨"bob", none⟩,
         hostPort := ⟨.hostName "example.com", none⟩ }

/-- The first `INVITE` to another address has the own `Contact` as its Request-URI. -/
theorem not_createRequest_addressed_bob :
    ¬ Addressed (.ofCall (.uri Uri.localhost) bob "from" "1")
      ((Dialog.newUac (.uri Uri.localhost) bob none {} "from" "1" 1 0).createRequest .invite 0).1 :=
  fun h => absurd h.target (by decide)

end Conversation

end Rssip
