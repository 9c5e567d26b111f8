import Rssip.Lib.Registry
import Rssip.Ua.Dialog

namespace Rssip

open Lib

/-!
# The table of dialogs

A request inside a dialog finds the dialog by its `Call-ID` and the tags of both sides.

* `DialogTable` — the plugin, and the dialogs that have not been dropped, each with the tag of the
  other side as far as the two have exchanged it;
* `Findable` — every dialog gets the requests of its other side, and no others;
* `run_findable_iff` — when that is so all along a run: the dialogs have identifiers of their own,
  and the other side of a dialog of this one answers without a tag.
-/

/-- A dialog that has not been dropped, and the tag that the other side has given. -/
structure LiveDialog where
  dialog : Dialog
  peerTag : Option String

namespace LiveDialog

/-- The request is one of the other side. -/
structure Owns (l : LiveDialog) (request : IncomingRequest) : Prop where
  callId : request.incomingInfo.mandatoryHeaders.callId = l.dialog.dialogId.callId
  toTag : request.incomingInfo.mandatoryHeaders.toHdr.tag = some l.dialog.dialogId.localTag
  fromTag : request.incomingInfo.mandatoryHeaders.fromHdr.tag = l.peerTag

/-- A response that creates the dialog brings the tag of the side that was called.  The code keeps
    nothing of it in the dialog. -/
def answered (response : IncomingResponse) (l : LiveDialog) : LiveDialog :=
  if l.dialog.role = .uac ∧ 101 ≤ response.code.asU16 ∧ response.code.asU16 ≤ 299 then
    { l with peerTag := response.incomingInfo.mandatoryHeaders.toHdr.tag }
  else l

end LiveDialog

/-- The plugin of the dialogs, and the dialogs that have not been dropped. -/
structure DialogTable where
  plugin : DialogPlugin := {}
  live : List LiveDialog := []
  /-- The number of channels so far. -/
  channels : ChannelId := 0

/-- What happens to the dialogs of an endpoint. -/
inductive DialogEvent where
  | createUas (request : IncomingRequest) (contact : Contact) (endpoint : Endpoint)
      (tag : String)
  | createUac (fromUri toUri : SipUri) (contactUri : Option SipUri) (endpoint : Endpoint)
      (tag callId : String) (cseq : UInt32)
  | answered (channel : ChannelId) (response : IncomingResponse)
  | createRequest (channel : ChannelId) (method : SipMethod) (random : UInt32)
  | receive (channel : ChannelId) (r : Reception)
  | setState (channel : ChannelId) (state : DialogState)
  | drop (channel : ChannelId)

namespace DialogTable

/-- A new dialog, with the plugin it has registered itself with. -/
def add (created : Dialog × DialogPlugin) (peerTag : Option String) (w : DialogTable) :
    DialogTable where
  plugin := created.2
  live := ⟨created.1, peerTag⟩ :: w.live
  channels := w.channels + 1

/-- One dialog changes. -/
def modify (channel : ChannelId) (f : LiveDialog → LiveDialog) (w : DialogTable) : DialogTable :=
  { w with live := w.live.map fun l => if l.dialog.receiver = channel then f l else l }

/-- `Drop` of a dialog. -/
def drop (channel : ChannelId) (w : DialogTable) : DialogTable :=
  match w.live.find? fun l => l.dialog.receiver = channel with
  | some l =>
    { w with
      plugin := l.dialog.drop w.plugin
      live := w.live.filter fun l => l.dialog.receiver ≠ channel }
  | none => w

/-- A dialog is made, changed or dropped. -/
def step (w : DialogTable) : DialogEvent → DialogTable
  | .createUas request contact endpoint tag =>
    match Dialog.createUas request contact endpoint tag w.channels w.plugin with
    | .ok created => w.add created request.incomingInfo.mandatoryHeaders.fromHdr.tag
    | .error _ => w
  | .createUac fromUri toUri contactUri endpoint tag callId cseq =>
    w.add (Dialog.createUac fromUri toUri contactUri endpoint tag callId cseq w.channels w.plugin)
      none
  | .answered channel response => w.modify channel (.answered response)
  | .createRequest channel method random =>
    w.modify channel fun l => { l with dialog := (l.dialog.createRequest method random).2 }
  | .receive channel r =>
    w.modify channel fun l => { l with dialog := (l.dialog.receive r).dialog }
  | .setState channel state =>
    w.modify channel fun l => { l with dialog := { l.dialog with state := state } }
  | .drop channel => w.drop channel

/-- Every dialog gets the requests of its other side, and no others. -/
def Findable (w : DialogTable) : Prop :=
  ∀ l ∈ w.live, ∀ request : IncomingRequest,
    w.plugin.onIncomingRequest request = some (.dialog l.dialog.receiver) ↔ l.Owns request

/-- A new identifier is free, and the first response to a call of this side has no tag. -/
def Unambiguous (w : DialogTable) : DialogEvent → Prop
  | .createUas request contact endpoint tag =>
    ∀ created, Dialog.createUas request contact endpoint tag w.channels w.plugin = .ok created →
      w.plugin.getDialog created.1.dialogId = none
  | .createUac _ _ _ _ tag callId _ =>
    w.plugin.getDialog { callId := ⟨callId⟩, localTag := tag, remoteTag := none } = none
  | .answered channel response =>
    ∀ l ∈ w.live, l.dialog.receiver = channel → l.dialog.role = .uac →
      101 ≤ response.code.asU16 → response.code.asU16 ≤ 299 →
        response.incomingInfo.mandatoryHeaders.toHdr.tag = none
  | .createRequest _ _ _ | .receive _ _ | .setState _ _ | .drop _ => True

/-! ### The table as a registry -/

/-- The identifiers and the channels of the live dialogs. -/
def registry (w : DialogTable) : Registry DialogId ChannelId where
  table := w.plugin.dialogs
  live := w.live.map fun l => (l.dialog.receiver, l.dialog.dialogId)

/-- A live dialog is one of the registry, under its channel and its identifier. -/
theorem mem_registry {w : DialogTable} {l : LiveDialog} (h : l ∈ w.live) :
    (l.dialog.receiver, l.dialog.dialogId) ∈ w.registry.live :=
  List.mem_map_of_mem h

/-- What holds of the table whatever happens. -/
structure Ok (w : DialogTable) : Prop where
  backed : w.registry.Backed
  unique : w.registry.Unique
  bound : ∀ l ∈ w.live, l.dialog.receiver < w.channels
  /-- The identifier of a dialog of this side never gets the tag of the other one. -/
  uac : ∀ l ∈ w.live, l.dialog.role = .uac → l.dialog.dialogId.remoteTag = none

/-- A dialog gets a request exactly when it is found under its identifier. -/
theorem onIncomingRequest_eq_dialog_iff {p : DialogPlugin} {request : IncomingRequest}
    {channel : ChannelId} :
    p.onIncomingRequest request = some (.dialog channel) ↔
      ∃ id, DialogId.fromIncomingRequest request = some id ∧ p.getDialog id = some channel := by
  unfold DialogPlugin.onIncomingRequest
  cases hid : DialogId.fromIncomingRequest request with
  | none => simp
  | some id =>
    cases hchannel : p.getDialog id with
    | none =>
      by_cases hack : request.method = .ack
      · simp [hack, hchannel]
      · simp [hack, hchannel]
    | some found => simp [hchannel]

/-- A request is looked up by its Call-ID, the tag in its `To` and the one in its `From`. -/
theorem fromIncomingRequest_eq_some_iff {request : IncomingRequest} {id : DialogId} :
    DialogId.fromIncomingRequest request = some id ↔
      request.incomingInfo.mandatoryHeaders.callId = id.callId ∧
        request.incomingInfo.mandatoryHeaders.toHdr.tag = some id.localTag ∧
        request.incomingInfo.mandatoryHeaders.fromHdr.tag = id.remoteTag := by
  obtain ⟨callId, localTag, remoteTag⟩ := id
  simp only [DialogId.fromIncomingRequest, Option.map_eq_some_iff, DialogId.mk.injEq]
  constructor
  · rintro ⟨tag, htag, hcallId, rfl, hfrom⟩
    exact ⟨hcallId, htag, hfrom⟩
  · rintro ⟨hcallId, htag, hfrom⟩
    exact ⟨localTag, htag, hcallId, rfl, hfrom⟩

/-- A request with a given identifier. -/
def requestOf (id : DialogId) : IncomingRequest :=
  let r := IncomingRequest.fromLocalhost .bye (some id.localTag) false
  let mandatoryHeaders := r.incomingInfo.mandatoryHeaders
  { r with
    incomingInfo :=
      { r.incomingInfo with
        mandatoryHeaders :=
          { mandatoryHeaders with
            callId := id.callId
            fromHdr := { mandatoryHeaders.fromHdr with tag := id.remoteTag } } } }

/-- The tag of the other side is the one in the identifier. -/
def Settled (w : DialogTable) : Prop :=
  ∀ l ∈ w.live, l.peerTag = l.dialog.dialogId.remoteTag

/-- **Dialogs are findable** when they are listed under the tags of both sides. -/
theorem Ok.findable_iff {w : DialogTable} (h : w.Ok) :
    w.Findable ↔ w.registry.Listed ∧ w.Settled := by
  constructor
  · intro hfindable
    have hid : ∀ l ∈ w.live, l.peerTag = l.dialog.dialogId.remoteTag ∧
        w.plugin.getDialog l.dialog.dialogId = some l.dialog.receiver := by
      intro l hl
      -- a request of the other side is found
      have howns : l.Owns (requestOf { l.dialog.dialogId with remoteTag := l.peerTag }) :=
        ⟨rfl, rfl, rfl⟩
      obtain ⟨id, hrequest, hentry⟩ :=
        onIncomingRequest_eq_dialog_iff.mp ((hfindable l hl _).mpr howns)
      obtain rfl := Option.some.inj hrequest
      have heq := congrArg Prod.snd
        (h.unique _ (h.backed _ _ hentry) _ (mem_registry hl) rfl)
      refine ⟨congrArg DialogId.remoteTag heq, ?_⟩
      rw [← show _ = l.dialog.dialogId from heq]
      exact hentry
    refine ⟨fun t ht => ?_, fun l hl => (hid l hl).1⟩
    obtain ⟨l, hl, rfl⟩ := List.mem_map.mp ht
    exact (hid l hl).2
  · rintro ⟨hlisted, hsettled⟩ l hl request
    have hentry := hlisted _ (mem_registry hl)
    rw [onIncomingRequest_eq_dialog_iff]
    constructor
    · rintro ⟨id, hrequest, hid⟩
      have heq : id = l.dialog.dialogId :=
        congrArg Prod.snd (h.unique _ (h.backed _ _ hid) _ (mem_registry hl) rfl)
      subst heq
      obtain ⟨hcallId, hto, hfrom⟩ := fromIncomingRequest_eq_some_iff.mp hrequest
      exact ⟨hcallId, hto, by rw [hfrom, hsettled l hl]⟩
    · rintro ⟨hcallId, hto, hfrom⟩
      refine ⟨l.dialog.dialogId, fromIncomingRequest_eq_some_iff.mpr ⟨hcallId, hto, ?_⟩, hentry⟩
      rw [hfrom, hsettled l hl]

/-! ### Steps -/

/-- At the start there is no dialog, in the table or alive. -/
theorem ok_start : ({} : DialogTable).Ok where
  backed _ _ h := nomatch h
  unique _ h := nomatch h
  bound _ h := nomatch h
  uac _ h := nomatch h

/-- A dialog as it registers itself. -/
structure Created (w : DialogTable) (created : Dialog × DialogPlugin) (peerTag : Option String) :
    Prop where
  plugin : created.2 = w.plugin.registerDialog created.1.dialogId w.channels
  receiver : created.1.receiver = w.channels
  remoteTag : created.1.dialogId.remoteTag = peerTag
  uac : created.1.role = .uac → created.1.dialogId.remoteTag = none

/-- A dialog of a request that came in registers itself under its identifier, with the next channel.
    -/
theorem created_uas {w : DialogTable} {request : IncomingRequest} {contact : Contact}
    {endpoint : Endpoint} {tag : String} {created : Dialog × DialogPlugin}
    (h : Dialog.createUas request contact endpoint tag w.channels w.plugin = .ok created) :
    w.Created created request.incomingInfo.mandatoryHeaders.fromHdr.tag := by
  obtain ⟨d, plugin⟩ := created
  obtain ⟨-, rfl, rfl⟩ := Dialog.createUas_ok h
  exact ⟨rfl, rfl, rfl, nofun⟩

/-- A dialog of a call of this side registers itself in the same way, without the tag of the other
    side. -/
theorem created_uac (w : DialogTable) (fromUri toUri : SipUri) (contactUri : Option SipUri)
    (endpoint : Endpoint) (tag callId : String) (cseq : UInt32) :
    w.Created
      (Dialog.createUac fromUri toUri contactUri endpoint tag callId cseq w.channels w.plugin)
      none :=
  ⟨rfl, rfl, rfl, fun _ => rfl⟩

/-- To add a created dialog inserts it into the registry. -/
theorem Created.registry {w : DialogTable} {created : Dialog × DialogPlugin}
    {peerTag : Option String} (h : w.Created created peerTag) :
    (w.add created peerTag).registry = w.registry.insert w.channels created.1.dialogId := by
  unfold DialogTable.registry add
  rw [h.plugin, List.map_cons, h.receiver]
  rfl

/-- No live dialog has the next channel yet. -/
theorem Ok.fresh {w : DialogTable} (h : w.Ok) : ∀ t ∈ w.registry.live, t.1 ≠ w.channels := by
  intro t ht
  obtain ⟨l, hl, rfl⟩ := List.mem_map.mp ht
  exact Nat.ne_of_lt (h.bound l hl)

/-- A created dialog keeps the table in order. -/
theorem Ok.add {w : DialogTable} (h : w.Ok) {created : Dialog × DialogPlugin}
    {peerTag : Option String} (hcreated : w.Created created peerTag) :
    (w.add created peerTag).Ok where
  backed := by
    rw [hcreated.registry]
    exact h.backed.insert _ _
  unique := by
    rw [hcreated.registry]
    exact h.unique.insert _ h.fresh
  bound := by
    intro l hl
    rcases List.mem_cons.mp hl with rfl | hold
    · exact hcreated.receiver ▸ Nat.lt_succ_self _
    · exact Nat.lt_succ_of_lt (h.bound l hold)
  uac := by
    intro l hl
    rcases List.mem_cons.mp hl with rfl | hold
    · exact hcreated.uac
    · exact h.uac l hold

/-- All dialogs stay findable with a new one exactly if its identifier was free. -/
theorem findable_add_iff {w : DialogTable} (hok : w.Ok) (h : w.Findable)
    {created : Dialog × DialogPlugin} {peerTag : Option String}
    (hcreated : w.Created created peerTag) :
    (w.add created peerTag).Findable ↔ w.plugin.getDialog created.1.dialogId = none := by
  obtain ⟨hlisted, hsettled⟩ := hok.findable_iff.mp h
  rw [(hok.add hcreated).findable_iff, hcreated.registry,
    Registry.listed_insert_iff hok.backed hlisted hok.fresh]
  refine and_iff_left fun l hl => ?_
  rcases List.mem_cons.mp hl with rfl | hold
  · exact hcreated.remoteTag.symm
  · exact hsettled l hold

/-- What `Drop` of a dialog does. -/
theorem drop_cases (channel : ChannelId) (w : DialogTable) :
    (∃ l ∈ w.live, l.dialog.receiver = channel ∧
        (w.drop channel).registry = w.registry.remove channel l.dialog.dialogId ∧
        (w.drop channel).live = w.live.filter (fun l => l.dialog.receiver ≠ channel) ∧
        (w.drop channel).channels = w.channels) ∨
      w.drop channel = w := by
  unfold drop
  cases hfind : w.live.find? fun l => l.dialog.receiver = channel with
  | some l =>
    have hchannel := List.find?_some hfind
    simp only [decide_eq_true_eq] at hchannel
    refine .inl ⟨l, List.mem_of_find?_eq_some hfind, hchannel, ?_, rfl, rfl⟩
    unfold registry Registry.remove
    rw [List.filter_map]
    rfl
  | none => exact .inr rfl

/-- To drop a dialog keeps the table in order. -/
theorem Ok.drop {w : DialogTable} (h : w.Ok) (channel : ChannelId) : (w.drop channel).Ok := by
  rcases drop_cases channel w with ⟨l, hl, rfl, hregistry, hlive, hchannels⟩ | hsame
  · constructor
    · rw [hregistry]
      exact h.backed.remove h.unique (mem_registry hl)
    · rw [hregistry]
      exact h.unique.remove _ _
    · rw [hlive, hchannels]
      exact fun l' hl' => h.bound l' (List.mem_filter.mp hl').1
    · rw [hlive]
      exact fun l' hl' => h.uac l' (List.mem_filter.mp hl').1
  · rw [hsame]
    exact h

/-- To drop a dialog leaves the others findable. -/
theorem Ok.findable_drop {w : DialogTable} (hok : w.Ok) (h : w.Findable) (channel : ChannelId) :
    (w.drop channel).Findable := by
  obtain ⟨hlisted, hsettled⟩ := hok.findable_iff.mp h
  rw [(hok.drop channel).findable_iff]
  rcases drop_cases channel w with ⟨l, hl, rfl, hregistry, hlive, -⟩ | hsame
  · rw [hregistry]
    refine ⟨hlisted.remove (mem_registry hl), fun l' hl' => hsettled l' ?_⟩
    rw [hlive] at hl'
    exact (List.mem_filter.mp hl').1
  · rw [hsame]
    exact ⟨hlisted, hsettled⟩

/-- The dialog is the same one after `f`. -/
def Keeps (f : LiveDialog → LiveDialog) : Prop :=
  ∀ l : LiveDialog, l.dialog.SameEnds (f l).dialog

/-- After a change a dialog is one of those before, or the one that was changed. -/
theorem mem_modify {channel : ChannelId} {f : LiveDialog → LiveDialog} {w : DialogTable}
    {l' : LiveDialog} (h : l' ∈ (w.modify channel f).live) :
    ∃ l ∈ w.live, l' = l ∨ l.dialog.receiver = channel ∧ l' = f l := by
  obtain ⟨l, hl, rfl⟩ := List.mem_map.mp h
  refine ⟨l, hl, ?_⟩
  by_cases hchannel : l.dialog.receiver = channel
  · exact .inr ⟨hchannel, if_pos hchannel⟩
  · exact .inl (if_neg hchannel)

/-- A change that keeps the dialog the same one does not touch the registry. -/
theorem Keeps.registry {f : LiveDialog → LiveDialog} (h : Keeps f) (channel : ChannelId)
    (w : DialogTable) : (w.modify channel f).registry = w.registry := by
  unfold DialogTable.registry modify
  rw [List.map_map]
  congr 1
  refine List.map_congr_left fun l _ => ?_
  by_cases hchannel : l.dialog.receiver = channel
  · rw [Function.comp_apply, if_pos hchannel, (h l).receiver, (h l).dialogId]
  · rw [Function.comp_apply, if_neg hchannel]

/-- A change that keeps the dialog the same one keeps the table in order. -/
theorem Ok.modify {w : DialogTable} (h : w.Ok) {f : LiveDialog → LiveDialog} (hf : Keeps f)
    (channel : ChannelId) : (w.modify channel f).Ok where
  backed := by
    rw [hf.registry]
    exact h.backed
  unique := by
    rw [hf.registry]
    exact h.unique
  bound := by
    intro l' hl'
    obtain ⟨l, hl, rfl | ⟨-, rfl⟩⟩ := mem_modify hl'
    · exact h.bound _ hl
    · rw [(hf l).receiver]
      exact h.bound l hl
  uac := by
    intro l' hl'
    obtain ⟨l, hl, rfl | ⟨-, rfl⟩⟩ := mem_modify hl'
    · exact h.uac _ hl
    · rw [(hf l).role, (hf l).dialogId]
      exact h.uac l hl

/-- A dialog that changes stays findable exactly when the tag of its other side stays. -/
theorem findable_modify_iff {w : DialogTable} (hok : w.Ok) (h : w.Findable)
    {f : LiveDialog → LiveDialog} (hf : Keeps f) (channel : ChannelId) :
    (w.modify channel f).Findable ↔
      ∀ l ∈ w.live, l.dialog.receiver = channel → (f l).peerTag = l.peerTag := by
  obtain ⟨hlisted, hsettled⟩ := hok.findable_iff.mp h
  rw [(hok.modify hf channel).findable_iff, hf.registry]
  constructor
  · rintro ⟨-, hsettled'⟩ l hl hchannel
    have hmem : f l ∈ (w.modify channel f).live :=
      List.mem_map.mpr ⟨l, hl, if_pos hchannel⟩
    rw [hsettled' _ hmem, (hf l).dialogId, hsettled l hl]
  · intro hpeer
    refine ⟨hlisted, fun l' hl' => ?_⟩
    obtain ⟨l, hl, rfl | ⟨hchannel, rfl⟩⟩ := mem_modify hl'
    · exact hsettled _ hl
    · rw [hpeer l hl hchannel, (hf l).dialogId, hsettled l hl]

/-- A response changes neither the identifier nor the channel of a dialog. -/
theorem keeps_answered (response : IncomingResponse) : Keeps (.answered response) := by
  intro l
  unfold LiveDialog.answered
  split_ifs
  · exact ⟨rfl, rfl, rfl, rfl, rfl⟩
  · exact ⟨rfl, rfl, rfl, rfl, rfl⟩

/-- All dialogs stay findable with a response exactly if it brings no tag to a dialog of a call of
    this side. -/
theorem findable_answered_iff {w : DialogTable} (hok : w.Ok) (h : w.Findable)
    (channel : ChannelId) (response : IncomingResponse) :
    (w.modify channel (.answered response)).Findable ↔
      w.Unambiguous (.answered channel response) := by
  obtain ⟨-, hsettled⟩ := hok.findable_iff.mp h
  rw [findable_modify_iff hok h (keeps_answered response)]
  refine forall₂_congr fun l hl => forall_congr' fun _ => ?_
  by_cases hrole : l.dialog.role = .uac
  · -- so far the other side has no tag
    have hnone : l.peerTag = none := by rw [hsettled l hl, hok.uac l hl hrole]
    by_cases hcode : 101 ≤ response.code.asU16 ∧ response.code.asU16 ≤ 299
    · rw [LiveDialog.answered, if_pos ⟨hrole, hcode⟩, hnone]
      exact ⟨fun htag _ _ _ => htag, fun htag => htag hrole hcode.1 hcode.2⟩
    · rw [LiveDialog.answered, if_neg (fun hall => hcode hall.2)]
      exact iff_of_true rfl fun _ hlow hhigh => absurd ⟨hlow, hhigh⟩ hcode
  · rw [LiveDialog.answered, if_neg (fun hall => hrole hall.1)]
    exact iff_of_true rfl fun huac => absurd huac hrole

/-- To number a request keeps the dialog the same one. -/
theorem keeps_createRequest (method : SipMethod) (random : UInt32) :
    Keeps fun l => { l with dialog := (l.dialog.createRequest method random).2 } :=
  fun l => Dialog.createRequest_sameEnds method random l.dialog

/-- To take a request keeps the dialog the same one. -/
theorem keeps_receive (r : Reception) :
    Keeps fun l => { l with dialog := (l.dialog.receive r).dialog } :=
  fun l => Dialog.receive_sameEnds r l.dialog

/-- To set the state keeps the dialog the same one. -/
theorem keeps_setState (state : DialogState) :
    Keeps fun l => { l with dialog := { l.dialog with state := state } } :=
  fun _ => ⟨rfl, rfl, rfl, rfl, rfl⟩

/-- What an event does to the dialogs: one comes, one changes or one goes. -/
theorem Ok.step {w : DialogTable} (h : w.Ok) (e : DialogEvent) : (w.step e).Ok := by
  cases e with
  | createUas request contact endpoint tag =>
    cases hcreated : Dialog.createUas request contact endpoint tag w.channels w.plugin with
    | ok created => simpa only [DialogTable.step, hcreated] using h.add (created_uas hcreated)
    | error e => simpa only [DialogTable.step, hcreated] using h
  | createUac fromUri toUri contactUri endpoint tag callId cseq =>
    exact h.add (created_uac w fromUri toUri contactUri endpoint tag callId cseq)
  | answered channel response => exact h.modify (keeps_answered response) channel
  | createRequest channel method random =>
    exact h.modify (keeps_createRequest method random) channel
  | receive channel r => exact h.modify (keeps_receive r) channel
  | setState channel state => exact h.modify (keeps_setState state) channel
  | drop channel => exact h.drop channel

/-- **A step keeps the dialogs findable** exactly when it is unambiguous. -/
theorem findable_step_iff {w : DialogTable} (hok : w.Ok) (h : w.Findable) (e : DialogEvent) :
    (w.step e).Findable ↔ w.Unambiguous e := by
  cases e with
  | createUas request contact endpoint tag =>
    simp only [step, Unambiguous]
    cases hcreated : Dialog.createUas request contact endpoint tag w.channels w.plugin with
    | ok created =>
      rw [findable_add_iff hok h (created_uas hcreated)]
      exact ⟨fun hfree created' heq => Except.ok.inj heq ▸ hfree, fun hall => hall created rfl⟩
    | error e =>
      simp only [reduceCtorEq, false_implies, implies_true, iff_true]
      exact h
  | createUac fromUri toUri contactUri endpoint tag callId cseq =>
    exact findable_add_iff hok h (created_uac w fromUri toUri contactUri endpoint tag callId cseq)
  | answered channel response => exact findable_answered_iff hok h channel response
  -- these keep the identifier of the dialog, under which it is found
  | createRequest channel method random =>
    refine iff_of_true ?_ trivial
    exact (findable_modify_iff hok h (keeps_createRequest method random) channel).mpr
      fun _ _ _ => rfl
  | receive channel r =>
    refine iff_of_true ?_ trivial
    exact (findable_modify_iff hok h (keeps_receive r) channel).mpr fun _ _ _ => rfl
  | setState channel state =>
    refine iff_of_true ?_ trivial
    exact (findable_modify_iff hok h (keeps_setState state) channel).mpr fun _ _ _ => rfl
  | drop channel => exact iff_of_true (hok.findable_drop h channel) trivial

/-- **When every dialog is found.** All along a run each dialog that has not been dropped gets the
    requests of its other side, and no others, exactly when no new dialog has the identifier of
    another one, and no response that creates a dialog of this side has a tag. -/
theorem run_findable_iff (es : List DialogEvent) :
    Always step Findable {} es ↔ Meets step Unambiguous {} es := by
  have hinv : ∀ (w : DialogTable) e, w.Ok → (w.step e).Ok := fun _ e h => h.step e
  have hstart : Findable {} := fun _ h => nomatch h
  exact always_iff_meets hinv (fun _ e hok h => findable_step_iff hok h e) ok_start hstart es

/-- A response to the call of `Dialog.calling`, with a tag. -/
def answer : IncomingResponse where
  response := { statusLine := ⟨.ok, ""⟩ }
  incomingInfo := .localhost .invite (some "to") false

/-- A call that is answered with a tag: the requests of the other side are not found. -/
theorem not_run_findable_answered :
    ¬ Always step Findable {}
      [.createUac (.uri Uri.localhost) (.uri Uri.localhost) none {} "from" "1" 1,
        .answered 0 answer] := by
  intro h
  have hfindable := h _ (List.prefix_refl _) ⟨.calling, some "to"⟩ List.mem_cons_self
    (requestOf ⟨⟨"1"⟩, "from", some "to"⟩)
  obtain ⟨id, hid, hentry⟩ := onIncomingRequest_eq_dialog_iff.mp (hfindable.mpr ⟨rfl, rfl, rfl⟩)
  obtain rfl := Option.some.inj hid
  cases hentry

end DialogTable

end Rssip
