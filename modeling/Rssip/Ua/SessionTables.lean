import Rssip.Transaction.ServerTable
import Rssip.Ua.Session

namespace Rssip

open Lib

/-!
# The entries of a session

A session for an `INVITE` is entered twice: its dialog in the table of dialogs, before the body is
looked at, and its transaction in the table of transactions.

* `SessionTables.fromInvite` — `from_invite` with both tables;
* `fromInvite_entered` — a call that fails leaves the tables as they were, and one that succeeds
  adds an entry to each.
-/

/-- The tables of an endpoint. -/
structure SessionTables where
  dialogs : DialogPlugin := {}
  transactions : TsxPlugin := {}

/-- The table `f'` is `f` with a new entry. -/
structure AddsEntry {κ : Type} [DecidableEq κ] (f f' : κ → Option ChannelId) (key : κ)
    (channel : ChannelId) : Prop where
  free : f key = none
  others : ∀ key', f' key' = if key' = key then some channel else f key'

theorem addsEntry_update {κ : Type} [DecidableEq κ] {f : κ → Option ChannelId} {key : κ}
    (h : f key = none) (channel : ChannelId) :
    AddsEntry f (Function.update f key (some channel)) key channel where
  free := h
  others _ := Function.update_apply _ _ _ _

namespace DialogPlugin

/-- A dialog that goes again leaves no trace, if its identifier was new. -/
theorem removeDialog_registerDialog {id : DialogId} {p : DialogPlugin} (h : p.getDialog id = none)
    (sender : ChannelId) : (p.registerDialog id sender).removeDialog id = p := by
  have htable : Function.update (Function.update p.dialogs id (some sender)) id none = p.dialogs := by
    rw [Function.update_idem, Function.update_eq_self_iff]
    exact h.symm
  exact congrArg DialogPlugin.mk htable

end DialogPlugin

namespace SessionTables

/-- The drop of a dialog. -/
def dropDialog (d : Dialog) (w : SessionTables) : SessionTables :=
  { w with dialogs := d.drop w.dialogs }

/-- `from_invite`.  Whichever way the call is left before its end, the dialog is dropped. -/
def fromInvite (request : IncomingRequest) (contact : Contact) (endpoint : Endpoint) (tag : String)
    (channel entry : ChannelId) (localIp : IpAddr) (now : Nat) (w : SessionTables) :
    Except SessionAbort (Session Incoming) × SessionTables :=
  if request.method ≠ .invite then
    (.error (.error (.core (.custom ("unexpected method '" ++ request.method.asStr ++
      "' expected INVITE")))), w)
  else
    match Dialog.createUas request contact endpoint tag channel w.dialogs with
    | .error e => (.error (.error (.core e)), w)
    | .ok (dialog, dialogs) =>
      let w := { w with dialogs := dialogs }
      match remoteOffer localIp request.request.body with
      | .error abort => (.error abort, w.dropDialog dialog)
      | .ok negotiator =>
        match RegisteredServer.fromRequest request now entry w.transactions with
        | none => (.error (.panicked .transactionKey), w.dropDialog dialog)
        | some registered =>
          (.ok { state := { dialog := dialog, serverTsx := registered.server }
                 negotiator := negotiator },
            { w with transactions := registered.plugin })

variable {request : IncomingRequest} {contact : Contact} {endpoint : Endpoint} {tag : String}
  {channel entry : ChannelId} {localIp : IpAddr} {now : Nat} {w : SessionTables}

/-- What a call has left behind: nothing if it fails, and if it succeeds an entry in each table. -/
structure Entered (w : SessionTables) (channel entry : ChannelId)
    (out : Except SessionAbort (Session Incoming) × SessionTables) : Prop where
  failed : ∀ abort, out.1 = .error abort → out.2 = w
  created : ∀ s, out.1 = .ok s →
    AddsEntry w.dialogs.getDialog out.2.dialogs.getDialog s.state.dialog.dialogId channel ∧
      AddsEntry w.transactions.getEntry out.2.transactions.getEntry
        s.state.serverTsx.transactionKey entry

theorem entered_error (w : SessionTables) (channel entry : ChannelId) (abort : SessionAbort) :
    Entered w channel entry (.error abort, w) :=
  ⟨fun _ _ => rfl, fun _ h => nomatch h⟩

theorem transactionKey_fromRequest {serverTsx : ServerTransaction}
    (h : ServerTransaction.fromRequest request now = some serverTsx) :
    TransactionKey.fromRequest request = some serverTsx.transactionKey := by
  rw [ServerTransaction.fromRequest] at h
  split at h
  · cases h
  · obtain ⟨key, hkey, rfl⟩ := Option.map_eq_some_iff.mp h
    exact hkey

/-- **A session leaves no trace** unless it comes about.  The tag of its dialog and the key of its
    transaction are not in the tables yet. -/
theorem fromInvite_entered
    (htag : ∀ id : DialogId, id.localTag = tag → w.dialogs.getDialog id = none)
    (hkey : ∀ key, TransactionKey.fromRequest request = some key →
      w.transactions.getEntry key = none) :
    Entered w channel entry
      (w.fromInvite request contact endpoint tag channel entry localIp now) := by
  unfold fromInvite
  by_cases hmethod : request.method ≠ .invite
  · rw [if_pos hmethod]
    exact entered_error w channel entry _
  · rw [if_neg hmethod]
    cases hcreated : Dialog.createUas request contact endpoint tag channel w.dialogs with
    | error e => exact entered_error w channel entry _
    | ok created =>
      obtain ⟨d, dialogs⟩ := created
      obtain ⟨-, hd, rfl⟩ := Dialog.createUas_ok hcreated
      have hfree : w.dialogs.getDialog d.dialogId = none := htag d.dialogId (by rw [hd]; rfl)
      -- the entry of the dialog is taken out again
      have hdropped : dropDialog d
          { w with dialogs := w.dialogs.registerDialog d.dialogId channel } = w := by
        rw [dropDialog, Dialog.drop, DialogPlugin.removeDialog_registerDialog hfree]
      dsimp only
      cases remoteOffer localIp request.request.body with
      | error abort =>
        rw [hdropped]
        exact entered_error w channel entry _
      | ok negotiator =>
        dsimp only
        rw [RegisteredServer.fromRequest]
        cases hserver : ServerTransaction.fromRequest request now with
        | none =>
          rw [hdropped]
          exact entered_error w channel entry _
        | some serverTsx =>
          have hfreeKey := hkey _ (transactionKey_fromRequest hserver)
          refine ⟨fun abort habort => ?_, fun s hs => ?_⟩
          · cases habort
          obtain rfl := Except.ok.inj hs
          exact ⟨addsEntry_update (f := w.dialogs.dialogs) hfree channel,
            addsEntry_update (f := w.transactions.transactions) hfreeKey entry⟩

/-- An `INVITE` with a body that is no session description. -/
def garbled : IncomingRequest :=
  let r := IncomingRequest.fromLocalhost .invite none false
  { r with request := { r.request with body := some (asBytes "v=1") } }

/-- The call for the first `INVITE` of an endpoint. -/
def first (request : IncomingRequest) : Except SessionAbort (Session Incoming) × SessionTables :=
  fromInvite request ⟨.uri Uri.localhost, none, none, {}⟩ {} "to" 0 0 SocketAddr.localhost.ip 0 {}

/-- The dialog of the garbled `INVITE` is in the table for a time only. -/
theorem fromInvite_entered_garbled :
    (∃ abort, (first garbled).1 = .error abort) ∧ (first garbled).2 = {} := by
  have hfailed : ∃ abort, (first garbled).1 = .error abort := ⟨_, rfl⟩
  refine ⟨hfailed, ?_⟩
  obtain ⟨abort, hfailed⟩ := hfailed
  have hentered : Entered {} 0 0 (first garbled) :=
    fromInvite_entered (fun _ _ => rfl) fun _ _ => rfl
  exact hentered.failed abort hfailed

end SessionTables

end Rssip
