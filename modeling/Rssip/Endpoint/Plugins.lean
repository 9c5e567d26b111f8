import Rssip.Transaction.Layer

namespace Rssip

/-!
# Plugins

A received request goes through the plugins of the endpoint in the order they were registered,
until one of them takes it.

* `DialogPlugin`, `TsxPlugin.onIncomingRequest` — the two plugins of the crate;
* `Endpoint.onRequest` — the loop over the plugins;
* `onRequest_transaction_iff` — when a request reaches the transaction it belongs to.
-/

/-- What a dialog is found by. -/
structure DialogId where
  callId : CallId
  localTag : String
  remoteTag : Option String
deriving DecidableEq

/-- A request without a `To` tag is outside of any dialog. -/
def DialogId.fromIncomingRequest (request : IncomingRequest) : Option DialogId :=
  let headers := request.incomingInfo.mandatoryHeaders
  headers.toHdr.tag.map fun localTag => ⟨headers.callId, localTag, headers.fromHdr.tag⟩

/-- The plugin that keeps the table of dialogs. -/
structure DialogPlugin where
  dialogs : DialogId → Option ChannelId := fun _ => none

/-- The channel of the dialog that has the identifier. -/
def DialogPlugin.getDialog (id : DialogId) (p : DialogPlugin) : Option ChannelId := p.dialogs id

/-- What becomes of a received request. -/
inductive Outcome where
  | transaction (channel : ChannelId)
  | dialog (channel : ChannelId)
  | responded (code : StatusCode)
  | ignored
  | user
  | unhandled
  | panicked
deriving DecidableEq

/-- Every request with a `To` tag is taken; without a dialog it is answered, unless it is an
    `ACK`. -/
def DialogPlugin.onIncomingRequest (p : DialogPlugin) (req : IncomingRequest) : Option Outcome :=
  match DialogId.fromIncomingRequest req with
  | none => none
  | some dialogId =>
    match p.getDialog dialogId with
    | some channel => some (.dialog channel)
    | none =>
      if req.method ≠ .ack then some (.responded .callOrTransactionDoesNotExist)
      else some .ignored

/-- A request of a transaction is taken. -/
def TsxPlugin.onIncomingRequest (p : TsxPlugin) (req : IncomingRequest) : Option Outcome :=
  match TransactionKey.fromRequest req with
  | none => some .panicked
  | some key => (p.getEntry key).map .transaction

/-- A plugin: one of the crate, or one of its user, by the requests it takes. -/
inductive Plugin where
  | dialog (p : DialogPlugin)
  | tsx (p : TsxPlugin)
  | user (takes : IncomingRequest → Bool)

namespace Plugin

/-- The outcome, if the plugin takes the request. -/
def onIncomingRequest (req : IncomingRequest) : Plugin → Option Outcome
  | dialog p => p.onIncomingRequest req
  | tsx p => p.onIncomingRequest req
  | user takes => if takes req then some .user else none

/-- The plugin of the transactions. -/
def isTsx : Plugin → Bool
  | tsx _ => true
  | dialog _ | user _ => false

/-- A plugin other than the transactions' lets the request pass: it has no `To` tag, or the user
    does not take it. -/
def Passes (req : IncomingRequest) : Plugin → Prop
  | dialog _ => req.incomingInfo.mandatoryHeaders.toHdr.tag = none
  | tsx _ => True
  | user takes => takes req = false

/-- A plugin that lets a request pass does nothing, one that does not takes it, and not for a
    transaction. -/
theorem onIncomingRequest_cases {p : Plugin} (h : p.isTsx = false) (req : IncomingRequest) :
    p.Passes req ∧ p.onIncomingRequest req = none ∨
      ¬ p.Passes req ∧ ∃ out, p.onIncomingRequest req = some out ∧
        ∀ channel, out ≠ .transaction channel := by
  cases p with
  | tsx p => cases h
  | user takes =>
    cases htakes : takes req with
    | true =>
      refine .inr ⟨by rw [Passes, htakes]; decide, .user, if_pos htakes, ?_⟩
      exact fun _ => Outcome.noConfusion
    | false => exact .inl ⟨htakes, by rw [onIncomingRequest, htakes]; rfl⟩
  | dialog p =>
    -- a request without a tag is outside of any dialog
    cases htag : req.incomingInfo.mandatoryHeaders.toHdr.tag with
    | none =>
      refine .inl ⟨htag, ?_⟩
      simp only [onIncomingRequest, DialogPlugin.onIncomingRequest,
        DialogId.fromIncomingRequest, htag, Option.map_none]
    | some tag =>
      refine .inr ⟨by rw [Passes, htag]; exact Option.some_ne_none tag, ?_⟩
      simp only [onIncomingRequest, DialogPlugin.onIncomingRequest,
        DialogId.fromIncomingRequest, htag, Option.map_some]
      split
      · exact ⟨_, rfl, fun _ => Outcome.noConfusion⟩
      · split
        · exact ⟨_, rfl, fun _ => Outcome.noConfusion⟩
        · exact ⟨_, rfl, fun _ => Outcome.noConfusion⟩

end Plugin

namespace Endpoint

/-- The loop of `on_request`. -/
def onRequest : List Plugin → IncomingRequest → Outcome
  | [], _ => .unhandled
  | p :: plugins, req =>
    match p.onIncomingRequest req with
    | some out => out
    | none => onRequest plugins req

/-- The first plugin of its kind. -/
def tsxPlugin : List Plugin → Option TsxPlugin
  | [] => none
  | .tsx p :: _ => some p
  | .dialog _ :: plugins | .user _ :: plugins => tsxPlugin plugins

/-- **When a request reaches its transaction.** A request whose key is in the table of
    transactions goes to the channel found there, and nowhere else, exactly when every plugin
    registered before the transactions' lets it pass: a `DialogPlugin` among them, if the
    request has no `To` tag. -/
theorem onRequest_transaction_iff {plugins : List Plugin} {req : IncomingRequest}
    {p : TsxPlugin} {key : TransactionKey} {channel : ChannelId}
    (hp : tsxPlugin plugins = some p) (hkey : TransactionKey.fromRequest req = some key)
    (hentry : p.getEntry key = some channel) :
    onRequest plugins req = .transaction channel ↔
      ∀ q ∈ plugins.takeWhile (fun q => !q.isTsx), q.Passes req := by
  induction plugins with
  | nil => cases hp
  | cons q plugins ih =>
    -- the first plugin is the one of the transactions, or stands in front of it
    cases hq : q.isTsx with
    | true =>
      cases q with
      | dialog _ => cases hq
      | user _ => cases hq
      | tsx p' =>
        obtain rfl : p' = p := Option.some.inj hp
        refine iff_of_true ?_ (fun q hq' => by simp [Plugin.isTsx] at hq')
        simp only [onRequest, Plugin.onIncomingRequest, TsxPlugin.onIncomingRequest, hkey,
          hentry, Option.map_some]
    | false =>
      have hp : tsxPlugin plugins = some p := by
        cases q with
        | tsx _ => cases hq
        | dialog _ => exact hp
        | user _ => exact hp
      rw [List.takeWhile_cons_of_pos (by rw [hq]; rfl), List.forall_mem_cons, ← ih hp]
      rcases Plugin.onIncomingRequest_cases hq req with
        ⟨hpasses, hnone⟩ | ⟨htakes, out, hsome, hout⟩
      · simp only [onRequest, hnone, hpasses, true_and]
      · simp only [onRequest, hsome, htakes, false_and, iff_false]
        exact hout channel

/-- The `ACK` for a rejected `INVITE`, with the transactions' plugin in front. -/
theorem onRequest_transaction_ack :
    let tsx := TsxPlugin.addTransaction (.newKey3261 .uas .invite "z9hG4bK1") 0 {}
    onRequest [.tsx tsx, .dialog {}] (.fromLocalhost .ack (some "to") false) = .transaction 0 := by
  have hentry := TsxPlugin.getEntry_addTransaction_self (.newKey3261 .uas .invite "z9hG4bK1") 0 {}
  refine (onRequest_transaction_iff rfl rfl hentry).mpr fun q hq => ?_
  simp [Plugin.isTsx] at hq

/-- With the dialogs' plugin in front the same `ACK` is lost. -/
theorem not_forall_onRequest_transaction :
    ¬ ∀ (dialog : DialogPlugin) (tsx : TsxPlugin) (plugins : List Plugin),
      plugins = [.dialog dialog, .tsx tsx] ∨ plugins = [.tsx tsx, .dialog dialog] →
      ∀ (req : IncomingRequest) (key : TransactionKey) (channel : ChannelId),
        TransactionKey.fromRequest req = some key → tsx.getEntry key = some channel →
        onRequest plugins req = .transaction channel := by
  intro hall
  have h := hall {} (TsxPlugin.addTransaction (.newKey3261 .uas .invite "z9hG4bK1") 0 {}) _
    (.inl rfl) (.fromLocalhost .ack (some "to") false) _ 0 rfl
    (TsxPlugin.getEntry_addTransaction_self _ _ _)
  exact absurd h (by decide)

end Endpoint

end Rssip
