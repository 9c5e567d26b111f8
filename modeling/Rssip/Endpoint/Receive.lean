import Rssip.Endpoint.Plugins
import Rssip.Parser.Message

namespace Rssip

open Lib

/-!
# Received packets

A packet is parsed, its mandatory headers are taken out, and the message goes through the plugins.

* `Endpoint.onResponse` — the loop over the plugins for a response;
* `TransportLayer.processMessage` — what becomes of a packet;
* `processMessage_ne_panicked_iff` — a message without a branch of RFC 3261 makes the endpoint
  panic if it gets as far as the transactions' plugin.
-/

/-- A response of a transaction is taken. -/
def TsxPlugin.onIncomingResponse (p : TsxPlugin) (res : IncomingResponse) : Option Outcome :=
  match TransactionKey.fromResponse res with
  | none => some .panicked
  | some key => (p.getEntry key).map .transaction

/-- A registered plugin, with the responses that it takes if it is one of the user. -/
structure RegisteredPlugin where
  plugin : Plugin
  takesResponse : IncomingResponse → Bool := fun _ => false

/-- The outcome, if the plugin takes the response. -/
def RegisteredPlugin.onIncomingResponse (res : IncomingResponse) (p : RegisteredPlugin) :
    Option Outcome :=
  match p.plugin with
  | .dialog _ => none
  | .tsx tsx => tsx.onIncomingResponse res
  | .user _ => if p.takesResponse res then some .user else none

namespace Endpoint

/-- The loop of `on_response`. -/
def onResponse : List RegisteredPlugin → IncomingResponse → Outcome
  | [], _ => .unhandled
  | p :: plugins, res =>
    match p.onIncomingResponse res with
    | some out => out
    | none => onResponse plugins res

end Endpoint

/-- What the parser and `process_message` know of the sender of a message. -/
def IncomingInfo.ofMessage (mandatoryHeaders : MandatoryHeaders) (message : TransportMessage) :
    IncomingInfo where
  mandatoryHeaders :=
    { mandatoryHeaders with
      via := { mandatoryHeaders.via with received := some message.packet.source.ip } }
  transportMsg := message

namespace TransportLayer

/-- A message with its mandatory headers goes through the plugins. -/
def dispatch (plugins : List RegisteredPlugin) (info : IncomingInfo) : SipMessage → Outcome
  | .request request =>
    Endpoint.onRequest (plugins.map RegisteredPlugin.plugin) ⟨request, info⟩
  | .response response => Endpoint.onResponse plugins ⟨response, info⟩

/-- `process_message`.  What is no message, or lacks a mandatory header, is ignored. -/
def processMessage (plugins : List RegisteredPlugin) (message : TransportMessage) : Outcome :=
  match SipParser.parse message.packet.data with
  | .error _ => .ignored
  | .ok sipMessage =>
    match MandatoryHeaders.tryFrom sipMessage.headers with
    | .error _ => .ignored
    | .ok mandatoryHeaders => dispatch plugins (.ofMessage mandatoryHeaders message) sipMessage

end TransportLayer

/-! ### The way to the transactions -/

/-- The branch of the topmost `Via` is one of RFC 3261. -/
def MandatoryHeaders.HasMagicCookie (h : MandatoryHeaders) : Prop :=
  ∃ branch, h.via.branch = some branch ∧ rfc3261BranchId.toList <+: branch.toList

/-- A plugin other than the transactions' lets the message pass. -/
def RegisteredPlugin.Passes (info : IncomingInfo) (m : SipMessage) (p : RegisteredPlugin) : Prop :=
  match m, p.plugin with
  | .request request, plugin => plugin.Passes ⟨request, info⟩
  | .response response, .user _ => p.takesResponse ⟨response, info⟩ = false
  | .response _, .dialog _ => True
  | .response _, .tsx _ => True

/-- The message gets as far as a plugin of the transactions: one is registered, and the plugins
    in front of the first one all let it pass. -/
def ReachesTransactions (plugins : List RegisteredPlugin) (info : IncomingInfo) (m : SipMessage) :
    Prop :=
  (∃ p ∈ plugins, p.plugin.isTsx) ∧
    ∀ p ∈ plugins.takeWhile (fun p => !p.plugin.isTsx), p.Passes info m

theorem fromIncomingInfo_eq_none_iff {info : IncomingInfo} (role : Role) :
    TransactionKey.fromIncomingInfo info role = none ↔ ¬ info.mandatoryHeaders.HasMagicCookie := by
  unfold TransactionKey.fromIncomingInfo MandatoryHeaders.HasMagicCookie
  cases hbranch : info.mandatoryHeaders.via.branch with
  | none => simp
  | some branch => simp

namespace RegisteredPlugin

/-- The hook of a plugin for a message. -/
def onIncoming (info : IncomingInfo) (m : SipMessage) (p : RegisteredPlugin) : Option Outcome :=
  match m with
  | .request request => p.plugin.onIncomingRequest ⟨request, info⟩
  | .response response => p.onIncomingResponse ⟨response, info⟩

/-- The transactions' plugin panics for a message without a key, and for no other. -/
theorem onIncoming_tsx {info : IncomingInfo} {m : SipMessage} {p : RegisteredPlugin}
    (h : p.plugin.isTsx) :
    p.onIncoming info m = some .panicked ↔ ¬ info.mandatoryHeaders.HasMagicCookie := by
  have hnot : ∀ (o : Option ChannelId), o.map Outcome.transaction ≠ some .panicked := by
    intro o
    cases o <;> simp
  obtain ⟨plugin, takesResponse⟩ := p
  cases plugin with
  | dialog _ => cases h
  | user _ => cases h
  | tsx tsx =>
    -- the key of either kind is made from the branch of the topmost `Via`
    cases m with
    | request request =>
      rw [← fromIncomingInfo_eq_none_iff .uas]
      show tsx.onIncomingRequest ⟨request, info⟩ = _ ↔ _
      unfold TsxPlugin.onIncomingRequest TransactionKey.fromRequest
      cases TransactionKey.fromIncomingInfo info .uas with
      | none => simp
      | some key => exact iff_of_false (hnot _) (by simp)
    | response response =>
      rw [← fromIncomingInfo_eq_none_iff .uac]
      show tsx.onIncomingResponse ⟨response, info⟩ = _ ↔ _
      unfold TsxPlugin.onIncomingResponse TransactionKey.fromResponse
      cases TransactionKey.fromIncomingInfo info .uac with
      | none => simp
      | some key => exact iff_of_false (hnot _) (by simp)

/-- Another plugin lets the message pass, or takes it without a panic. -/
theorem onIncoming_cases {info : IncomingInfo} {m : SipMessage} {p : RegisteredPlugin}
    (h : p.plugin.isTsx = false) :
    p.Passes info m ∧ p.onIncoming info m = none ∨
      ¬ p.Passes info m ∧ ∃ out, p.onIncoming info m = some out ∧ out ≠ .panicked := by
  obtain ⟨plugin, takesResponse⟩ := p
  cases plugin with
  | tsx _ => cases h
  | user takes =>
    cases m with
    | request request =>
      show takes _ = false ∧ (if takes _ then _ else _) = none ∨
        ¬ takes _ = false ∧ ∃ out, (if takes _ then _ else _) = some out ∧ _
      cases takes ⟨request, info⟩ <;> simp
    | response response =>
      show takesResponse _ = false ∧ (if takesResponse _ then _ else _) = none ∨
        ¬ takesResponse _ = false ∧ ∃ out, (if takesResponse _ then _ else _) = some out ∧ _
      cases takesResponse ⟨response, info⟩ <;> simp
  | dialog dialog =>
    -- it takes every request that names a dialog, whether or not there is one
    cases m with
    | response response => exact .inl ⟨trivial, rfl⟩
    | request request =>
      cases htag : info.mandatoryHeaders.toHdr.tag with
      | none =>
        refine .inl ⟨htag, ?_⟩
        simp only [onIncoming, Plugin.onIncomingRequest, DialogPlugin.onIncomingRequest,
          DialogId.fromIncomingRequest, htag, Option.map_none]
      | some tag =>
        refine .inr ⟨fun h => Option.some_ne_none tag (htag.symm.trans h), ?_⟩
        simp only [onIncoming, Plugin.onIncomingRequest, DialogPlugin.onIncomingRequest,
          DialogId.fromIncomingRequest, htag, Option.map_some]
        split
        · exact ⟨_, rfl, Outcome.noConfusion⟩
        · split
          · exact ⟨_, rfl, Outcome.noConfusion⟩
          · exact ⟨_, rfl, Outcome.noConfusion⟩

end RegisteredPlugin

/-- The plugins are asked one after the other. -/
theorem TransportLayer.dispatch_cons (p : RegisteredPlugin) (plugins : List RegisteredPlugin)
    (info : IncomingInfo) (m : SipMessage) :
    dispatch (p :: plugins) info m = (p.onIncoming info m).getD (dispatch plugins info m) := by
  cases m with
  | request request =>
    show Endpoint.onRequest _ _ = _
    rw [List.map_cons, Endpoint.onRequest]
    cases h : p.plugin.onIncomingRequest ⟨request, info⟩ <;>
    · simp only [RegisteredPlugin.onIncoming, h]
      rfl
  | response response =>
    show Endpoint.onResponse _ _ = _
    rw [Endpoint.onResponse]
    cases h : p.onIncomingResponse ⟨response, info⟩ <;>
    · simp only [RegisteredPlugin.onIncoming, h]
      rfl

theorem reachesTransactions_cons_tsx {p : RegisteredPlugin} (h : p.plugin.isTsx)
    (plugins : List RegisteredPlugin) (info : IncomingInfo) (m : SipMessage) :
    ReachesTransactions (p :: plugins) info m := by
  refine ⟨⟨p, List.mem_cons_self, h⟩, ?_⟩
  rw [List.takeWhile_cons_of_neg (by simp [h])]
  simp

theorem reachesTransactions_cons {p : RegisteredPlugin} (h : p.plugin.isTsx = false)
    {plugins : List RegisteredPlugin} {info : IncomingInfo} {m : SipMessage} :
    ReachesTransactions (p :: plugins) info m ↔
      p.Passes info m ∧ ReachesTransactions plugins info m := by
  unfold ReachesTransactions
  rw [List.takeWhile_cons_of_pos (by simp [h]), List.forall_mem_cons]
  simp only [List.mem_cons, exists_eq_or_imp, h, Bool.false_eq_true, false_or]
  exact and_left_comm

theorem dispatch_panicked_iff (plugins : List RegisteredPlugin) (info : IncomingInfo)
    (m : SipMessage) :
    TransportLayer.dispatch plugins info m = .panicked ↔
      ReachesTransactions plugins info m ∧ ¬ info.mandatoryHeaders.HasMagicCookie := by
  induction plugins with
  | nil =>
    have hout : TransportLayer.dispatch [] info m = .unhandled := by cases m <;> rfl
    rw [hout]
    refine iff_of_false (by simp) ?_
    rintro ⟨⟨⟨p, hp, -⟩, -⟩, -⟩
    exact absurd hp List.not_mem_nil
  | cons p plugins ih =>
    rw [TransportLayer.dispatch_cons]
    -- the plugin of the transactions panics itself, any other one hides it or not
    cases htsx : p.plugin.isTsx with
    | true =>
      have hhook : p.onIncoming info m = some .panicked ↔ ¬ info.mandatoryHeaders.HasMagicCookie :=
        RegisteredPlugin.onIncoming_tsx htsx
      simp only [reachesTransactions_cons_tsx htsx, true_and]
      by_cases hcookie : info.mandatoryHeaders.HasMagicCookie
      · have hnot : p.onIncoming info m ≠ some .panicked := fun h => hhook.mp h hcookie
        cases hrun : p.onIncoming info m with
        | none =>
          rw [Option.getD_none, ih]
          exact iff_of_false (fun h => h.2 hcookie) (fun h => h hcookie)
        | some out =>
          rw [hrun] at hnot
          rw [Option.getD_some]
          exact iff_of_false (fun h => hnot (congrArg some h)) (fun h => h hcookie)
      · rw [hhook.mpr hcookie]
        exact iff_of_true rfl hcookie
    | false =>
      rw [reachesTransactions_cons htsx]
      rcases RegisteredPlugin.onIncoming_cases htsx with
        ⟨hpasses, hnone⟩ | ⟨htakes, out, hsome, hout⟩
      · rw [hnone, Option.getD_none, ih]
        simp only [hpasses, true_and]
      · rw [hsome, Option.getD_some]
        exact iff_of_false hout fun h => htakes h.1.1

/-- **When a message makes the endpoint panic.** For every message with its mandatory headers, and
    all plugins: it is processed without a panic if and only if its topmost `Via` has a branch of
    RFC 3261, or it does not get as far as the transactions' plugin. -/
theorem processMessage_ne_panicked_iff {message : TransportMessage} {m : SipMessage}
    {mandatoryHeaders : MandatoryHeaders} (hparse : SipParser.parse message.packet.data = .ok m)
    (hheaders : MandatoryHeaders.tryFrom m.headers = .ok mandatoryHeaders)
    (plugins : List RegisteredPlugin) :
    TransportLayer.processMessage plugins message ≠ .panicked ↔
      mandatoryHeaders.HasMagicCookie ∨
        ¬ ReachesTransactions plugins (.ofMessage mandatoryHeaders message) m := by
  have hcookie : (IncomingInfo.ofMessage mandatoryHeaders message).mandatoryHeaders.HasMagicCookie ↔
      mandatoryHeaders.HasMagicCookie := Iff.rfl
  have hprocess : TransportLayer.processMessage plugins message =
      TransportLayer.dispatch plugins (.ofMessage mandatoryHeaders message) m := by
    simp only [TransportLayer.processMessage, hparse, hheaders]
  rw [hprocess, ne_eq, dispatch_panicked_iff, hcookie, not_and_or, not_not, or_comm]

/-! ### Two packets -/

/-- A packet from `localhost`. -/
def TransportMessage.fromLocalhost (data : Bytes) : TransportMessage :=
  ⟨TransportHandle.localhost false, ⟨data, SocketAddr.localhost⟩⟩

/-- A response with the mandatory headers, and parameters behind its `Via`. -/
def optionsOk (viaParams : String) : Bytes :=
  asBytes ("SIP/2.0 200 OK\r\nVia: SIP/2.0/UDP a" ++ viaParams ++
    "\r\nFrom: sip:b\r\nTo: sip:c\r\nCall-ID: 1\r\nCSeq: 1 OPTIONS\r\n\r\n")

/-- What the parser makes of `optionsOk`. -/
def optionsOkHeaders (branch : Option String) : MandatoryHeaders where
  via := { transport := .udp, sentBy := ⟨.hostName "a", none⟩, branch := branch }
  fromHdr := ⟨.uri { scheme := .sip, user := none, hostPort := ⟨.hostName "b", none⟩ }, none, {}⟩
  toHdr := ⟨.uri { scheme := .sip, user := none, hostPort := ⟨.hostName "c", none⟩ }, none, {}⟩
  callId := ⟨"1"⟩
  cseq := ⟨1, .options⟩

theorem processMessage_optionsOk :
    TransportLayer.processMessage [⟨.tsx {}, fun _ => false⟩]
      (.fromLocalhost (optionsOk ";branch=z9hG4bK1")) ≠ .panicked := by
  have hparse : SipParser.parse
      (TransportMessage.fromLocalhost (optionsOk ";branch=z9hG4bK1")).packet.data =
      .ok (.response { statusLine := ⟨.ok, "OK"⟩,
                       headers := (optionsOkHeaders (some "z9hG4bK1")).intoHeaders }) := by
    decide +kernel
  have hheaders : MandatoryHeaders.tryFrom (optionsOkHeaders (some "z9hG4bK1")).intoHeaders =
      .ok (optionsOkHeaders (some "z9hG4bK1")) := rfl
  refine (processMessage_ne_panicked_iff hparse hheaders _).mpr (.inl ⟨"z9hG4bK1", rfl, ?_⟩)
  decide

/-- Without a branch, and with one of an older element, the same response is a panic. -/
theorem not_processMessage_optionsOk :
    ¬ (∀ data m mandatoryHeaders, SipParser.parse data = .ok m →
      MandatoryHeaders.tryFrom m.headers = .ok mandatoryHeaders →
        mandatoryHeaders.via.branch = none →
          TransportLayer.processMessage [⟨.tsx {}, fun _ => false⟩] (.fromLocalhost data) ≠
            .panicked) ∧
    ¬ (∀ data m mandatoryHeaders, SipParser.parse data = .ok m →
      MandatoryHeaders.tryFrom m.headers = .ok mandatoryHeaders →
        mandatoryHeaders.via.branch = some "1" →
          TransportLayer.processMessage [⟨.tsx {}, fun _ => false⟩] (.fromLocalhost data) ≠
            .panicked) := by
  refine ⟨fun h => ?_, fun h => ?_⟩
  · have hnone := h (optionsOk "") (.response
      { statusLine := ⟨.ok, "OK"⟩, headers := (optionsOkHeaders none).intoHeaders })
      (optionsOkHeaders none) (by decide +kernel) (by decide +kernel) rfl
    exact hnone (by decide +kernel)
  · have hold := h (optionsOk ";branch=1") (.response
      { statusLine := ⟨.ok, "OK"⟩, headers := (optionsOkHeaders (some "1")).intoHeaders })
      (optionsOkHeaders (some "1")) (by decide +kernel) (by decide +kernel) rfl
    exact hold (by decide +kernel)

end Rssip
