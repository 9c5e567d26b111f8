import Rssip.Transaction.Layer
import Rssip.Transaction.ServerFinal

namespace Rssip

open Lib

/-!
# A server transaction in the table

A server transaction is registered when it is made, and its entry goes when it is dropped,
whoever holds it then.

* `RegisteredServer.step` — a step of the transaction, or of the other ones in the table;
* `RegisteredServer.Ok` — the transaction is registered until it is dropped;
* `RegisteredServer.AwaitsAck` — an `ACK` finds the transaction in `Completed`;
* `not_awaitsAck_of_reliable` — over a reliable transport none does.
-/

/-- A server transaction and the table that it is registered in. -/
structure RegisteredServer where
  server : ServerTransaction
  plugin : TsxPlugin

/-- The steps of a server transaction, and those of others on the table. -/
inductive TableEvent where
  | server (e : ServerEvent)
  | addTransaction (key : TransactionKey) (entry : ChannelId)
  | removeTransaction (key : TransactionKey)

namespace RegisteredServer

/-- `from_request` with its registration. -/
def fromRequest (request : IncomingRequest) (now : Nat) (entry : ChannelId) (plugin : TsxPlugin) :
    Option RegisteredServer :=
  (ServerTransaction.fromRequest request now).map fun server =>
    ⟨server, plugin.addTransaction server.transactionKey entry⟩

/-- The key of the transaction. -/
def key (w : RegisteredServer) : TransactionKey := w.server.transactionKey

/-- Something is entered under the key of the transaction. -/
def isRegistered (w : RegisteredServer) : Bool := (w.plugin.getEntry w.key).isSome

/-- One step.  The other transactions have other keys. -/
def step (w : RegisteredServer) : TableEvent → RegisteredServer
  | .server e =>
    let server := w.server.step e
    if w.server.activity ≠ .dropped ∧ server.activity = .dropped then
      -- the `drop` of the transaction
      { server := server, plugin := w.plugin.removeTransaction w.key }
    else { w with server := server }
  | .addTransaction key entry =>
    if key = w.key then w else { w with plugin := w.plugin.addTransaction key entry }
  | .removeTransaction key =>
    if key = w.key then w else { w with plugin := w.plugin.removeTransaction key }

/-- The transaction and the table after a run. -/
def run (w : RegisteredServer) (es : List TableEvent) : RegisteredServer := exec step w es

variable {w : RegisteredServer}

/-! ### The transaction in the table -/

theorem server_step_server (w : RegisteredServer) (e : ServerEvent) :
    (w.step (.server e)).server = w.server.step e := by
  simp only [step]
  split
  all_goals rfl

/-- The transaction makes the steps of its own, and no others. -/
theorem server_step_cases (w : RegisteredServer) (e : TableEvent) :
    (∃ e', e = .server e' ∧ (w.step e).server = w.server.step e') ∨
      (w.step e).server = w.server := by
  cases e with
  | server e => exact .inl ⟨e, rfl, server_step_server w e⟩
  | addTransaction key entry =>
    simp only [step]
    split
    all_goals exact .inr rfl
  | removeTransaction key =>
    simp only [step]
    split
    all_goals exact .inr rfl

theorem step_elapse (w : RegisteredServer) (ms : Nat) :
    w.step (.server (.elapse ms)) = { w with server := w.server.step (.elapse ms) } :=
  if_neg fun h => h.1 h.2

/-- **What the transaction keeps by itself it keeps in the table.** -/
theorem invariant_step {inv : ServerTransaction → Prop} (hinv : ∀ s e, inv s → inv (s.step e))
    (h : inv w.server) (e : TableEvent) : inv (w.step e).server := by
  rcases server_step_cases w e with ⟨e', -, heq⟩ | heq
  · rw [heq]
    exact hinv _ _ h
  · rw [heq]
    exact h

theorem invariant_run {inv : ServerTransaction → Prop} (hinv : ∀ s e, inv s → inv (s.step e))
    (h : inv w.server) (es : List TableEvent) : inv (w.run es).server := by
  have hstep : ∀ (w' : RegisteredServer) e, inv w'.server → inv (w'.step e).server :=
    fun _ e hw' => invariant_step hinv hw' e
  exact exec_invariant hstep h es

theorem key_step (w : RegisteredServer) (e : TableEvent) : (w.step e).key = w.key := by
  unfold key
  rcases server_step_cases w e with ⟨e', -, heq⟩ | heq
  · rw [heq, ServerTransaction.transactionKey_step]
  · rw [heq]

/-- A transaction is registered until it is dropped. -/
def Ok (w : RegisteredServer) : Prop :=
  w.isRegistered = true ↔ w.server.activity ≠ .dropped

theorem Ok.step (h : w.Ok) (e : TableEvent) : (w.step e).Ok := by
  have hkey := key_step w e
  unfold Ok isRegistered at h ⊢
  rw [hkey]
  cases e with
  | server e =>
    simp only [RegisteredServer.step]
    -- the entry goes in the step that drops the transaction
    split
    · next hgone =>
      simp only [TsxPlugin.getEntry_removeTransaction_self, hgone.2]
      decide
    · next hnot =>
      rw [h, not_iff_not]
      constructor
      · exact fun hdropped => ServerTransaction.dropped_step hdropped e
      · exact fun hdropped => not_not.mp fun hlive => hnot ⟨hlive, hdropped⟩
  | addTransaction key entry =>
    simp only [RegisteredServer.step]
    split
    · exact h
    · next hne =>
      simp only []
      rw [TsxPlugin.getEntry_addTransaction_of_ne (Ne.symm hne)]
      exact h
  | removeTransaction key =>
    simp only [RegisteredServer.step]
    split
    · exact h
    · next hne =>
      simp only []
      rw [TsxPlugin.getEntry_removeTransaction_of_ne (Ne.symm hne)]
      exact h

theorem ok_fromRequest {request : IncomingRequest} {now : Nat} {entry : ChannelId}
    {plugin : TsxPlugin} (h : fromRequest request now entry plugin = some w) : w.Ok := by
  obtain ⟨server, hserver, rfl⟩ := Option.map_eq_some_iff.mp h
  have hidle : server.activity = .idle := by
    unfold ServerTransaction.fromRequest at hserver
    split at hserver
    · cases hserver
    · obtain ⟨key, -, rfl⟩ := Option.map_eq_some_iff.mp hserver
      rfl
  unfold Ok isRegistered key
  rw [TsxPlugin.getEntry_addTransaction_self, hidle]
  exact iff_of_true rfl nofun

theorem ok_run (h : w.Ok) (es : List TableEvent) : (w.run es).Ok := by
  have hstep : ∀ (w' : RegisteredServer) e, w'.Ok → (w'.step e).Ok := fun _ e hw' => hw'.step e
  exact exec_invariant hstep h es

/-- What holds of the transaction in every run. -/
theorem run_server {request : IncomingRequest} {now : Nat} {entry : ChannelId}
    {plugin : TsxPlugin} (h : fromRequest request now entry plugin = some w)
    (es : List TableEvent) :
    (w.run es).server.HandOverOk ∧ (w.run es).server.StatesOk ∧
      (w.run es).server.request = request := by
  obtain ⟨server, hserver, rfl⟩ := Option.map_eq_some_iff.mp h
  have hkeeps : ∀ (s : ServerTransaction) e,
      s.HandOverOk ∧ s.StatesOk ∧ s.request = request →
      (s.step e).HandOverOk ∧ (s.step e).StatesOk ∧ (s.step e).request = request := by
    rintro s e ⟨hhandOver, hstates, hrequest⟩
    have hstep := hstates.step e
    exact ⟨hhandOver.step e, hstep.states, hstep.request.trans hrequest⟩
  refine invariant_run hkeeps ?_ es
  exact ⟨ServerTransaction.handOverOk_fromRequest hserver,
    ServerTransaction.statesOk_fromRequest hserver, ServerTransaction.request_fromRequest hserver⟩

/-- The transport of the transaction is that of its request. -/
theorem run_isReliable {request : IncomingRequest} {now : Nat} {entry : ChannelId}
    {plugin : TsxPlugin} (h : fromRequest request now entry plugin = some w)
    (es : List TableEvent) : (w.run es).server.isReliable = w.server.isReliable := by
  obtain ⟨-, -, hrequest⟩ := run_server h es
  obtain ⟨-, -, hrequest₀⟩ := run_server h []
  exact ServerTransaction.isReliable_eq (hrequest.trans hrequest₀.symm)

/-! ### Reliable transports -/

/-- For `T1 * 64` the transaction is found in `Completed` as long as no `ACK` is delivered, and an
    `ACK` that is delivered confirms and ends it. -/
def AwaitsAck (w : RegisteredServer) : Prop :=
  ∀ es, (∀ msg, .server (.deliver msg) ∈ es → msg.isAck = false) →
    (w.run es).server.now < w.server.now + T1 * 64 →
    (w.run es).server.state = .completed ∧ (w.run es).isRegistered = true ∧
      ∀ ack, ack.isAck = true → ∃ n,
        (w.run (es ++ .server (.deliver ack) :: List.replicate n (.server .poll))
          ).server.stateMachine.history =
            (w.run es).server.stateMachine.history ++ [.confirmed, .terminated]

theorem finishFinal_of_reliable {s : ServerTransaction} (hreliable : s.isReliable = true)
    {response : OutgoingResponse} (hcode : 300 ≤ response.code.asU16) :
    s.finishFinal response =
      (((s.setState .completed).setState .terminated).ret (.ok ())).become .dropped := by
  have hreliable' : (s.setState .completed).isReliable = true := hreliable
  unfold ServerTransaction.finishFinal
  split
  · next hsuccess =>
    simp only [Bool.and_eq_true, decide_eq_true_eq] at hsuccess
    omega
  · simp only []
    rw [if_pos hreliable']

/-- A final response over a reliable transport ends the transaction at once. -/
theorem sent_of_reliable {s : ServerTransaction} {response : OutgoingResponse}
    (hsending : s.activity = .sendingFinal response) (hreliable : s.isReliable = true)
    (hcode : 300 ≤ response.code.asU16) (target : TargetTransportInfo) :
    (s.sent (.ok target)).activity = .dropped ∧
      (s.sent (.ok target)).stateMachine.history =
        s.stateMachine.history ++ [.completed, .terminated] := by
  obtain ⟨targetInfo, hsent⟩ := ServerTransaction.sent_sendingFinal hsending target
  have hreliable' : { s with targetInfo := targetInfo }.isReliable = true := hreliable
  have hcode' : 300 ≤ (response.after (.ok target)).code.asU16 := hcode
  rw [hsent, finishFinal_of_reliable hreliable' hcode']
  refine ⟨rfl, ?_⟩
  show s.stateMachine.history ++ [.completed] ++ [.terminated] = _
  rw [List.append_assoc]
  rfl

/-- **No `ACK` is awaited over a reliable transport.** With the transmission of a final response
    other than a 2xx a transaction goes through `Completed` to `Terminated`, and out of the
    table. -/
theorem not_awaitsAck_of_reliable {request : IncomingRequest} {now : Nat} {entry : ChannelId}
    {plugin : TsxPlugin} (h : fromRequest request now entry plugin = some w)
    (hreliable : w.server.isReliable = true) (es : List TableEvent) {response : OutgoingResponse}
    (hsending : (w.run es).server.activity = .sendingFinal response)
    (hcode : 300 ≤ response.code.asU16) (target : TargetTransportInfo) :
    let after := (w.run es).step (.server (.sent (.ok target)))
    after.server.stateMachine.history =
        (w.run es).server.stateMachine.history ++ [.completed, .terminated] ∧
      after.isRegistered = false ∧ ¬ after.AwaitsAck := by
  intro after
  have hreliable' : (w.run es).server.isReliable = true := (run_isReliable h es).trans hreliable
  have hok := ok_run (ok_fromRequest h) es
  have hafter : after.server = (w.run es).server.sent (.ok target) := server_step_server _ _
  obtain ⟨hdropped, hhistory⟩ := sent_of_reliable hsending hreliable' hcode target
  rw [← hafter] at hdropped hhistory
  have hregistered : after.isRegistered = true ↔ after.server.activity ≠ .dropped := hok.step _
  have hgone : after.isRegistered = false := by
    rw [← Bool.not_eq_true, hregistered, not_not]
    exact hdropped
  refine ⟨hhistory, hgone, fun hawaits => ?_⟩
  -- already now the transaction cannot be found
  have hthere : after.isRegistered = true :=
    (hawaits [] (fun _ hmem => nomatch hmem) (Nat.lt_add_of_pos_right (by decide))).2.1
  rw [hgone] at hthere
  cases hthere

/-- A busy `INVITE` over a reliable transport. -/
def busy : RegisteredServer :=
  { server := .new (.newKey3261 .uas .invite "z9hG4bK1") (.fromLocalhost .invite none true) 0
    plugin := ({} : TsxPlugin).addTransaction (.newKey3261 .uas .invite "z9hG4bK1") 0 }

/-- It is out of the table with its response. -/
theorem not_awaitsAck_of_reliable_busy :
    ((busy.run [.server (.sendFinalResponse (.ofCode .busyHere))]).step
      (.server (.sent (.ok ⟨.localhost, .localhost true⟩)))).isRegistered = false :=
  have hrequest : fromRequest (.fromLocalhost .invite none true) 0 0 {} = some busy := rfl
  (not_awaitsAck_of_reliable hrequest rfl
    [.server (.sendFinalResponse (.ofCode .busyHere))] rfl (by decide) _).2.1

/-- An `ACK` would not find the transaction in `Completed`: over a reliable transport it is
    terminated with the response. -/
theorem not_awaitsAck_busy :
    ¬ ((busy.run [.server (.sendFinalResponse (.ofCode .busyHere))]).step
      (.server (.sent (.ok ⟨.localhost, .localhost true⟩)))).AwaitsAck := by
  intro h
  obtain ⟨hstate, -⟩ := h [] (fun _ hmem => nomatch hmem) (by decide)
  revert hstate
  decide

end RegisteredServer

end Rssip
