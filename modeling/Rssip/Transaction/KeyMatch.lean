import Rssip.Endpoint.CreateResponse
import Rssip.Transaction.Layer

namespace Rssip

open Lib

/-!
# Matching requests

By RFC 3261 two requests belong to one server transaction when their topmost `Via` headers have
one branch and one sent-by value, and their methods match.  The key of a request has the branch,
but no sent-by value, and its method is that of `CSeq`.

* `IncomingRequest.Matches` — the rule;
* `fromRequest_eq_iff` — when two requests have one key;
* `TransactionLayer.DeliveredTo` — a request is looked up to the transaction of another one;
* `TransactionKey.distinguishes_iff` — when the keys of two requests follow the rule.
-/

namespace IncomingRequest

/-- The sent-by value of the topmost `Via`. -/
def sentBy (r : IncomingRequest) : HostPort := r.incomingInfo.mandatoryHeaders.via.sentBy

/-- The method in `CSeq`, which need not be that of the request. -/
def cseqMethod (r : IncomingRequest) : SipMethod := r.incomingInfo.mandatoryHeaders.cseq.method

/-- The requests belong to one transaction. -/
def Matches (r r' : IncomingRequest) : Prop :=
  r.branch = r'.branch ∧ r.sentBy = r'.sentBy ∧
    r.method.SameTransaction r'.method

end IncomingRequest

namespace TransactionKey

/-- **When two requests have one key.** -/
theorem fromRequest_eq_iff {r r' : IncomingRequest}
    (h : r.incomingInfo.mandatoryHeaders.HasMagicCookie)
    (h' : r'.incomingInfo.mandatoryHeaders.HasMagicCookie) :
    fromRequest r = fromRequest r' ↔
      r.branch = r'.branch ∧ r.cseqMethod.SameTransaction r'.cseqMethod := by
  obtain ⟨branch, hbranch, hpre⟩ := h
  obtain ⟨branch', hbranch', hpre'⟩ := h'
  have hkey : fromRequest r = some (newKey3261 .uas r.cseqMethod branch) :=
    fromIncomingInfo_eq_some_iff.mpr ⟨branch, hbranch, hpre, rfl⟩
  have hkey' : fromRequest r' = some (newKey3261 .uas r'.cseqMethod branch') :=
    fromIncomingInfo_eq_some_iff.mpr ⟨branch', hbranch', hpre', rfl⟩
  rw [hkey, hkey', Option.some.injEq, newKey3261_inj, and_iff_right rfl, IncomingRequest.branch,
    IncomingRequest.branch, hbranch, hbranch', Option.some.injEq]

end TransactionKey

namespace TransactionLayer

/-- After `before` a transaction is made for `r`, and after `between` the request `r'` is looked
    up to its channel. -/
def DeliveredTo (r r' : IncomingRequest) (before between : List LayerEvent) : Prop :=
  let w := run {} before
  let w' := run (w.step (.fromRequest r)) between
  ServerTransaction.fromRequest r 0 ≠ none ∧
    (w'.incoming (.request r')).deliveries =
      w'.deliveries ++ [⟨w.channels.length, .request r'⟩]

/-- The channel `id` was made for `key`, and is no other transaction's. -/
structure MadeFor (id : ChannelId) (key : TransactionKey) (w : TransactionLayer) : Prop where
  table : w.TableOk
  bound : id < w.channels.length
  key : ∀ t ∈ w.live, t.1 = id → t.2 = key

theorem MadeFor.register {id : ChannelId} {key : TransactionKey} {w : TransactionLayer}
    (h : MadeFor id key w) (key' : TransactionKey) : MadeFor id key (w.register key') where
  table := h.table.register key'
  bound := by
    show id < (w.channels ++ [({} : Channel)]).length
    rw [List.length_append]
    exact Nat.lt_add_right _ h.bound
  key := by
    intro t ht hid
    rcases List.mem_append.mp ht with hold | hnew
    · exact h.key t hold hid
    · -- a new transaction gets a new channel
      rw [List.mem_singleton.mp hnew] at hid
      exact absurd h.bound (hid ▸ lt_irrefl _)

/-- **A channel stays that of its key**, whatever comes and goes. -/
theorem MadeFor.step {id : ChannelId} {key : TransactionKey} {w : TransactionLayer}
    (h : MadeFor id key w) (e : LayerEvent) : MadeFor id key (w.step e) := by
  have hok := h.table.step e
  have hsame : ∀ w' : TransactionLayer, w'.TableOk → w'.live = w.live →
      w'.channels.length = w.channels.length → MadeFor id key w' := by
    intro w' hok' hlive hlength
    exact ⟨hok', hlength ▸ h.bound, hlive ▸ h.key⟩
  cases e with
  | fromRequest request =>
    simp only [TransactionLayer.step]
    split
    · exact h.register _
    · exact h
  | send generated outgoing =>
    simp only [TransactionLayer.step]
    split
    · exact h.register _
    · exact h
  | drop id' =>
    -- entries go, but no channel does
    rcases drop_cases id' w with ⟨t, -, -, hdrop⟩ | ⟨-, hdrop⟩
    · refine ⟨hok, ?_, ?_⟩
      · simp only [TransactionLayer.step, hdrop]
        exact h.bound
      · simp only [TransactionLayer.step, hdrop]
        exact fun t' ht' => h.key t' (mem_filter_ne.mp ht').1
    · simp only [TransactionLayer.step, hdrop]
      exact h
  | dropReceiver id' => exact hsame _ hok rfl (List.length_modify _ _ _)
  | recv id' => exact hsame _ hok rfl (List.length_modify _ _ _)
  | incoming msg =>
    obtain ⟨-, hlive, hchannels⟩ := incoming_frame msg w
    exact hsame _ hok hlive (congrArg List.length hchannels)
  | poll i =>
    obtain ⟨-, hlive, hlength⟩ := poll_frame i w
    exact hsame _ hok hlive hlength

theorem MadeFor.start {w : TransactionLayer} (h : w.TableOk) {r : IncomingRequest}
    {key : TransactionKey} (hmade : ServerTransaction.fromRequest r 0 ≠ none)
    (hkey : TransactionKey.fromRequest r = some key) :
    MadeFor w.channels.length key (w.step (.fromRequest r)) := by
  unfold ServerTransaction.fromRequest at hmade
  have hmethod : r.method ≠ .ack := fun hack => hmade (if_pos hack)
  have hstep : w.step (.fromRequest r) = w.register key := by
    simp only [TransactionLayer.step, ServerTransaction.fromRequest, if_neg hmethod, hkey,
      Option.map_some, ServerTransaction.new]
  rw [hstep]
  refine ⟨h.register key, ?_, ?_⟩
  · show w.channels.length < (w.channels ++ [({} : Channel)]).length
    rw [List.length_append]
    exact Nat.lt_succ_self _
  · intro t ht hid
    rcases List.mem_append.mp ht with hold | hnew
    · exact absurd (h.bound t hold) (hid ▸ lt_irrefl _)
    · rw [List.mem_singleton.mp hnew]

/-- **A request is looked up to transactions of its key only.** -/
theorem DeliveredTo.key_eq {r r' : IncomingRequest} {before between : List LayerEvent}
    (h : DeliveredTo r r' before between) :
    TransactionKey.fromRequest r = TransactionKey.fromRequest r' := by
  obtain ⟨hmade, hdelivered⟩ := h
  have htable : ∀ (w : TransactionLayer) e, w.TableOk → (w.step e).TableOk :=
    fun _ e hw => hw.step e
  have hok : (run {} before).TableOk := exec_invariant htable tableOk_start before
  cases hkey : TransactionKey.fromRequest r with
  | none =>
    refine absurd ?_ hmade
    rw [ServerTransaction.fromRequest, hkey, Option.map_none, ite_self]
  | some key =>
    have hstep : ∀ w e, MadeFor (run {} before).channels.length key w →
        MadeFor (run {} before).channels.length key (w.step e) := fun _ e hw => hw.step e
    have hfor := exec_invariant hstep (MadeFor.start hok hmade hkey) between
    rcases incoming_cases (.request r') (run ((run {} before).step (.fromRequest r)) between)
      with ⟨key', id, hkey', hentry, hincoming⟩ | ⟨-, hincoming⟩
    · rw [hincoming] at hdelivered
      -- the entry that was found has the channel that was made for `r`
      have hlast := List.append_cancel_left hdelivered
      obtain ⟨rfl, -⟩ := Delivery.mk.inj (List.cons.inj hlast).1
      have hlive := hfor.table.entry key' _ hentry
      rw [← hfor.key _ hlive rfl]
      exact hkey'.symm
    · rw [hincoming] at hdelivered
      exact absurd (List.self_eq_append_right.mp hdelivered) (List.cons_ne_nil _ _)

end TransactionLayer

namespace TransactionKey

/-- The key of the requests follows the rule: it is one key exactly when they match, and a
    request never gets to a transaction of a request that it does not match. -/
def Distinguishes (r r' : IncomingRequest) : Prop :=
  (fromRequest r = fromRequest r' ↔ r.Matches r') ∧
    ∀ before between, TransactionLayer.DeliveredTo r r' before between → r.Matches r'

/-- What is looked up by the key alone goes where the key says. -/
theorem distinguishes_iff_keys {r r' : IncomingRequest} :
    Distinguishes r r' ↔ (fromRequest r = fromRequest r' ↔ r.Matches r') :=
  and_iff_left_of_imp fun hiff _ _ hdelivered => hiff.mp hdelivered.key_eq

/-- **When the keys of two requests follow the rule.** They do exactly when the branches differ,
    or else the methods in `CSeq` match just when the sent-by values are equal and the methods
    of the requests match. -/
theorem distinguishes_iff {r r' : IncomingRequest}
    (h : r.incomingInfo.mandatoryHeaders.HasMagicCookie)
    (h' : r'.incomingInfo.mandatoryHeaders.HasMagicCookie) :
    Distinguishes r r' ↔
      (r.branch = r'.branch →
        (r.cseqMethod.SameTransaction r'.cseqMethod ↔
          r.sentBy = r'.sentBy ∧ r.method.SameTransaction r'.method)) := by
  rw [distinguishes_iff_keys, fromRequest_eq_iff h h', IncomingRequest.Matches]
  exact and_congr_right_iff

theorem hasMagicCookie_localhost (method : SipMethod) (toTag : Option String)
    (isReliable : Bool) :
    (IncomingInfo.localhost method toTag isReliable).mandatoryHeaders.HasMagicCookie :=
  ⟨"z9hG4bK1", rfl, by decide⟩

/-- An `INVITE` and its `ACK` follow the rule. -/
theorem distinguishes_iff_localhost :
    Distinguishes (.fromLocalhost .invite none false) (.fromLocalhost .ack none false) :=
  (distinguishes_iff (hasMagicCookie_localhost _ _ _) (hasMagicCookie_localhost _ _ _)).mpr
    fun _ => iff_of_true (.inr ⟨.inl rfl, .inr rfl⟩) ⟨rfl, .inr ⟨.inl rfl, .inr rfl⟩⟩

/-- An `OPTIONS` request of another client, with the branch of the one from `localhost`. -/
def otherOptions : IncomingRequest :=
  let r := IncomingRequest.fromLocalhost .options none false
  let headers := r.incomingInfo.mandatoryHeaders
  { r with
    incomingInfo :=
      { r.incomingInfo with
        mandatoryHeaders :=
          { headers with via := { headers.via with sentBy := ⟨.hostName "other", none⟩ } } } }

/-- The request of the other client gets to the transaction of the one from `localhost`. -/
theorem not_distinguishes_otherOptions :
    ¬ Distinguishes (.fromLocalhost .options none false) otherOptions := by
  rintro ⟨-, hforeign⟩
  -- the transaction is made, and the second request comes
  have hmatches := hforeign [] [] ⟨by decide, by rfl⟩
  exact absurd hmatches.2.1 (by decide)

end TransactionKey

end Rssip
