import Rssip.Transaction.Client
import Rssip.Transaction.Server

namespace Rssip

open Lib

/-!
# The transaction layer

The table of transactions and the delivery of messages into their channels.  Transactions are
made and dropped in any order, and a message that was looked up is delivered later, when its
channel has room.

* `TsxPlugin` — the table;
* `TransactionLayer.step` — one step of the transactions and deliveries of an endpoint;
* `run_registered_iff` — when every live transaction stays registered;
* `run_quiet_iff` — when no delivery of a request can panic.
-/

/-- A channel, by its number. -/
abbrev ChannelId := Nat

/-- The plugin that keeps the table of transactions. -/
structure TsxPlugin where
  transactions : TransactionKey → Option ChannelId := fun _ => none

namespace TsxPlugin

/-- A transaction is entered; one that had its key before is lost. -/
def addTransaction (key : TransactionKey) (entry : ChannelId) (p : TsxPlugin) : TsxPlugin :=
  ⟨Function.update p.transactions key (some entry)⟩

/-- What is entered under the key is taken out, whichever transaction it is. -/
def removeTransaction (key : TransactionKey) (p : TsxPlugin) : TsxPlugin :=
  ⟨Function.update p.transactions key none⟩

/-- The channel of the transaction that has the key. -/
def getEntry (key : TransactionKey) (p : TsxPlugin) : Option ChannelId := p.transactions key

/-- The transaction that was entered last is found by its key. -/
@[simp] theorem getEntry_addTransaction_self (key : TransactionKey) (entry : ChannelId)
    (p : TsxPlugin) : (p.addTransaction key entry).getEntry key = some entry :=
  Function.update_self _ _ _

/-- To enter a transaction does not change what is found by other keys. -/
theorem getEntry_addTransaction_of_ne {key key' : TransactionKey} (h : key' ≠ key)
    (entry : ChannelId) (p : TsxPlugin) :
    (p.addTransaction key entry).getEntry key' = p.getEntry key' :=
  Function.update_of_ne h _ _

/-- Nothing is found by a key that was taken out. -/
@[simp] theorem getEntry_removeTransaction_self (key : TransactionKey) (p : TsxPlugin) :
    (p.removeTransaction key).getEntry key = none :=
  Function.update_self _ _ _

/-- To take out a key does not change what is found by other keys. -/
theorem getEntry_removeTransaction_of_ne {key key' : TransactionKey} (h : key' ≠ key)
    (p : TsxPlugin) : (p.removeTransaction key).getEntry key' = p.getEntry key' :=
  Function.update_of_ne h _ _

end TsxPlugin

/-- The capacity of the channel of a transaction. -/
def channelCapacity : Nat := 10

/-- A channel: the messages in it, and whether its receiver still exists. -/
structure Channel where
  queue : List IncomingMessage := []
  hasReceiver : Bool := true

/-- A message between its lookup and the end of its `send`. -/
structure Delivery where
  channel : ChannelId
  msg : IncomingMessage

/-- The table, the transactions that are not dropped, all channels, the deliveries that are not
    done and whether one has unwrapped an error. -/
structure TransactionLayer where
  plugin : TsxPlugin := {}
  live : List (ChannelId × TransactionKey) := []
  channels : List Channel := []
  deliveries : List Delivery := []
  panicked : Bool := false

/-- The steps of a run.  `incoming` looks a message up, `poll` polls the `send` of the delivery
    at the given place. -/
inductive LayerEvent where
  | fromRequest (request : IncomingRequest)
  | send (generated : String) (outgoing : OutgoingRequest)
  | drop (id : ChannelId)
  | dropReceiver (id : ChannelId)
  | recv (id : ChannelId)
  | incoming (msg : IncomingMessage)
  | poll (i : Nat)

/-- The message is a request. -/
def IncomingMessage.isRequest : IncomingMessage → Bool
  | .request _ => true
  | .response _ => false

/-- The key that a received message is looked up by. -/
def IncomingMessage.key : IncomingMessage → Option TransactionKey
  | .request r => TransactionKey.fromRequest r
  | .response r => TransactionKey.fromResponse r

namespace TransactionLayer

/-- A new transaction adds its channel to the table, in the place of another one if need be. -/
def register (key : TransactionKey) (w : TransactionLayer) : TransactionLayer :=
  { w with
    plugin := w.plugin.addTransaction key w.channels.length
    live := w.live ++ [(w.channels.length, key)]
    channels := w.channels ++ [{}] }

/-- `Drop` of a transaction. -/
def drop (id : ChannelId) (w : TransactionLayer) : TransactionLayer :=
  match w.live.find? fun t => t.1 = id with
  | some t =>
    { w with
      plugin := w.plugin.removeTransaction t.2
      live := w.live.filter fun t => t.1 ≠ id }
  | none => w

/-- The receiver of a channel goes away, before the transaction is dropped or after. -/
def dropReceiver (id : ChannelId) (w : TransactionLayer) : TransactionLayer :=
  { w with channels := w.channels.modify id fun c => { c with hasReceiver := false } }

/-- A message is taken out of a channel. -/
def recv (id : ChannelId) (w : TransactionLayer) : TransactionLayer :=
  { w with channels := w.channels.modify id fun c => { c with queue := c.queue.tail } }

/-- The first half of `on_incoming_request` and `on_incoming_response`.  A message without a key
    gets no further. -/
def incoming (msg : IncomingMessage) (w : TransactionLayer) : TransactionLayer :=
  match msg.key with
  | some key =>
    match w.plugin.getEntry key with
    | some channel => { w with deliveries := w.deliveries ++ [⟨channel, msg⟩] }
    | none => w
  | none => w

/-- A poll of the second half: the `send` fails without a receiver, waits for room, or is done.
    The error is unwrapped for a request, and ignored for a response. -/
def poll (i : Nat) (w : TransactionLayer) : TransactionLayer :=
  match w.deliveries[i]? with
  | none => w
  | some d =>
    match w.channels[d.channel]? with
    | none => w
    | some c =>
      if c.hasReceiver then
        if c.queue.length < channelCapacity then
          { w with
            channels := w.channels.set d.channel { c with queue := c.queue ++ [d.msg] }
            deliveries := w.deliveries.eraseIdx i }
        else w
      else
        { w with
          deliveries := w.deliveries.eraseIdx i
          panicked := w.panicked || d.msg.isRequest }

/-- A transaction is made, a message arrives or is read, or a transaction is dropped. -/
def step (w : TransactionLayer) : LayerEvent → TransactionLayer
  | .fromRequest request =>
    match ServerTransaction.fromRequest request 0 with
    | some s => w.register s.transactionKey
    | none => w
  | .send generated outgoing =>
    match ClientTransaction.send generated outgoing 0 with
    | some c => w.register c.key
    | none => w
  | .drop id => w.drop id
  | .dropReceiver id => w.dropReceiver id
  | .recv id => w.recv id
  | .incoming msg => w.incoming msg
  | .poll i => w.poll i

/-- The layer after a run. -/
def run (w : TransactionLayer) (es : List LayerEvent) : TransactionLayer := exec step w es

/-! ### The table -/

/-- The table has only channels of live transactions, each under the key of its transaction. -/
structure TableOk (w : TransactionLayer) : Prop where
  entry : ∀ key id, w.plugin.getEntry key = some id → (id, key) ∈ w.live
  unique : ∀ t ∈ w.live, ∀ t' ∈ w.live, t.1 = t'.1 → t = t'
  bound : ∀ t ∈ w.live, t.1 < w.channels.length

/-- The table of a new layer is empty. -/
theorem tableOk_start : ({} : TransactionLayer).TableOk where
  entry _ _ h := nomatch h
  unique _ h := nomatch h
  bound _ h := nomatch h

/-- A new transaction is live under its key, in the table and in the list. -/
theorem TableOk.register {w : TransactionLayer} (h : w.TableOk) (key : TransactionKey) :
    (w.register key).TableOk where
  entry := by
    intro key' id hentry
    have hentry : (w.plugin.addTransaction key w.channels.length).getEntry key' = some id := hentry
    show (id, key') ∈ w.live ++ [(w.channels.length, key)]
    -- the new entry takes the place of an old one with its key
    by_cases hkey : key' = key
    · subst hkey
      rw [TsxPlugin.getEntry_addTransaction_self, Option.some.injEq] at hentry
      rw [hentry]
      exact List.mem_append_right _ (List.mem_singleton_self _)
    · rw [TsxPlugin.getEntry_addTransaction_of_ne hkey] at hentry
      exact List.mem_append_left _ (h.entry key' id hentry)
  unique := by
    intro t ht t' ht' heq
    rcases List.mem_append.mp ht with hold | hnew <;> rcases List.mem_append.mp ht' with hold' | hnew'
    · exact h.unique t hold t' hold' heq
    · -- the number of the new channel is new
      have hlt := h.bound t hold
      rw [heq, List.mem_singleton.mp hnew'] at hlt
      exact absurd hlt (lt_irrefl _)
    · have hlt := h.bound t' hold'
      rw [← heq, List.mem_singleton.mp hnew] at hlt
      exact absurd hlt (lt_irrefl _)
    · rw [List.mem_singleton.mp hnew, List.mem_singleton.mp hnew']
  bound := by
    intro t ht
    show t.1 < (w.channels ++ [({} : Channel)]).length
    rw [List.length_append]
    rcases List.mem_append.mp ht with hold | hnew
    · exact Nat.lt_add_right _ (h.bound t hold)
    · rw [List.mem_singleton.mp hnew]
      exact Nat.lt_succ_self _

/-- What `Drop` of a transaction does. -/
theorem drop_cases (id : ChannelId) (w : TransactionLayer) :
    (∃ t ∈ w.live, t.1 = id ∧ w.drop id =
        { w with
          plugin := w.plugin.removeTransaction t.2
          live := w.live.filter fun t => t.1 ≠ id }) ∨
      (∀ t ∈ w.live, t.1 ≠ id) ∧ w.drop id = w := by
  unfold drop
  cases hfind : w.live.find? fun t => t.1 = id with
  | some t =>
    have hid := List.find?_some hfind
    simp only [decide_eq_true_eq] at hid
    exact .inl ⟨t, List.mem_of_find?_eq_some hfind, hid, rfl⟩
  | none =>
    refine .inr ⟨fun t ht hid => ?_, rfl⟩
    have hnot := List.find?_eq_none.mp hfind t ht
    exact hnot (decide_eq_true hid)

/-- The live transactions without one of them. -/
theorem mem_filter_ne {w : TransactionLayer} {id : ChannelId} {t : ChannelId × TransactionKey} :
    t ∈ w.live.filter (fun t => t.1 ≠ id) ↔ t ∈ w.live ∧ t.1 ≠ id := by
  rw [List.mem_filter, decide_eq_true_eq]

/-- To drop a transaction takes its key out, so no entry of a dropped one remains. -/
theorem TableOk.drop {w : TransactionLayer} (h : w.TableOk) (id : ChannelId) :
    (w.drop id).TableOk := by
  rcases drop_cases id w with ⟨t, ht, rfl, hdrop⟩ | ⟨-, hdrop⟩
  · rw [hdrop]
    refine ⟨fun key id' hentry => ?_, fun t₁ ht₁ t₂ ht₂ => ?_, fun t₁ ht₁ => ?_⟩
    · have hentry : (w.plugin.removeTransaction t.2).getEntry key = some id' := hentry
      have hkey : key ≠ t.2 := by
        rintro rfl
        rw [TsxPlugin.getEntry_removeTransaction_self] at hentry
        cases hentry
      rw [TsxPlugin.getEntry_removeTransaction_of_ne hkey] at hentry
      have hmem := h.entry key id' hentry
      refine mem_filter_ne.mpr ⟨hmem, fun hid => hkey ?_⟩
      exact congrArg Prod.snd (h.unique _ hmem t ht hid)
    · exact h.unique t₁ (mem_filter_ne.mp ht₁).1 t₂ (mem_filter_ne.mp ht₂).1
    · exact h.bound t₁ (mem_filter_ne.mp ht₁).1
  · rw [hdrop]
    exact h

/-- Only `register` and `drop` touch the table. -/
theorem TableOk.of_same {w w' : TransactionLayer} (h : w.TableOk) (hplugin : w'.plugin = w.plugin)
    (hlive : w'.live = w.live) (hlength : w'.channels.length = w.channels.length) :
    w'.TableOk := by
  obtain ⟨hentry, hunique, hbound⟩ := h
  constructor
  · rw [hplugin, hlive]
    exact hentry
  · rw [hlive]
    exact hunique
  · rw [hlive, hlength]
    exact hbound

/-- A poll of a delivery touches neither the table nor the live transactions. -/
theorem poll_frame (i : Nat) (w : TransactionLayer) :
    (w.poll i).plugin = w.plugin ∧ (w.poll i).live = w.live ∧
      (w.poll i).channels.length = w.channels.length := by
  unfold poll
  repeat' split
  all_goals first
    | exact ⟨rfl, rfl, rfl⟩
    | exact ⟨rfl, rfl, List.length_set⟩

/-- To look a message up touches neither the table nor the channels. -/
theorem incoming_frame (msg : IncomingMessage) (w : TransactionLayer) :
    (w.incoming msg).plugin = w.plugin ∧ (w.incoming msg).live = w.live ∧
      (w.incoming msg).channels = w.channels := by
  unfold incoming
  repeat' split
  all_goals exact ⟨rfl, rfl, rfl⟩

/-- **Every step keeps the table right.** -/
theorem TableOk.step {w : TransactionLayer} (h : w.TableOk) (e : LayerEvent) :
    (w.step e).TableOk := by
  cases e with
  | fromRequest request =>
    simp only [TransactionLayer.step]
    split
    · exact h.register _
    · exact h
  | send generated outgoing =>
    simp only [TransactionLayer.step]
    split
    · exact h.register _
    · exact h
  | drop id => exact h.drop id
  | dropReceiver id => exact h.of_same rfl rfl (List.length_modify _ _ _)
  | recv id => exact h.of_same rfl rfl (List.length_modify _ _ _)
  | incoming msg =>
    obtain ⟨hplugin, hlive, hchannels⟩ := incoming_frame msg w
    exact h.of_same hplugin hlive (congrArg List.length hchannels)
  | poll i =>
    obtain ⟨hplugin, hlive, hlength⟩ := poll_frame i w
    exact h.of_same hplugin hlive hlength

/-- Every live transaction's key leads to a live channel, and without a live transaction the
    table is as it was at the start. -/
structure Registered (w : TransactionLayer) : Prop where
  entry : ∀ t ∈ w.live, ∃ t' ∈ w.live, w.plugin.getEntry t.2 = some t'.1
  empty : w.live = [] → w.plugin = {}

/-- No transaction is dropped while another live one has its key. -/
def DropsAlone (w : TransactionLayer) : LayerEvent → Prop
  | .drop id => ∀ t ∈ w.live, t.1 = id → ∀ t' ∈ w.live, t'.2 = t.2 → t' = t
  | _ => True

/-- Without live transactions the table is empty. -/
theorem TableOk.empty {w : TransactionLayer} (h : w.TableOk) (hlive : w.live = []) :
    w.plugin = {} := by
  have hnone : w.plugin.transactions = fun _ => none := by
    funext key
    cases hentry : w.plugin.transactions key with
    | none => rfl
    | some id =>
      have hmem := h.entry key id hentry
      rw [hlive] at hmem
      cases hmem
  show w.plugin = ⟨fun _ => none⟩
  rw [← hnone]

/-- Whether all are registered is a matter of the table and the live transactions. -/
theorem Registered.of_same {w w' : TransactionLayer} (h : w.Registered)
    (hplugin : w'.plugin = w.plugin) (hlive : w'.live = w.live) : w'.Registered := by
  obtain ⟨hentry, hempty⟩ := h
  constructor
  · rw [hplugin, hlive]
    exact hentry
  · rw [hplugin, hlive]
    exact hempty

/-- A new transaction keeps the table complete: its key leads to its own channel, and the others to
    where they led before. -/
theorem Registered.register {w : TransactionLayer} (h : w.Registered) (key : TransactionKey) :
    (w.register key).Registered where
  entry := by
    intro t ht
    have hlast : (w.channels.length, key) ∈ (w.register key).live :=
      List.mem_append_right _ (List.mem_singleton_self _)
    by_cases hkey : t.2 = key
    · refine ⟨_, hlast, ?_⟩
      rw [hkey]
      exact TsxPlugin.getEntry_addTransaction_self _ _ _
    · rcases List.mem_append.mp ht with hold | hnew
      · obtain ⟨t', ht', hentry⟩ := h.entry t hold
        refine ⟨t', List.mem_append_left _ ht', ?_⟩
        exact (TsxPlugin.getEntry_addTransaction_of_ne hkey _ _).trans hentry
      · rw [List.mem_singleton.mp hnew] at hkey
        exact absurd rfl hkey
  empty := by
    intro hlive
    exact absurd hlive (List.append_ne_nil_of_right_ne_nil _ (List.cons_ne_nil _ _))

/-- The table stays complete with a drop exactly if the transaction has its key for itself. -/
theorem registered_drop_iff {w : TransactionLayer} (hok : w.TableOk) (h : w.Registered)
    (id : ChannelId) : (w.drop id).Registered ↔ w.DropsAlone (.drop id) := by
  have hempty := (hok.drop id).empty
  rcases drop_cases id w with ⟨t, ht, rfl, hdrop⟩ | ⟨hnone, hdrop⟩
  · rw [hdrop] at hempty ⊢
    constructor
    · rintro ⟨hentry, -⟩ t₁ ht₁ hid t' ht' hkey
      obtain rfl : t₁ = t := hok.unique t₁ ht₁ t ht hid
      by_contra hne
      -- the entry of the other transaction is gone
      have hid' : t'.1 ≠ t₁.1 := fun heq => hne (hok.unique t' ht' t₁ ht heq)
      obtain ⟨t'', -, hentry'⟩ := hentry t' (mem_filter_ne.mpr ⟨ht', hid'⟩)
      have hentry' : (w.plugin.removeTransaction t₁.2).getEntry t'.2 = some t''.1 := hentry'
      rw [hkey, TsxPlugin.getEntry_removeTransaction_self] at hentry'
      cases hentry'
    · intro halone
      refine ⟨fun t' ht' => ?_, hempty⟩
      obtain ⟨hmem, hid⟩ := mem_filter_ne.mp ht'
      have hkey : t'.2 ≠ t.2 := by
        intro hkey
        rw [halone t ht rfl t' hmem hkey] at hid
        exact hid rfl
      obtain ⟨t'', ht'', hentry⟩ := h.entry t' hmem
      refine ⟨t'', mem_filter_ne.mpr ⟨ht'', fun hid'' => hkey ?_⟩, ?_⟩
      · -- the entry is the dropped transaction's own
        have hown := hok.unique _ (hok.entry t'.2 t''.1 hentry) t ht hid''
        rw [← hown]
      · exact (TsxPlugin.getEntry_removeTransaction_of_ne hkey _).trans hentry
  · rw [hdrop]
    exact iff_of_true h fun t ht hid => absurd hid (hnone t ht)

/-- The table stays complete with a step exactly if the step is no drop of one of two under a key.
    -/
theorem registered_step_iff {w : TransactionLayer} (hok : w.TableOk) (h : w.Registered)
    (e : LayerEvent) : (w.step e).Registered ↔ w.DropsAlone e := by
  cases e with
  | fromRequest request =>
    refine iff_of_true ?_ trivial
    simp only [step]
    split
    · exact h.register _
    · exact h
  | send generated outgoing =>
    refine iff_of_true ?_ trivial
    simp only [step]
    split
    · exact h.register _
    · exact h
  | drop id => exact registered_drop_iff hok h id
  | dropReceiver id => exact iff_of_true (h.of_same rfl rfl) trivial
  | recv id => exact iff_of_true (h.of_same rfl rfl) trivial
  | incoming msg =>
    obtain ⟨hplugin, hlive, -⟩ := incoming_frame msg w
    exact iff_of_true (h.of_same hplugin hlive) trivial
  | poll i =>
    obtain ⟨hplugin, hlive, -⟩ := poll_frame i w
    exact iff_of_true (h.of_same hplugin hlive) trivial

/-- **When every live transaction stays registered.** All along a run the key of every live
    transaction leads to a live channel exactly when no transaction is dropped while another
    live one has the same key. -/
theorem run_registered_iff (es : List LayerEvent) :
    Always step Registered {} es ↔ Meets step DropsAlone {} es := by
  have hstart : Registered {} := ⟨fun _ h => (nomatch h), fun _ => rfl⟩
  have hinv : ∀ (w : TransactionLayer) e, w.TableOk → (w.step e).TableOk := fun _ e h => h.step e
  exact always_iff_meets hinv (fun _ e hok h => registered_step_iff hok h e) tableOk_start
    hstart es

/-- A retransmission that makes a second transaction: the drop of the first one takes the entry
    of the second. -/
theorem run_registered_retransmission :
    ¬ Always step Registered {} [.fromRequest (.fromLocalhost .options none false),
      .fromRequest (.fromLocalhost .options none false), .drop 0] := by
  intro h
  obtain ⟨hentry, -⟩ := h _ (List.prefix_refl _)
  obtain ⟨t', -, hentry⟩ := hentry (1, .newKey3261 .uas .options "z9hG4bK1") (by decide)
  cases hentry

/-! ### Deliveries -/

/-- The receiver of the channel is gone. -/
def Gone (w : TransactionLayer) (id : ChannelId) : Prop :=
  (w.channels[id]?).map Channel.hasReceiver = some false

/-- No delivery has unwrapped an error, and none would if it were polled now. -/
def Quiet (w : TransactionLayer) : Prop := ∀ i, (w.poll i).panicked = false

/-- No receiver goes away while a request is on its way to it, and no request is looked up to a
    receiver that is gone. -/
def DeliversFirst (w : TransactionLayer) : LayerEvent → Prop
  | .dropReceiver id => ∀ d ∈ w.deliveries, d.msg.isRequest = true → d.channel ≠ id
  | .incoming msg => msg.isRequest = true → ∀ key id, msg.key = some key →
      w.plugin.getEntry key = some id → ¬ w.Gone id
  | _ => True

/-- The table is right, and deliveries go to channels there are. -/
structure DeliveriesOk (w : TransactionLayer) : Prop where
  table : w.TableOk
  bound : ∀ d ∈ w.deliveries, d.channel < w.channels.length

/-- A layer is quiet exactly if nothing has panicked and no request is on its way to a receiver that
    is gone. -/
theorem quiet_iff {w : TransactionLayer} :
    w.Quiet ↔
      w.panicked = false ∧ ∀ d ∈ w.deliveries, d.msg.isRequest = true → ¬ w.Gone d.channel := by
  constructor
  · intro h
    constructor
    · -- a poll of no delivery changes nothing
      have hlast := h w.deliveries.length
      rw [poll, List.getElem?_eq_none (le_refl _)] at hlast
      exact hlast
    · -- a poll of the delivery itself would panic
      intro d hd hrequest hgone
      obtain ⟨i, hi⟩ := List.getElem?_of_mem hd
      obtain ⟨c, hc, hreceiver⟩ := Option.map_eq_some_iff.mp hgone
      have hpoll := h i
      simp only [poll, hi, hc, hreceiver] at hpoll
      rw [hrequest] at hpoll
      simp at hpoll
  · rintro ⟨hpanicked, hgone⟩ i
    unfold poll
    split
    · exact hpanicked
    · next d hd =>
      split
      · exact hpanicked
      · next c hc =>
        split
        · split <;> exact hpanicked
        · next hreceiver =>
          show (w.panicked || d.msg.isRequest) = false
          rw [hpanicked, Bool.false_or]
          by_contra hrequest
          refine hgone d (List.mem_of_getElem? hd) (Bool.eq_true_of_not_eq_false hrequest) ?_
          rw [Gone, hc, Option.map_some, Bool.eq_false_of_not_eq_true hreceiver]

/-- What keeps the receivers, and adds no delivery, keeps quiet. -/
theorem Quiet.mono {w w' : TransactionLayer} (h : w.Quiet) (hpanicked : w'.panicked = false)
    (hdeliveries : ∀ d ∈ w'.deliveries, d ∈ w.deliveries)
    (hgone : ∀ d ∈ w.deliveries, w'.Gone d.channel → w.Gone d.channel) : w'.Quiet := by
  obtain ⟨-, hnot⟩ := quiet_iff.mp h
  refine quiet_iff.mpr ⟨hpanicked, fun d hd hrequest hg => ?_⟩
  have hmem := hdeliveries d hd
  exact hnot d hmem hrequest (hgone d hmem hg)

/-- A new channel does not change which of the others have lost their receivers. -/
theorem gone_register_iff {w : TransactionLayer} {key : TransactionKey} {id : ChannelId}
    (hid : id < w.channels.length) : (w.register key).Gone id ↔ w.Gone id := by
  show Option.map _ (w.channels ++ [_])[id]? = _ ↔ _
  rw [List.getElem?_append_left hid]
  rfl

/-- To read a message takes no receiver away. -/
theorem gone_recv_iff {w : TransactionLayer} (id id' : ChannelId) :
    (w.recv id).Gone id' ↔ w.Gone id' := by
  unfold Gone recv
  rw [List.getElem?_modify]
  split
  · cases w.channels[id']? <;> rfl
  · simp

/-- When a receiver goes away it is the only one that does. -/
theorem gone_dropReceiver_iff {w : TransactionLayer} {id id' : ChannelId}
    (hid : id' < w.channels.length) :
    (w.dropReceiver id).Gone id' ↔ id' = id ∨ w.Gone id' := by
  unfold Gone dropReceiver
  rw [List.getElem?_modify, List.getElem?_eq_getElem hid]
  by_cases heq : id = id'
  · simp [heq]
  · have hne : ¬ id' = id := fun h => heq h.symm
    simp [heq, hne]

/-- A poll of a delivery takes no receiver away. -/
theorem gone_poll_iff {w : TransactionLayer} (i : Nat) (id : ChannelId) :
    (w.poll i).Gone id ↔ w.Gone id := by
  unfold poll
  split
  · rfl
  · next d hd =>
    split
    · rfl
    · next c hc =>
      split
      · split
        · -- the channel with the message in it still has its receiver
          unfold Gone
          rw [List.getElem?_set]
          split
          · next heq =>
            have hlt := (List.getElem?_eq_some_iff.mp hc).1
            rw [if_pos hlt, ← heq, hc]
            rfl
          · rfl
        · rfl
      · rfl

/-- A poll finishes a delivery or leaves it. -/
theorem deliveries_poll_subset (i : Nat) (w : TransactionLayer) :
    ∀ d ∈ (w.poll i).deliveries, d ∈ w.deliveries := by
  unfold poll
  repeat' split
  all_goals first
    | exact fun _ => id
    | exact fun _ => List.mem_of_mem_eraseIdx

/-- What a lookup adds. -/
theorem incoming_cases (msg : IncomingMessage) (w : TransactionLayer) :
    (∃ key id, msg.key = some key ∧ w.plugin.getEntry key = some id ∧
        w.incoming msg = { w with deliveries := w.deliveries ++ [⟨id, msg⟩] }) ∨
      (∀ key, msg.key = some key → w.plugin.getEntry key = none) ∧ w.incoming msg = w := by
  unfold incoming
  cases hkey : msg.key with
  | none => exact .inr ⟨fun _ h => (nomatch h), rfl⟩
  | some key =>
    cases hentry : w.plugin.getEntry key with
    | none =>
      refine .inr ⟨fun key' h => ?_, by simp only [hentry]⟩
      rw [← Option.some.inj h]
      exact hentry
    | some id => exact .inl ⟨key, id, rfl, hentry, by simp only [hentry]⟩

/-- Deliveries stay on their way to channels that exist, with every step. -/
theorem DeliveriesOk.step {w : TransactionLayer} (h : w.DeliveriesOk) (e : LayerEvent) :
    (w.step e).DeliveriesOk := by
  refine ⟨h.table.step e, ?_⟩
  -- a new channel leaves the old ones where they are
  have hregister : ∀ key, ∀ d ∈ (w.register key).deliveries,
      d.channel < (w.register key).channels.length := by
    intro key d hd
    show d.channel < (w.channels ++ [({} : Channel)]).length
    rw [List.length_append]
    exact Nat.lt_add_right _ (h.bound d hd)
  cases e with
  | fromRequest request =>
    simp only [TransactionLayer.step]
    split
    · exact hregister _
    · exact h.bound
  | send generated outgoing =>
    simp only [TransactionLayer.step]
    split
    · exact hregister _
    · exact h.bound
  | drop id =>
    rcases drop_cases id w with ⟨t, -, -, hdrop⟩ | ⟨-, hdrop⟩
    · simp only [TransactionLayer.step, hdrop]
      exact h.bound
    · simp only [TransactionLayer.step, hdrop]
      exact h.bound
  | dropReceiver id =>
    intro d hd
    show d.channel < (w.channels.modify id _).length
    rw [List.length_modify]
    exact h.bound d hd
  | recv id =>
    intro d hd
    show d.channel < (w.channels.modify id _).length
    rw [List.length_modify]
    exact h.bound d hd
  | incoming msg =>
    -- the table names a channel there is, so the new delivery is in bounds too
    rcases incoming_cases msg w with ⟨key, id, -, hentry, hincoming⟩ | ⟨-, hincoming⟩
    · simp only [TransactionLayer.step, hincoming]
      intro d hd
      rcases List.mem_append.mp hd with hold | hnew
      · exact h.bound d hold
      · rw [List.mem_singleton.mp hnew]
        exact h.table.bound _ (h.table.entry key id hentry)
    · simp only [TransactionLayer.step, hincoming]
      exact h.bound
  | poll i =>
    intro d hd
    show d.channel < (w.poll i).channels.length
    rw [(poll_frame i w).2.2]
    exact h.bound d (deliveries_poll_subset i w d hd)

/-- The layer stays quiet with a step exactly if the step brings no request and no loss of its
    receiver together. -/
theorem quiet_step_iff {w : TransactionLayer} (hok : w.DeliveriesOk) (h : w.Quiet)
    (e : LayerEvent) : (w.step e).Quiet ↔ w.DeliversFirst e := by
  obtain ⟨hpanicked, hnot⟩ := quiet_iff.mp h
  have hregister : ∀ key, (w.register key).Quiet := fun key =>
    h.mono hpanicked (fun _ => id) fun d hd => (gone_register_iff (hok.bound d hd)).mp
  cases e with
  | fromRequest request =>
    refine iff_of_true ?_ trivial
    simp only [step]
    split
    · exact hregister _
    · exact h
  | send generated outgoing =>
    refine iff_of_true ?_ trivial
    simp only [step]
    split
    · exact hregister _
    · exact h
  | drop id =>
    refine iff_of_true ?_ trivial
    rcases drop_cases id w with ⟨t, -, -, hdrop⟩ | ⟨-, hdrop⟩
    · simp only [step, hdrop]
      exact h.mono hpanicked (fun _ hd => hd) fun _ _ hgone => hgone
    · simp only [step, hdrop]
      exact h
  | recv id =>
    exact iff_of_true
      (h.mono hpanicked (fun _ hd => hd) fun _ _ => (gone_recv_iff id _).mp) trivial
  | poll i =>
    exact iff_of_true
      (h.mono (h i) (deliveries_poll_subset i w) fun _ _ => (gone_poll_iff i _).mp) trivial
  | dropReceiver id =>
    constructor
    · rintro hquiet d hd hrequest rfl
      -- the delivery would fail now
      have hgone := (quiet_iff.mp hquiet).2 d hd hrequest
      exact hgone ((gone_dropReceiver_iff (hok.bound d hd)).mpr (.inl rfl))
    · intro hfirst
      refine quiet_iff.mpr ⟨hpanicked, fun d hd hrequest hgone => ?_⟩
      rcases (gone_dropReceiver_iff (hok.bound d hd)).mp hgone with heq | hwas
      · exact hfirst d hd hrequest heq
      · exact hnot d hd hrequest hwas
  | incoming msg =>
    rcases incoming_cases msg w with ⟨key, id, hkey, hentry, hincoming⟩ | ⟨hnone, hincoming⟩
    · simp only [step, hincoming]
      constructor
      · intro hquiet hrequest key' id' hkey' hentry'
        obtain rfl : key = key' := Option.some.inj (hkey.symm.trans hkey')
        obtain rfl : id = id' := Option.some.inj (hentry.symm.trans hentry')
        exact (quiet_iff.mp hquiet).2 ⟨id, msg⟩
          (List.mem_append_right _ (List.mem_singleton_self _)) hrequest
      · intro hthere
        refine quiet_iff.mpr ⟨hpanicked, fun d hd hrequest => ?_⟩
        rcases List.mem_append.mp hd with hold | hnew
        · exact hnot d hold hrequest
        · rw [List.mem_singleton.mp hnew] at hrequest ⊢
          exact hthere hrequest key id hkey hentry
    · simp only [step, hincoming]
      refine iff_of_true h fun _ key id hkey hentry => ?_
      rw [hnone key hkey] at hentry
      cases hentry

/-- **When delivering a request never panics.** In every state of a run no delivery has
    unwrapped an error, or would if it were polled next, exactly when no receiver goes away
    while a request is between its lookup and the end of its `send`, and no request is looked
    up to a receiver that is gone. -/
theorem run_quiet_iff (es : List LayerEvent) :
    Always step Quiet {} es ↔ Meets step DeliversFirst {} es := by
  have hinv : ∀ (w : TransactionLayer) e, w.DeliveriesOk → (w.step e).DeliveriesOk :=
    fun _ e h => h.step e
  have hok : DeliveriesOk {} := ⟨tableOk_start, fun _ h => (nomatch h)⟩
  have hstart : Quiet {} := quiet_iff.mpr ⟨rfl, fun _ h => (nomatch h)⟩
  exact always_iff_meets hinv (fun _ e hok h => quiet_step_iff hok h e) hok hstart es

/-- A retransmission that is looked up before the transaction ends, and sent after. -/
theorem run_quiet_retransmission :
    (run {} [.fromRequest (.fromLocalhost .options none false),
      .incoming (.request (.fromLocalhost .options none false)), .drop 0, .dropReceiver 0,
      .poll 0]).panicked = true := by
  decide

end TransactionLayer

end Rssip
