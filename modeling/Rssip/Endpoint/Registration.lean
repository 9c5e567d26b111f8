import Mathlib.Data.List.Perm.Basic
import Rssip.Endpoint.CreateResponse

namespace Rssip

open Lib

/-!
# The start of a client transaction

`send` hands the request to the transport first and adds the transaction to the table after that.
A response that arrives in between finds no transaction.

* `SendingLayer` — the transaction layer, with the requests that were sent and the responses that
  have arrived;
* `SendingLayer.Delivered` — the responses to a request all go to the channel of its transaction;
* `run_delivered` — when they do, all along a run;
* `not_delivered_of_creating` — a response that arrives in between is lost;
* `run_layer` — the runs are runs of the transaction layer.
-/

/-- How far `send` has got with a request that is with the transport: it has not added the
    transaction yet, it has, or its future was dropped before. -/
inductive SendStatus where
  | creating
  | created (channel : ChannelId)
  | abandoned
deriving DecidableEq

/-- A request that was handed to the transport. -/
structure SentRequest where
  key : TransactionKey
  status : SendStatus := .creating
deriving DecidableEq

/-- The transaction is being created, or it is in use. -/
def SentRequest.isOpen (live : List (ChannelId × TransactionKey)) (s : SentRequest) : Bool :=
  match s.status with
  | .creating => true
  | .created channel => decide ((channel, s.key) ∈ live)
  | .abandoned => false

/-- A response, and the open requests that it answers, by their places. -/
structure Arrival where
  response : IncomingResponse
  requests : List Nat

/-- The transaction layer with what was sent, what has arrived, and what has been put into
    channels so far. -/
structure SendingLayer where
  layer : TransactionLayer := {}
  sent : List SentRequest := []
  arrivals : List Arrival := []
  inChannel : List (ChannelId × IncomingMessage) := []

/-- The steps of a run.  A `send` of the layer ends with the hand-over to the transport;
    `addTransaction` is the rest of it. -/
inductive SendingEvent where
  | layer (e : LayerEvent)
  | addTransaction (i : Nat)
  | abandon (i : Nat)

/-- The key of the request that a response answers: it repeats the branch and the method. -/
def IncomingResponse.answers (res : IncomingResponse) : Option TransactionKey :=
  let headers := res.incomingInfo.mandatoryHeaders
  headers.via.branch.map (TransactionKey.newKey3261 .uac headers.cseq.method)

/-- What a poll puts into a channel. -/
def TransactionLayer.put (i : Nat) (w : TransactionLayer) : List (ChannelId × IncomingMessage) :=
  match w.deliveries[i]? with
  | none => []
  | some d =>
    match w.channels[d.channel]? with
    | none => []
    | some c =>
      if c.hasReceiver ∧ c.queue.length < channelCapacity then [(d.channel, d.msg)] else []

/-- The plugins of an endpoint, for a response: those of the user in front of the transactions'
    take some. -/
def Endpoint.pluginsWith (takes : IncomingResponse → Bool) (p : TsxPlugin) :
    List RegisteredPlugin :=
  [⟨.user fun _ => false, takes⟩, ⟨.tsx p, fun _ => false⟩]

namespace SendingLayer

/-- `send`, until the request is with the transport. -/
def transmit (generated : String) (outgoing : OutgoingRequest) (w : SendingLayer) :
    SendingLayer :=
  match ClientTransaction.send generated outgoing 0 with
  | some c => { w with sent := w.sent ++ [{ key := c.key }] }
  | none => w

/-- The rest of `send`. -/
def addTransaction (i : Nat) (w : SendingLayer) : SendingLayer :=
  match w.sent[i]? with
  | some ⟨key, .creating⟩ =>
    { w with
      layer := w.layer.register key
      sent := w.sent.set i ⟨key, .created w.layer.channels.length⟩ }
  | _ => w

/-- The future of `send` is dropped. -/
def abandon (i : Nat) (w : SendingLayer) : SendingLayer :=
  match w.sent[i]? with
  | some ⟨key, .creating⟩ => { w with sent := w.sent.set i ⟨key, .abandoned⟩ }
  | _ => w

/-- The open requests that a response answers. -/
def answered (res : IncomingResponse) (w : SendingLayer) : List Nat :=
  (List.range w.sent.length).filter fun i =>
    (w.sent[i]?).any fun s => s.isOpen w.layer.live && decide (res.answers = some s.key)

/-- A response arrives and goes through the plugins. -/
def arrive (takes : IncomingResponse → Bool) (res : IncomingResponse) (w : SendingLayer) :
    SendingLayer :=
  let arrivals := w.arrivals ++ [⟨res, w.answered res⟩]
  match Endpoint.onResponse (Endpoint.pluginsWith takes w.layer.plugin) res with
  | .transaction channel =>
    let deliveries := w.layer.deliveries ++ [⟨channel, .response res⟩]
    { w with layer := { w.layer with deliveries := deliveries }, arrivals := arrivals }
  | _ => { w with arrivals := arrivals }

/-- A step of the layer; a client transaction is made in two, and responses may come in between. -/
def step (takes : IncomingResponse → Bool) (w : SendingLayer) : SendingEvent → SendingLayer
  | .layer (.send generated outgoing) => w.transmit generated outgoing
  | .layer (.incoming (.response res)) => w.arrive takes res
  | .layer (.poll i) =>
    { w with layer := w.layer.poll i, inChannel := w.inChannel ++ w.layer.put i }
  | .layer e => { w with layer := w.layer.step e }
  | .addTransaction i => w.addTransaction i
  | .abandon i => w.abandon i

/-- The layer after a run. -/
def run (takes : IncomingResponse → Bool) (w : SendingLayer) (es : List SendingEvent) :
    SendingLayer :=
  exec (step takes) w es

/-! ### Delivery -/

/-- The responses that have arrived for the request at a place. -/
def arrived (i : Nat) (w : SendingLayer) : List IncomingMessage :=
  (w.arrivals.filter fun a => i ∈ a.requests).map fun a => .response a.response

/-- What has been put into a channel, or is on its way there. -/
def reached (channel : ChannelId) (w : SendingLayer) : List IncomingMessage :=
  (w.layer.deliveries.filter fun d => d.channel = channel).map Delivery.msg ++
    (w.inChannel.filter fun p => p.1 = channel).map Prod.snd

/-- What has gone to the channel of the transaction of a request, if it has one. -/
def reachedFor (s : SentRequest) (w : SendingLayer) : List IncomingMessage :=
  match s.status with
  | .created channel => w.reached channel
  | .creating | .abandoned => []

/-- The responses to each request are just what goes to the channel of its transaction. -/
def Delivered (w : SendingLayer) : Prop :=
  ∀ (i : Nat) (s : SentRequest), w.sent[i]? = some s → (w.arrived i).Perm (w.reachedFor s)

/-- The transaction of the request at a place is open. -/
def Open (w : SendingLayer) (i : Nat) (key : TransactionKey) : Prop :=
  ∃ s, w.sent[i]? = some s ∧ s.key = key ∧ s.isOpen w.layer.live = true

/-- The request at a place has this transaction. -/
def Created (w : SendingLayer) (i : Nat) (key : TransactionKey) (channel : ChannelId) : Prop :=
  w.sent[i]? = some ⟨key, .created channel⟩

/-- What a step must meet.  A request gets a branch of RFC 3261 that no open one has; a response
    arrives when the transactions of the requests that it answers are in the table, with their
    receivers, and no plugin takes it before; a receiver stays while something is on its way. -/
def Registers (takes : IncomingResponse → Bool) (w : SendingLayer) : SendingEvent → Prop
  | .layer (.send generated outgoing) =>
    ∀ c, ClientTransaction.send generated outgoing 0 = some c →
      (∃ branch, c.key.branch = some branch ∧ rfc3261BranchId.toList <+: branch.toList) ∧
        ∀ i, ¬ w.Open i c.key
  | .layer (.incoming (.response res)) =>
    ∀ key i, res.answers = some key → w.Open i key →
      takes res = false ∧ ∃ channel, w.Created i key channel ∧ ¬ w.layer.Gone channel
  | .layer (.dropReceiver id) =>
    ∀ i key, w.Created i key id → ∀ d ∈ w.layer.deliveries, d.channel ≠ id
  | _ => True

/-! ### What a step does -/

/-- An element of a list with one more is an element of the list, or the new one at its end. -/
theorem getElem?_concat_eq_some_iff {α : Type} {l : List α} {a b : α} {i : Nat} :
    (l ++ [a])[i]? = some b ↔ l[i]? = some b ∨ i = l.length ∧ a = b := by
  rcases lt_trichotomy i l.length with hlt | rfl | hgt
  · rw [List.getElem?_append_left hlt]
    exact ⟨Or.inl, fun h => h.elim id fun h => absurd h.1 (Nat.ne_of_lt hlt)⟩
  · rw [List.getElem?_concat_length, List.getElem?_eq_none (le_refl _)]
    simp
  · rw [List.getElem?_eq_none (by simp; omega), List.getElem?_eq_none (Nat.le_of_lt hgt)]
    simp [Nat.ne_of_gt hgt]

/-- An element of a list with one place overwritten is the new one at this place, or an old one at
    another. -/
theorem getElem?_set_eq_some_iff {α : Type} {l : List α} {a b : α} {i j : Nat}
    (hi : i < l.length) :
    (l.set i a)[j]? = some b ↔ j = i ∧ a = b ∨ j ≠ i ∧ l[j]? = some b := by
  by_cases hij : j = i
  · rw [hij, List.getElem?_set_self hi]
    simp
  · rw [List.getElem?_set_ne (fun h => hij h.symm)]
    simp [hij]

/-- A response answers the open requests under its key, and no others. -/
theorem mem_answered {res : IncomingResponse} {w : SendingLayer} {i : Nat} :
    i ∈ w.answered res ↔ ∃ key, res.answers = some key ∧ w.Open i key := by
  unfold answered Open
  rw [List.mem_filter, List.mem_range]
  constructor
  · rintro ⟨hlt, hany⟩
    rw [List.getElem?_eq_getElem hlt, Option.any_some, Bool.and_eq_true, decide_eq_true_eq] at hany
    exact ⟨_, hany.2, _, List.getElem?_eq_getElem hlt, rfl, hany.1⟩
  · rintro ⟨key, hanswers, s, hs, rfl, hopen⟩
    refine ⟨(List.getElem?_eq_some_iff.mp hs).1, ?_⟩
    rw [hs, Option.any_some, hopen, hanswers]
    simp

/-- An open transaction is being created, or it is in use. -/
theorem open_iff {w : SendingLayer} {i : Nat} {key : TransactionKey} :
    w.Open i key ↔ w.sent[i]? = some ⟨key, .creating⟩ ∨
      ∃ channel, w.Created i key channel ∧ (channel, key) ∈ w.layer.live := by
  unfold Open Created
  constructor
  · rintro ⟨⟨key', status⟩, hs, rfl, hopen⟩
    cases status with
    | creating => exact .inl hs
    | created channel => exact .inr ⟨channel, hs, of_decide_eq_true hopen⟩
    | abandoned => cases hopen
  · rintro (hs | ⟨channel, hs, hlive⟩)
    · exact ⟨_, hs, rfl, rfl⟩
    · exact ⟨_, hs, rfl, decide_eq_true hlive⟩

/-- A response goes to a transaction, if the plugins in front let it pass and its key is in the
    table. -/
theorem onResponse_pluginsWith (takes : IncomingResponse → Bool) (p : TsxPlugin)
    (res : IncomingResponse) :
    (∃ key channel, takes res = false ∧ TransactionKey.fromResponse res = some key ∧
        p.getEntry key = some channel ∧
        Endpoint.onResponse (Endpoint.pluginsWith takes p) res = .transaction channel) ∨
      (takes res = false → ∀ key, TransactionKey.fromResponse res = some key →
        p.getEntry key = none) ∧
        ∀ channel,
          Endpoint.onResponse (Endpoint.pluginsWith takes p) res ≠ .transaction channel := by
  simp only [Endpoint.pluginsWith, Endpoint.onResponse, RegisteredPlugin.onIncomingResponse,
    TsxPlugin.onIncomingResponse]
  -- the plugin in front is asked first
  by_cases htakes : takes res
  · refine .inr ⟨fun h => absurd (h.symm.trans htakes) (by decide), fun channel => ?_⟩
    rw [if_pos htakes]
    exact Outcome.noConfusion
  · rw [if_neg htakes]
    cases hkey : TransactionKey.fromResponse res with
    | none => exact .inr ⟨by simp, fun channel => Outcome.noConfusion⟩
    | some key =>
      cases hentry : p.getEntry key with
      | none =>
        refine .inr ⟨fun _ key' h => ?_, fun channel => ?_⟩
        · rw [← Option.some.inj h]
          exact hentry
        · simp only [hentry, Option.map_none]
          exact Outcome.noConfusion
      | some channel =>
        refine .inl ⟨key, channel, Bool.eq_false_of_not_eq_true htakes, rfl, hentry, ?_⟩
        simp only [hentry, Option.map_some]

/-- What the arrival of a response does. -/
theorem arrive_cases (takes : IncomingResponse → Bool) (res : IncomingResponse)
    (w : SendingLayer) :
    (∃ key channel, takes res = false ∧ TransactionKey.fromResponse res = some key ∧
        w.layer.plugin.getEntry key = some channel ∧
        w.arrive takes res =
          { w with
            layer := { w.layer with
                         deliveries := w.layer.deliveries ++ [⟨channel, .response res⟩] }
            arrivals := w.arrivals ++ [⟨res, w.answered res⟩] }) ∨
      (takes res = false → ∀ key, TransactionKey.fromResponse res = some key →
        w.layer.plugin.getEntry key = none) ∧
        w.arrive takes res = { w with arrivals := w.arrivals ++ [⟨res, w.answered res⟩] } := by
  rcases onResponse_pluginsWith takes w.layer.plugin res with
    ⟨key, channel, htakes, hkey, hentry, hout⟩ | ⟨hnone, hout⟩
  · refine .inl ⟨key, channel, htakes, hkey, hentry, ?_⟩
    simp only [arrive, hout]
  · refine .inr ⟨hnone, ?_⟩
    unfold arrive
    split
    · next channel heq => exact absurd heq (hout channel)
    · rfl

/-- What the rest of `send` does. -/
theorem addTransaction_cases (i : Nat) (w : SendingLayer) :
    (∃ key, w.sent[i]? = some ⟨key, .creating⟩ ∧ w.addTransaction i =
        { w with
          layer := w.layer.register key
          sent := w.sent.set i ⟨key, .created w.layer.channels.length⟩ }) ∨
      w.addTransaction i = w := by
  unfold addTransaction
  split
  · next key hs => exact .inl ⟨key, hs, rfl⟩
  · exact .inr rfl

/-- To drop the future of `send` ends a creation that is under way, and changes nothing otherwise.
    -/
theorem abandon_cases (i : Nat) (w : SendingLayer) :
    (∃ key, w.sent[i]? = some ⟨key, .creating⟩ ∧
        w.abandon i = { w with sent := w.sent.set i ⟨key, .abandoned⟩ }) ∨
      w.abandon i = w := by
  unfold abandon
  split
  · next key hs => exact .inl ⟨key, hs, rfl⟩
  · exact .inr rfl

/-- The first half of `send` appends a request under its key, and changes nothing if there is no
    key. -/
theorem transmit_cases (generated : String) (outgoing : OutgoingRequest) (w : SendingLayer) :
    (∃ c, ClientTransaction.send generated outgoing 0 = some c ∧
        w.transmit generated outgoing = { w with sent := w.sent ++ [{ key := c.key }] }) ∨
      w.transmit generated outgoing = w := by
  unfold transmit
  split
  · next c hc => exact .inl ⟨c, hc, rfl⟩
  · exact .inr rfl

end SendingLayer

/-! ### Sides -/

/-- The side of a transaction that a key tells. -/
def TransactionKey.role : TransactionKey → Option Role
  | rfc2543 _ => none
  | rfc3261 key => some key.role

/-- A key made of what came in tells the side that it was made for. -/
theorem TransactionKey.role_of_fromIncomingInfo {info : IncomingInfo} {role : Role}
    {key : TransactionKey} (h : fromIncomingInfo info role = some key) : key.role = some role := by
  obtain ⟨branch, -, -, rfl⟩ := fromIncomingInfo_eq_some_iff.mp h
  rfl

/-- The key of a client transaction tells the client's side. -/
theorem ClientTransaction.role_of_send {generated : String} {outgoing : OutgoingRequest}
    {now : Nat} {c : ClientTransaction}
    (h : ClientTransaction.send generated outgoing now = some c) : c.key.role = some .uac := by
  obtain ⟨branch, -, hkey⟩ := key_of_send h
  rw [hkey]
  rfl

/-- The key of a server transaction tells the server's side. -/
theorem ServerTransaction.role_of_fromRequest {r : IncomingRequest} {now : Nat}
    {s : ServerTransaction} (h : ServerTransaction.fromRequest r now = some s) :
    s.transactionKey.role = some .uas := by
  obtain ⟨branch, -, -, hkey⟩ := key_of_fromRequest h
  rw [hkey]
  rfl

/-- A response has the key of the request that it answers, if there is the branch for it. -/
theorem fromResponse_eq_some_iff {res : IncomingResponse} {key : TransactionKey} :
    TransactionKey.fromResponse res = some key ↔ res.answers = some key ∧
      ∃ branch, key.branch = some branch ∧ rfc3261BranchId.toList <+: branch.toList := by
  rw [TransactionKey.fromResponse, TransactionKey.fromIncomingInfo_eq_some_iff,
    IncomingResponse.answers, Option.map_eq_some_iff]
  constructor
  · rintro ⟨branch, hbranch, hpre, rfl⟩
    exact ⟨⟨branch, hbranch, rfl⟩, branch, rfl, hpre⟩
  · rintro ⟨⟨branch, hbranch, rfl⟩, branch', heq, hpre⟩
    rw [← Option.some.inj heq] at hpre
    exact ⟨branch, hbranch, hpre, rfl⟩

namespace TransactionLayer

/-- To register a key adds one live channel, the next one, under this key. -/
theorem mem_live_register {w : TransactionLayer} {key key' : TransactionKey} {id : ChannelId} :
    (id, key') ∈ (w.register key).live ↔
      (id, key') ∈ w.live ∨ id = w.channels.length ∧ key' = key := by
  show _ ∈ w.live ++ [_] ↔ _
  rw [List.mem_append, List.mem_singleton, Prod.mk.injEq]

/-- To register a key opens exactly one channel. -/
theorem length_register (key : TransactionKey) (w : TransactionLayer) :
    (w.register key).channels.length = w.channels.length + 1 := by
  show (w.channels ++ [_]).length = _
  rw [List.length_append, List.length_singleton]

/-- The transactions that a step of the layer makes are on the server's side, except by `send`. -/
theorem mem_live_step {w : TransactionLayer} {e : LayerEvent}
    (he : ∀ generated outgoing, e ≠ .send generated outgoing) {id : ChannelId}
    {key : TransactionKey} (h : (id, key) ∈ (w.step e).live) :
    (id, key) ∈ w.live ∨ id = w.channels.length ∧ key.role = some .uas := by
  cases e with
  | send generated outgoing => exact absurd rfl (he generated outgoing)
  | fromRequest request =>
    simp only [step] at h
    split at h
    · next s hs =>
      refine (mem_live_register.mp h).imp_right fun hnew => ⟨hnew.1, ?_⟩
      rw [hnew.2]
      exact ServerTransaction.role_of_fromRequest hs
    · exact .inl h
  -- what is dropped only takes entries away
  | drop id' =>
    rcases drop_cases id' w with ⟨t, -, -, hdrop⟩ | ⟨-, hdrop⟩
    · simp only [step, hdrop] at h
      exact .inl (mem_filter_ne.mp h).1
    · simp only [step, hdrop] at h
      exact .inl h
  | dropReceiver id' => exact .inl h
  | recv id' => exact .inl h
  | incoming msg =>
    simp only [step] at h
    rw [(incoming_frame msg w).2.1] at h
    exact .inl h
  | poll i =>
    simp only [step] at h
    rw [(poll_frame i w).2.1] at h
    exact .inl h

/-- Channels are never taken away: a step leaves as many, or one more. -/
theorem length_le_step (w : TransactionLayer) (e : LayerEvent) :
    w.channels.length ≤ (w.step e).channels.length := by
  -- only a registration makes a channel, and nothing takes one away
  cases e with
  | fromRequest request =>
    simp only [step]
    split
    · rw [length_register]
      exact Nat.le_succ _
    · exact le_refl _
  | send generated outgoing =>
    simp only [step]
    split
    · rw [length_register]
      exact Nat.le_succ _
    · exact le_refl _
  | drop id =>
    rcases drop_cases id w with ⟨t, -, -, hdrop⟩ | ⟨-, hdrop⟩
    · simp only [step, hdrop]
      exact le_refl _
    · simp only [step, hdrop]
      exact le_refl _
  | dropReceiver id => exact le_of_eq (List.length_modify _ _ _).symm
  | recv id => exact le_of_eq (List.length_modify _ _ _).symm
  | incoming msg => exact le_of_eq (congrArg List.length (incoming_frame msg w).2.2).symm
  | poll i => exact le_of_eq (poll_frame i w).2.2.symm

/-- What a poll puts into a channel was on its way there. -/
theorem put_subset (i : Nat) (w : TransactionLayer) :
    ∀ p ∈ w.put i, ∃ d ∈ w.deliveries, p = (d.channel, d.msg) := by
  intro p hp
  unfold put at hp
  split at hp
  · cases hp
  · next d hd =>
    split at hp
    · cases hp
    · split_ifs at hp
      · exact ⟨d, List.mem_of_getElem? hd, List.mem_singleton.mp hp⟩
      · cases hp

end TransactionLayer

namespace SendingLayer

/-! ### What every run keeps -/

/-- The client transactions in use are those of sent requests, each under the key of its request
    and with a channel of its own. -/
structure Ok (w : SendingLayer) : Prop where
  layer : w.layer.DeliveriesOk
  made : ∀ (i : Nat) (s : SentRequest), w.sent[i]? = some s →
    ∃ generated outgoing c, ClientTransaction.send generated outgoing 0 = some c ∧ c.key = s.key
  owner : ∀ channel key, (channel, key) ∈ w.layer.live → key.role = some .uac →
    ∃ i, w.Created i key channel
  bound : ∀ i key channel, w.Created i key channel → channel < w.layer.channels.length
  own : ∀ i key channel, w.Created i key channel →
    ∀ key', (channel, key') ∈ w.layer.live → key' = key
  channel : ∀ i j key key' channel, w.Created i key channel → w.Created j key' channel → i = j
  arrivals : ∀ a ∈ w.arrivals, ∀ i ∈ a.requests, i < w.sent.length
  inChannel : ∀ p ∈ w.inChannel, p.1 < w.layer.channels.length

/-- At the start nothing was sent and nothing is live. -/
theorem ok_start : Ok {} where
  layer := ⟨TransactionLayer.tableOk_start, fun _ h => (nomatch h)⟩
  made _ _ h := nomatch h
  owner _ _ h := nomatch h
  bound _ _ _ h := nomatch h
  own _ _ _ h := nomatch h
  channel _ _ _ _ _ h := nomatch h
  arrivals _ h := nomatch h
  inChannel _ h := nomatch h

/-- Every request was sent under a key of the client's side. -/
theorem Ok.role {w : SendingLayer} (h : w.Ok) {i : Nat} {s : SentRequest}
    (hs : w.sent[i]? = some s) : s.key.role = some .uac := by
  obtain ⟨generated, outgoing, c, hc, hkey⟩ := h.made i s hs
  rw [← hkey]
  exact ClientTransaction.role_of_send hc

/-- What a step of the layer has to do with the sent requests. -/
theorem Ok.of_layer {w w' : SendingLayer} (h : w.Ok) (hsent : w'.sent = w.sent)
    (hlayer : w'.layer.DeliveriesOk)
    (hlength : w.layer.channels.length ≤ w'.layer.channels.length)
    (hlive : ∀ channel key, (channel, key) ∈ w'.layer.live →
      (channel, key) ∈ w.layer.live ∨ channel = w.layer.channels.length ∧ key.role = some .uas)
    (harrivals : ∀ a ∈ w'.arrivals, ∀ i ∈ a.requests, i < w.sent.length)
    (hinChannel : ∀ p ∈ w'.inChannel, p.1 < w'.layer.channels.length) : w'.Ok := by
  have hcreated : ∀ {i key channel}, w'.Created i key channel → w.Created i key channel := by
    intro i key channel hc
    rw [Created, hsent] at hc
    exact hc
  refine ⟨hlayer, ?_, ?_, ?_, ?_, ?_, ?_, hinChannel⟩
  · rw [hsent]
    exact h.made
  · -- a channel that is new belongs to a server transaction
    intro channel key hmem hrole
    rcases hlive channel key hmem with hold | ⟨-, hserver⟩
    · obtain ⟨i, hi⟩ := h.owner channel key hold hrole
      refine ⟨i, ?_⟩
      rw [Created, hsent]
      exact hi
    · rw [hserver] at hrole
      exact absurd hrole (by decide)
  · exact fun i key channel hc => lt_of_lt_of_le (h.bound i key channel (hcreated hc)) hlength
  · intro i key channel hc key' hmem
    rcases hlive channel key' hmem with hold | ⟨hnew, -⟩
    · exact h.own i key channel (hcreated hc) key' hold
    · -- the channel of a new transaction is new
      have hlt := h.bound i key channel (hcreated hc)
      rw [hnew] at hlt
      exact absurd hlt (lt_irrefl _)
  · exact fun i j key key' channel hc hc' => h.channel i j key key' channel (hcreated hc)
      (hcreated hc')
  · rw [hsent]
    exact harrivals

/-- A request that is still being created adds no transaction in use. -/
theorem created_append {sent : List SentRequest} {key key' : TransactionKey} {i : Nat}
    {channel : ChannelId} :
    (sent ++ [⟨key', .creating⟩])[i]? = some ⟨key, .created channel⟩ ↔
      sent[i]? = some ⟨key, .created channel⟩ := by
  rw [getElem?_concat_eq_some_iff]
  simp

/-- The first half of `send` keeps the invariant: the new request has no transaction yet. -/
theorem Ok.transmit {w : SendingLayer} (h : w.Ok) (generated : String)
    (outgoing : OutgoingRequest) : (w.transmit generated outgoing).Ok := by
  rcases transmit_cases generated outgoing w with ⟨c, hc, heq⟩ | heq
  · rw [heq]
    refine ⟨h.layer, ?_, ?_, ?_, ?_, ?_, ?_, h.inChannel⟩
    · intro i s hs
      rcases getElem?_concat_eq_some_iff.mp hs with hold | ⟨-, rfl⟩
      · exact h.made i s hold
      · exact ⟨generated, outgoing, c, hc, rfl⟩
    · intro channel key hmem hrole
      obtain ⟨i, hi⟩ := h.owner channel key hmem hrole
      exact ⟨i, created_append.mpr hi⟩
    · exact fun i key channel hi => h.bound i key channel (created_append.mp hi)
    · exact fun i key channel hi => h.own i key channel (created_append.mp hi)
    · exact fun i j key key' channel hi hj =>
        h.channel i j key key' channel (created_append.mp hi) (created_append.mp hj)
    · intro a ha i hi
      show i < (w.sent ++ [_]).length
      rw [List.length_append]
      exact Nat.lt_add_right _ (h.arrivals a ha i hi)
  · rw [heq]
    exact h

/-- The second half of `send` keeps the invariant: the transaction gets the key of its request and
    the next channel. -/
theorem Ok.addTransaction {w : SendingLayer} (h : w.Ok) (i : Nat) : (w.addTransaction i).Ok := by
  rcases addTransaction_cases i w with ⟨key, hs, heq⟩ | heq
  · rw [heq]
    have hi : i < w.sent.length := (List.getElem?_eq_some_iff.mp hs).1
    have hlength := TransactionLayer.length_register key w.layer
    -- the transactions that were there are still there, and there is the new one
    have hcreated : ∀ {j key' channel},
        (w.sent.set i ⟨key, .created w.layer.channels.length⟩)[j]? =
            some ⟨key', .created channel⟩ ↔
          j = i ∧ key' = key ∧ channel = w.layer.channels.length ∨ w.Created j key' channel := by
      intro j key' channel
      rw [getElem?_set_eq_some_iff hi, SentRequest.mk.injEq, SendStatus.created.injEq]
      refine or_congr (and_congr_right fun _ => and_congr eq_comm eq_comm) ?_
      refine and_iff_right_of_imp fun hc hji => ?_
      rw [hji, hs] at hc
      cases hc
    refine ⟨⟨h.layer.table.register key, ?_⟩, ?_, ?_, ?_, ?_, ?_, ?_, ?_⟩
    · intro d hd
      rw [hlength]
      exact Nat.lt_succ_of_lt (h.layer.bound d hd)
    · intro j s hj
      rcases (getElem?_set_eq_some_iff hi).mp hj with ⟨rfl, rfl⟩ | ⟨-, hold⟩
      · exact h.made j ⟨key, .creating⟩ hs
      · exact h.made j s hold
    · intro channel key' hmem hrole
      rcases TransactionLayer.mem_live_register.mp hmem with hold | ⟨hnew, hkey⟩
      · obtain ⟨j, hj⟩ := h.owner channel key' hold hrole
        exact ⟨j, hcreated.mpr (.inr hj)⟩
      · exact ⟨i, hcreated.mpr (.inl ⟨rfl, hkey, hnew⟩)⟩
    · intro j key' channel hj
      rw [hlength]
      rcases hcreated.mp hj with ⟨-, -, hnew⟩ | hold
      · rw [hnew]
        exact Nat.lt_succ_self _
      · exact Nat.lt_succ_of_lt (h.bound j key' channel hold)
    · intro j key' channel hj key'' hmem
      rcases hcreated.mp hj with ⟨-, hkey, hnew⟩ | hold
      · rcases TransactionLayer.mem_live_register.mp hmem with hlive | ⟨-, hkey'⟩
        · have hlt := h.layer.table.bound _ hlive
          rw [hnew] at hlt
          exact absurd hlt (lt_irrefl _)
        · rw [hkey, hkey']
      · rcases TransactionLayer.mem_live_register.mp hmem with hlive | ⟨hnew, -⟩
        · exact h.own j key' channel hold key'' hlive
        · have hlt := h.bound j key' channel hold
          rw [hnew] at hlt
          exact absurd hlt (lt_irrefl _)
    · intro j k key' key'' channel hj hk
      rcases hcreated.mp hj with ⟨rfl, -, hnew⟩ | hold <;>
        rcases hcreated.mp hk with ⟨rfl, -, hnew'⟩ | hold'
      · rfl
      · have hlt := h.bound k key'' channel hold'
        rw [hnew] at hlt
        exact absurd hlt (lt_irrefl _)
      · have hlt := h.bound j key' channel hold
        rw [hnew'] at hlt
        exact absurd hlt (lt_irrefl _)
      · exact h.channel j k key' key'' channel hold hold'
    · intro a ha j hj
      rw [List.length_set]
      exact h.arrivals a ha j hj
    · intro p hp
      rw [hlength]
      exact Nat.lt_succ_of_lt (h.inChannel p hp)
  · rw [heq]
    exact h

/-- To drop the future of `send` keeps the invariant. -/
theorem Ok.abandon {w : SendingLayer} (h : w.Ok) (i : Nat) : (w.abandon i).Ok := by
  rcases abandon_cases i w with ⟨key, hs, heq⟩ | heq
  · rw [heq]
    have hi : i < w.sent.length := (List.getElem?_eq_some_iff.mp hs).1
    -- the request that is given up had no transaction yet
    have hcreated : ∀ {j key' channel},
        (w.sent.set i ⟨key, .abandoned⟩)[j]? = some ⟨key', .created channel⟩ ↔
          w.Created j key' channel := by
      intro j key' channel
      rw [getElem?_set_eq_some_iff hi]
      constructor
      · rintro (⟨-, hne⟩ | ⟨-, hold⟩)
        · cases hne
        · exact hold
      · refine fun hc => .inr ⟨fun hji => ?_, hc⟩
        rw [Created, hji, hs] at hc
        cases hc
    refine ⟨h.layer, ?_, ?_, ?_, ?_, ?_, ?_, h.inChannel⟩
    · intro j s hj
      rcases (getElem?_set_eq_some_iff hi).mp hj with ⟨rfl, rfl⟩ | ⟨-, hold⟩
      · exact h.made j ⟨key, .creating⟩ hs
      · exact h.made j s hold
    · intro channel key' hmem hrole
      obtain ⟨j, hj⟩ := h.owner channel key' hmem hrole
      exact ⟨j, hcreated.mpr hj⟩
    · exact fun j key' channel hj => h.bound j key' channel (hcreated.mp hj)
    · exact fun j key' channel hj => h.own j key' channel (hcreated.mp hj)
    · exact fun j k key' key'' channel hj hk =>
        h.channel j k key' key'' channel (hcreated.mp hj) (hcreated.mp hk)
    · intro a ha j hj
      rw [List.length_set]
      exact h.arrivals a ha j hj
  · rw [heq]
    exact h

/-- A response keeps the invariant: it changes neither the table nor what was sent. -/
theorem Ok.arrive {w : SendingLayer} (h : w.Ok) (takes : IncomingResponse → Bool)
    (res : IncomingResponse) : (w.arrive takes res).Ok := by
  have harrivals : ∀ a ∈ w.arrivals ++ [⟨res, w.answered res⟩], ∀ i ∈ a.requests,
      i < w.sent.length := by
    intro a ha i hi
    rcases List.mem_append.mp ha with hold | hnew
    · exact h.arrivals a hold i hi
    · rw [List.mem_singleton.mp hnew] at hi
      exact List.mem_range.mp (List.mem_filter.mp hi).1
  rcases arrive_cases takes res w with ⟨key, channel, -, -, hentry, heq⟩ | ⟨-, heq⟩
  · rw [heq]
    have hlayer : TransactionLayer.DeliveriesOk { w.layer with
        deliveries := w.layer.deliveries ++ [⟨channel, .response res⟩] } := by
      refine ⟨h.layer.table.of_same rfl rfl rfl, fun d hd => ?_⟩
      rcases List.mem_append.mp hd with hold | hnew
      · exact h.layer.bound d hold
      · rw [List.mem_singleton.mp hnew]
        exact h.layer.table.bound _ (h.layer.table.entry key channel hentry)
    exact h.of_layer rfl hlayer (le_refl _) (fun _ _ => .inl) harrivals h.inChannel
  · rw [heq]
    exact h.of_layer rfl h.layer (le_refl _) (fun _ _ => .inl) harrivals h.inChannel

/-- A step that is left to the layer. -/
def IsLayerStep : SendingEvent → Prop
  | .layer (.send _ _) | .layer (.incoming (.response _)) | .layer (.poll _) => False
  | .layer _ => True
  | .addTransaction _ | .abandon _ => False

/-- A step that is left to the layer changes the layer only. -/
theorem step_layer (takes : IncomingResponse → Bool) (w : SendingLayer) {e : LayerEvent}
    (h : IsLayerStep (.layer e)) :
    step takes w (.layer e) = { w with layer := w.layer.step e } := by
  cases e with
  | send generated outgoing => cases h
  | poll i => cases h
  | incoming msg =>
    cases msg with
    | response res => cases h
    | request r => rfl
  | _ => rfl

/-- **What every step keeps.** -/
theorem Ok.step {w : SendingLayer} (h : w.Ok) (takes : IncomingResponse → Bool)
    (e : SendingEvent) : (step takes w e).Ok := by
  have hlayer : ∀ e, (∀ generated outgoing, e ≠ LayerEvent.send generated outgoing) →
      Ok { w with layer := w.layer.step e } := by
    intro e he
    refine h.of_layer rfl (h.layer.step e) (TransactionLayer.length_le_step w.layer e)
      (fun _ _ => TransactionLayer.mem_live_step he) h.arrivals fun p hp => ?_
    exact lt_of_lt_of_le (h.inChannel p hp) (TransactionLayer.length_le_step w.layer e)
  cases e with
  | addTransaction i => exact h.addTransaction i
  | abandon i => exact h.abandon i
  | layer e =>
    by_cases he : IsLayerStep (.layer e)
    · rw [step_layer takes w he]
      refine hlayer e fun generated outgoing heq => ?_
      rw [heq] at he
      exact he
    · -- the three steps that this level adds to
      cases e with
      | send generated outgoing => exact h.transmit generated outgoing
      | incoming msg =>
        cases msg with
        | response res => exact h.arrive takes res
        | request r => exact absurd trivial he
      | poll i =>
        have hpoll := hlayer (.poll i) (fun _ _ => LayerEvent.noConfusion)
        refine hpoll.of_layer rfl hpoll.layer (le_refl _) (fun _ _ => .inl) hpoll.arrivals ?_
        intro p hp
        rcases List.mem_append.mp hp with hold | hnew
        · exact hpoll.inChannel p hold
        · obtain ⟨d, hd, rfl⟩ := TransactionLayer.put_subset i w.layer p hnew
          show d.channel < (w.layer.poll i).channels.length
          rw [(TransactionLayer.poll_frame i w.layer).2.2]
          exact h.layer.bound d hd
      | fromRequest _ => exact absurd trivial he
      | drop _ => exact absurd trivial he
      | dropReceiver _ => exact absurd trivial he
      | recv _ => exact absurd trivial he

/-! ### What a run of such steps keeps -/

/-- No two open transactions have the same key, each of them is found by its key, and what is on
    its way to one gets there. -/
structure Routed (w : SendingLayer) : Prop where
  keys : ∀ i j key, w.Open i key → w.Open j key → i = j
  entry : ∀ i key channel, w.Created i key channel → (channel, key) ∈ w.layer.live →
    w.layer.plugin.getEntry key = some channel
  cookie : ∀ i key, w.Open i key →
    ∃ branch, key.branch = some branch ∧ rfc3261BranchId.toList <+: branch.toList
  alive : ∀ i key channel, w.Created i key channel →
    ∀ d ∈ w.layer.deliveries, d.channel = channel → ¬ w.layer.Gone channel

/-- At the start there is nothing open that could share a key. -/
theorem routed_start : Routed {} where
  keys _ _ _ h := by
    obtain ⟨_, hs, -⟩ := h
    cases hs
  entry _ _ _ h := nomatch h
  cookie _ _ h := by
    obtain ⟨_, hs, -⟩ := h
    cases hs
  alive _ _ _ h := nomatch h

/-- What opens no transaction keeps their keys. -/
theorem Routed.mono {w w' : SendingLayer} (h : w.Routed)
    (hopen : ∀ i key, w'.Open i key → w.Open i key)
    (hentry : ∀ i key channel, w'.Created i key channel → (channel, key) ∈ w'.layer.live →
      w'.layer.plugin.getEntry key = some channel)
    (halive : ∀ i key channel, w'.Created i key channel →
      ∀ d ∈ w'.layer.deliveries, d.channel = channel → ¬ w'.layer.Gone channel) : w'.Routed where
  keys i j key hi hj := h.keys i j key (hopen i key hi) (hopen j key hj)
  entry := hentry
  cookie i key hi := h.cookie i key (hopen i key hi)
  alive := halive

/-- What keeps the sent requests, the table and the transactions keeps what is open. -/
theorem Routed.of_same {w w' : SendingLayer} (h : w.Routed) (hsent : w'.sent = w.sent)
    (hlive : w'.layer.live = w.layer.live) (hplugin : w'.layer.plugin = w.layer.plugin)
    (halive : ∀ i key channel, w.Created i key channel →
      ∀ d ∈ w'.layer.deliveries, d.channel = channel → ¬ w'.layer.Gone channel) : w'.Routed := by
  refine h.mono ?_ ?_ ?_
  · intro i key hi
    rw [Open, hsent, hlive] at hi
    exact hi
  · intro i key channel hc hmem
    rw [Created, hsent] at hc
    rw [hlive] at hmem
    rw [hplugin]
    exact h.entry i key channel hc hmem
  · intro i key channel hc
    rw [Created, hsent] at hc
    exact halive i key channel hc

/-- A request under a branch that no open one has shares its key with none. -/
theorem Routed.transmit {w : SendingLayer} (h : w.Routed) {generated : String}
    {outgoing : OutgoingRequest} {takes : IncomingResponse → Bool}
    (hcond : w.Registers takes (.layer (.send generated outgoing))) :
    (w.transmit generated outgoing).Routed := by
  rcases transmit_cases generated outgoing w with ⟨c, hc, heq⟩ | heq
  · rw [heq]
    obtain ⟨hcookie, hfresh⟩ := hcond c hc
    have hopen : ∀ i key,
        Open { w with sent := w.sent ++ [{ key := c.key }] } i key →
          w.Open i key ∨ i = w.sent.length ∧ key = c.key := by
      rintro i key ⟨s, hs, rfl, hisOpen⟩
      rcases getElem?_concat_eq_some_iff.mp hs with hold | ⟨hi, rfl⟩
      · exact .inl ⟨s, hold, rfl, hisOpen⟩
      · exact .inr ⟨hi, rfl⟩
    refine ⟨?_, ?_, ?_, ?_⟩
    · -- the new key is no other request's
      intro i j key hi hj
      rcases hopen i key hi with hold | ⟨hnew, hkey⟩ <;>
        rcases hopen j key hj with hold' | ⟨hnew', hkey'⟩
      · exact h.keys i j key hold hold'
      · rw [hkey'] at hold
        exact absurd hold (hfresh i)
      · rw [hkey] at hold'
        exact absurd hold' (hfresh j)
      · rw [hnew, hnew']
    · exact fun i key channel hi => h.entry i key channel (created_append.mp hi)
    · intro i key hi
      rcases hopen i key hi with hold | ⟨-, rfl⟩
      · exact h.cookie i key hold
      · exact hcookie
    · exact fun i key channel hi => h.alive i key channel (created_append.mp hi)
  · rw [heq]
    exact h

/-- When the transaction is added, the table finds it by the key of its request. -/
theorem Routed.addTransaction {w : SendingLayer} (hok : w.Ok) (h : w.Routed) (i : Nat) :
    (w.addTransaction i).Routed := by
  rcases addTransaction_cases i w with ⟨key, hs, heq⟩ | heq
  · rw [heq]
    have hi : i < w.sent.length := (List.getElem?_eq_some_iff.mp hs).1
    have hcreating : w.Open i key := ⟨_, hs, rfl, rfl⟩
    refine h.mono ?_ ?_ ?_
    · rintro j key' ⟨s, hj, rfl, hisOpen⟩
      rcases (getElem?_set_eq_some_iff hi).mp hj with ⟨rfl, rfl⟩ | ⟨-, hold⟩
      · exact hcreating
      · refine ⟨s, hold, rfl, ?_⟩
        obtain ⟨key', status⟩ := s
        cases status with
        | creating => rfl
        | abandoned => exact hisOpen
        | created channel =>
          -- its channel is an old one
          have hmem := of_decide_eq_true hisOpen
          rcases TransactionLayer.mem_live_register.mp hmem with hlive | ⟨hnew, -⟩
          · exact decide_eq_true hlive
          · have hlt := hok.bound j key' channel hold
            rw [hnew] at hlt
            exact absurd hlt (lt_irrefl _)
    · intro j key' channel hj hmem
      rcases (getElem?_set_eq_some_iff hi).mp hj with ⟨-, hnew⟩ | ⟨hne, hold⟩
      · injection hnew with hkey hstatus
        injection hstatus with hchannel
        rw [← hkey, ← hchannel]
        exact TsxPlugin.getEntry_addTransaction_self _ _ _
      · have hlive : (channel, key') ∈ w.layer.live := by
          rcases TransactionLayer.mem_live_register.mp hmem with hlive | ⟨hnew, -⟩
          · exact hlive
          · have hlt := hok.bound j key' channel hold
            rw [hnew] at hlt
            exact absurd hlt (lt_irrefl _)
        -- two open transactions do not share a key
        have hkey : key' ≠ key := by
          rintro rfl
          exact hne (h.keys j i key' (open_iff.mpr (.inr ⟨channel, hold, hlive⟩)) hcreating)
        exact (TsxPlugin.getEntry_addTransaction_of_ne hkey _ _).trans
          (h.entry j key' channel hold hlive)
    · intro j key' channel hj d hd hchannel
      have hbound : d.channel < w.layer.channels.length := hok.layer.bound d hd
      rcases (getElem?_set_eq_some_iff hi).mp hj with ⟨-, hnew⟩ | ⟨-, hold⟩
      · injection hnew with _ hstatus
        injection hstatus with hnew
        rw [hchannel, ← hnew] at hbound
        exact absurd hbound (lt_irrefl _)
      · rw [hchannel] at hbound
        show ¬ (w.layer.register key).Gone channel
        rw [TransactionLayer.gone_register_iff hbound]
        exact h.alive j key' channel hold d hd hchannel
  · rw [heq]
    exact h

/-- A request whose future was dropped is not open any more, and the others keep their entries. -/
theorem Routed.abandon {w : SendingLayer} (h : w.Routed) (i : Nat) : (w.abandon i).Routed := by
  rcases abandon_cases i w with ⟨key, hs, heq⟩ | heq
  · rw [heq]
    have hi : i < w.sent.length := (List.getElem?_eq_some_iff.mp hs).1
    have hcreated : ∀ {j key' channel},
        (w.sent.set i ⟨key, .abandoned⟩)[j]? = some ⟨key', .created channel⟩ →
          w.Created j key' channel := by
      intro j key' channel hj
      rcases (getElem?_set_eq_some_iff hi).mp hj with ⟨-, hne⟩ | ⟨-, hold⟩
      · cases hne
      · exact hold
    refine h.mono ?_ ?_ ?_
    · rintro j key' ⟨s, hj, rfl, hisOpen⟩
      rcases (getElem?_set_eq_some_iff hi).mp hj with ⟨-, rfl⟩ | ⟨-, hold⟩
      · cases hisOpen
      · exact ⟨s, hold, rfl, hisOpen⟩
    · exact fun j key' channel hj => h.entry j key' channel (hcreated hj)
    · exact fun j key' channel hj => h.alive j key' channel (hcreated hj)
  · rw [heq]
    exact h

/-- The transaction that a response is found for is the one of the request that it answers. -/
theorem created_of_entry {w : SendingLayer} (hok : w.Ok) {res : IncomingResponse}
    {key : TransactionKey} {channel : ChannelId} (hkey : TransactionKey.fromResponse res = some key)
    (hentry : w.layer.plugin.getEntry key = some channel) :
    ∃ i, w.Created i key channel ∧ w.Open i key := by
  have hlive : (channel, key) ∈ w.layer.live := hok.layer.table.entry key channel hentry
  obtain ⟨i, hi⟩ := hok.owner channel key hlive (TransactionKey.role_of_fromIncomingInfo hkey)
  exact ⟨i, hi, open_iff.mpr (.inr ⟨channel, hi, hlive⟩)⟩

/-- A request has at most one transaction: the place tells its key and its channel. -/
theorem Created.inj {w : SendingLayer} {i : Nat} {key key' : TransactionKey}
    {channel channel' : ChannelId} (h : w.Created i key channel)
    (h' : w.Created i key' channel') : key = key' ∧ channel = channel' := by
  have heq := Option.some.inj (h.symm.trans h')
  injection heq with hkey hstatus
  injection hstatus with hchannel
  exact ⟨hkey, hchannel⟩

/-- A response that arrives while the transactions it answers are in the table goes to their
    channels. -/
theorem Routed.arrive {w : SendingLayer} (hok : w.Ok) (h : w.Routed)
    {takes : IncomingResponse → Bool} {res : IncomingResponse}
    (hcond : w.Registers takes (.layer (.incoming (.response res)))) :
    (w.arrive takes res).Routed := by
  rcases arrive_cases takes res w with ⟨key, channel, -, hkey, hentry, heq⟩ | ⟨-, heq⟩
  · rw [heq]
    obtain ⟨j, hj, hopen⟩ := created_of_entry hok hkey hentry
    obtain ⟨-, channel', hj', hthere⟩ := hcond key j (fromResponse_eq_some_iff.mp hkey).1 hopen
    obtain ⟨-, rfl⟩ := hj.inj hj'
    refine h.of_same rfl rfl rfl fun i key' channel' hi d hd hchannel => ?_
    rcases List.mem_append.mp hd with hold | hnew
    · exact h.alive i key' channel' hi d hold hchannel
    · rw [List.mem_singleton.mp hnew] at hchannel
      rw [← hchannel]
      exact hthere
  · rw [heq]
    exact h.of_same rfl rfl rfl h.alive

/-- A request is not looked up to the channel of a client transaction. -/
theorem ne_of_request {w : SendingLayer} (hok : w.Ok) {r : IncomingRequest} {key : TransactionKey}
    {channel : ChannelId} (hkey : IncomingMessage.key (.request r) = some key)
    (hentry : w.layer.plugin.getEntry key = some channel) {i : Nat} {key' : TransactionKey}
    {channel' : ChannelId} (hi : w.Created i key' channel') : channel ≠ channel' := by
  rintro rfl
  have hlive : (channel, key) ∈ w.layer.live := hok.layer.table.entry key channel hentry
  have hclient : key'.role = some .uac := hok.role hi
  have hserver : key.role = some .uas := TransactionKey.role_of_fromIncomingInfo hkey
  rw [hok.own i key' channel hi key hlive, hclient] at hserver
  exact absurd hserver (by decide)

/-- To drop a transaction removes its own entry, since no other open one has its key. -/
theorem Routed.drop {w : SendingLayer} (hok : w.Ok) (h : w.Routed) (id : ChannelId) :
    Routed { w with layer := w.layer.drop id } := by
  rcases TransactionLayer.drop_cases id w.layer with ⟨t, ht, rfl, hdrop⟩ | ⟨-, hdrop⟩
  · rw [hdrop]
    refine h.mono ?_ ?_ h.alive
    · rintro i key ⟨s, hs, rfl, hisOpen⟩
      refine ⟨s, hs, rfl, ?_⟩
      obtain ⟨key, status⟩ := s
      cases status with
      | creating => rfl
      | abandoned => exact hisOpen
      | created channel =>
        have hmem := TransactionLayer.mem_filter_ne.mp (of_decide_eq_true hisOpen)
        exact decide_eq_true hmem.1
    · intro i key channel hi hmem
      obtain ⟨hlive, hne⟩ := TransactionLayer.mem_filter_ne.mp hmem
      -- the dropped transaction has another key, for this one is open too
      have hkey : key ≠ t.2 := by
        rintro rfl
        obtain ⟨j, hj⟩ := hok.owner t.1 t.2 ht (hok.role hi)
        have hopen : w.Open i t.2 := open_iff.mpr (.inr ⟨channel, hi, hlive⟩)
        have hopen' : w.Open j t.2 := open_iff.mpr (.inr ⟨t.1, hj, ht⟩)
        rw [← h.keys i j t.2 hopen hopen'] at hj
        exact hne (hi.inj hj).2
      exact (TsxPlugin.getEntry_removeTransaction_of_ne hkey _).trans (h.entry i key channel hi hlive)
  · rw [hdrop]
    exact h

/-- A server transaction registers a key of its own side, which no client transaction has. -/
theorem Routed.fromRequest {w : SendingLayer} (hok : w.Ok) (h : w.Routed) {key : TransactionKey}
    (hkey : key.role = some .uas) : Routed { w with layer := w.layer.register key } := by
  have hlive : ∀ {i key' channel}, w.Created i key' channel →
      (channel, key') ∈ (w.layer.register key).live → (channel, key') ∈ w.layer.live := by
    intro i key' channel hi hmem
    rcases TransactionLayer.mem_live_register.mp hmem with hold | ⟨hnew, -⟩
    · exact hold
    · have hlt := hok.bound i key' channel hi
      rw [hnew] at hlt
      exact absurd hlt (lt_irrefl _)
  refine h.mono ?_ ?_ ?_
  · intro i key' hi
    refine open_iff.mpr ((open_iff.mp hi).imp_right ?_)
    rintro ⟨channel, hc, hmem⟩
    exact ⟨channel, hc, hlive hc hmem⟩
  · intro i key' channel hi hmem
    have hne : key' ≠ key := by
      -- the new entry is that of a server transaction
      rintro rfl
      have hclient : key'.role = some .uac := hok.role hi
      rw [hkey] at hclient
      exact absurd hclient (by decide)
    exact (TsxPlugin.getEntry_addTransaction_of_ne hne _ _).trans
      (h.entry i key' channel hi (hlive hi hmem))
  · intro i key' channel hi d hd hchannel
    show ¬ (w.layer.register key).Gone channel
    rw [TransactionLayer.gone_register_iff (hok.bound i key' channel hi)]
    exact h.alive i key' channel hi d hd hchannel

/-- **What every step that meets the conditions keeps.** -/
theorem Routed.step {w : SendingLayer} (hok : w.Ok) (h : w.Routed)
    {takes : IncomingResponse → Bool} {e : SendingEvent} (hcond : w.Registers takes e) :
    (step takes w e).Routed := by
  cases e with
  | addTransaction i => exact h.addTransaction hok i
  | abandon i => exact h.abandon i
  | layer e =>
    cases e with
    | send generated outgoing => exact h.transmit hcond
    | drop id => exact h.drop hok id
    | fromRequest request =>
      simp only [SendingLayer.step, TransactionLayer.step]
      split
      · next s hs => exact h.fromRequest hok (ServerTransaction.role_of_fromRequest hs)
      · exact h
    | dropReceiver id =>
      -- a receiver that goes away is one the condition allows
      refine h.of_same rfl rfl rfl fun i key channel hi d hd hchannel hgone => ?_
      have hbound := hok.bound i key channel hi
      rcases (TransactionLayer.gone_dropReceiver_iff hbound).mp hgone with rfl | hwas
      · exact hcond i key hi d hd hchannel
      · exact h.alive i key channel hi d hd hchannel hwas
    | recv id =>
      refine h.of_same rfl rfl rfl fun i key channel hi d hd hchannel hgone => ?_
      exact h.alive i key channel hi d hd hchannel ((TransactionLayer.gone_recv_iff id _).mp hgone)
    | poll j =>
      obtain ⟨hplugin, hlive, -⟩ := TransactionLayer.poll_frame j w.layer
      refine h.of_same rfl hlive hplugin fun i key channel hi d hd hchannel hgone => ?_
      exact h.alive i key channel hi d (TransactionLayer.deliveries_poll_subset j w.layer d hd)
        hchannel ((TransactionLayer.gone_poll_iff j _).mp hgone)
    | incoming msg =>
      cases msg with
      | response res => exact h.arrive hok hcond
      | request r =>
        -- a request is delivered to a server transaction, none of those in question
        show Routed { w with layer := w.layer.incoming (.request r) }
        rcases TransactionLayer.incoming_cases (.request r) w.layer with
          ⟨key', channel', hkey, hentry, hincoming⟩ | ⟨-, hincoming⟩
        · rw [hincoming]
          refine h.of_same rfl rfl rfl fun i key channel hi d hd hchannel => ?_
          rcases List.mem_append.mp hd with hold | hnew
          · exact h.alive i key channel hi d hold hchannel
          · rw [List.mem_singleton.mp hnew] at hchannel
            exact absurd hchannel (ne_of_request hok hkey hentry hi)
        · rw [hincoming]
          exact h

/-! ### Nothing is lost -/

/-- At the start nothing has arrived and nothing has been delivered. -/
theorem delivered_start : Delivered {} := fun _ _ h => nomatch h

/-- What concerns no sent request loses nothing. -/
theorem Delivered.of_same {w w' : SendingLayer} (h : w.Delivered) (hsent : w'.sent = w.sent)
    (harrivals : w'.arrivals = w.arrivals)
    (hreached : ∀ i key channel, w.Created i key channel →
      (w.reached channel).Perm (w'.reached channel)) : w'.Delivered := by
  intro i s hs
  rw [hsent] at hs
  have hold := h i s hs
  rw [arrived, harrivals]
  obtain ⟨key, status⟩ := s
  cases status with
  | creating => exact hold
  | abandoned => exact hold
  | created channel => exact hold.trans (hreached i key channel hs)

/-- A delivery to another channel does not matter to this one. -/
theorem reached_append_of_ne {deliveries : List Delivery} {d : Delivery} {channel : ChannelId}
    (h : d.channel ≠ channel) :
    (deliveries ++ [d]).filter (fun d => d.channel = channel) =
      deliveries.filter fun d => d.channel = channel := by
  rw [List.filter_append, List.filter_cons_of_neg (by simpa using h), List.filter_nil,
    List.append_nil]

/-- Nothing has arrived for a request that was not sent. -/
theorem arrived_of_length_le {w : SendingLayer} (hok : w.Ok) {i : Nat} (h : w.sent.length ≤ i) :
    w.arrived i = [] := by
  unfold arrived
  rw [List.map_eq_nil_iff, List.filter_eq_nil_iff]
  intro a ha hi
  exact absurd (hok.arrivals a ha i (of_decide_eq_true hi)) (Nat.not_lt.mpr h)

/-- Nothing has gone to a channel that there is not yet. -/
theorem reached_of_length_le {w : SendingLayer} (hok : w.Ok) {channel : ChannelId}
    (h : w.layer.channels.length ≤ channel) : w.reached channel = [] := by
  unfold reached
  rw [List.append_eq_nil_iff, List.map_eq_nil_iff, List.filter_eq_nil_iff, List.map_eq_nil_iff,
    List.filter_eq_nil_iff]
  constructor
  · intro d hd hchannel
    have hlt := hok.layer.bound d hd
    rw [of_decide_eq_true hchannel] at hlt
    exact absurd hlt (Nat.not_lt.mpr h)
  · intro p hp hchannel
    have hlt := hok.inChannel p hp
    rw [of_decide_eq_true hchannel] at hlt
    exact absurd hlt (Nat.not_lt.mpr h)

/-- A new request has got no response, and the others have what they had. -/
theorem Delivered.transmit {w : SendingLayer} (hok : w.Ok) (h : w.Delivered) (generated : String)
    (outgoing : OutgoingRequest) : (w.transmit generated outgoing).Delivered := by
  rcases transmit_cases generated outgoing w with ⟨c, -, heq⟩ | heq
  · rw [heq]
    intro i s hs
    rcases getElem?_concat_eq_some_iff.mp hs with hold | ⟨rfl, rfl⟩
    · exact h i s hold
    · show (w.arrived _).Perm []
      rw [arrived_of_length_le hok (le_refl _)]
  · rw [heq]
    exact h

/-- A new transaction has an empty channel, and its request has got no response. -/
theorem Delivered.addTransaction {w : SendingLayer} (hok : w.Ok) (h : w.Delivered) (i : Nat) :
    (w.addTransaction i).Delivered := by
  rcases addTransaction_cases i w with ⟨key, hs, heq⟩ | heq
  · rw [heq]
    have hi : i < w.sent.length := (List.getElem?_eq_some_iff.mp hs).1
    intro j s hj
    rcases (getElem?_set_eq_some_iff hi).mp hj with ⟨rfl, rfl⟩ | ⟨-, hold⟩
    · -- nothing has arrived yet, and nothing can be in the new channel
      show (w.arrived j).Perm (w.reached w.layer.channels.length)
      rw [reached_of_length_le hok (le_refl _)]
      exact h j _ hs
    · exact h j s hold
  · rw [heq]
    exact h

/-- The request whose future was dropped counts no more, and the others have what they had. -/
theorem Delivered.abandon {w : SendingLayer} (h : w.Delivered) (i : Nat) :
    (w.abandon i).Delivered := by
  rcases abandon_cases i w with ⟨key, hs, heq⟩ | heq
  · rw [heq]
    have hi : i < w.sent.length := (List.getElem?_eq_some_iff.mp hs).1
    intro j s hj
    rcases (getElem?_set_eq_some_iff hi).mp hj with ⟨rfl, rfl⟩ | ⟨-, hold⟩
    · exact h j _ hs
    · exact h j s hold
  · rw [heq]
    exact h

/-- What a poll does to the deliveries. -/
theorem poll_put_cases (i : Nat) (w : TransactionLayer) :
    (∃ d, w.deliveries[i]? = some d ∧ w.put i = [(d.channel, d.msg)] ∧
        (w.poll i).deliveries = w.deliveries.eraseIdx i) ∨
      (∃ d, w.deliveries[i]? = some d ∧ w.Gone d.channel ∧ w.put i = [] ∧
        (w.poll i).deliveries = w.deliveries.eraseIdx i) ∨
      w.put i = [] ∧ (w.poll i).deliveries = w.deliveries := by
  unfold TransactionLayer.put TransactionLayer.poll
  cases hd : w.deliveries[i]? with
  | none => exact .inr (.inr ⟨rfl, rfl⟩)
  | some d =>
    cases hc : w.channels[d.channel]? with
    | none =>
      refine .inr (.inr ?_)
      simp only [hc]
      exact ⟨trivial, trivial⟩
    | some c =>
      simp only [hc]
      -- a full queue holds the delivery back, a receiver that is gone loses it
      by_cases hreceiver : c.hasReceiver = true
      · by_cases hroom : c.queue.length < channelCapacity
        · refine .inl ⟨d, rfl, ?_, ?_⟩
          · rw [if_pos ⟨hreceiver, hroom⟩]
          · rw [if_pos hreceiver, if_pos hroom]
        · refine .inr (.inr ⟨?_, ?_⟩)
          · rw [if_neg fun h => hroom h.2]
          · rw [if_pos hreceiver, if_neg hroom]
      · refine .inr (.inl ⟨d, rfl, ?_, ?_, ?_⟩)
        · rw [TransactionLayer.Gone, hc, Option.map_some, Bool.eq_false_of_not_eq_true hreceiver]
        · rw [if_neg fun h => hreceiver h.1]
        · rw [if_neg hreceiver]

/-- A delivery that is taken out of the list is still among the rest and itself. -/
theorem filter_eraseIdx_perm {l : List Delivery} {i : Nat} {d : Delivery} (h : l[i]? = some d)
    (channel : ChannelId) :
    ((d :: l.eraseIdx i).filter fun d => d.channel = channel).Perm
      (l.filter fun d => d.channel = channel) := by
  obtain ⟨hi, rfl⟩ := List.getElem?_eq_some_iff.mp h
  exact (List.getElem_cons_eraseIdx_perm hi).filter _

/-- A poll moves a message from its way into the channel, which delivers it. -/
theorem Delivered.poll {w : SendingLayer} (hrouted : w.Routed) (h : w.Delivered) (j : Nat) :
    Delivered { w with layer := w.layer.poll j, inChannel := w.inChannel ++ w.layer.put j } := by
  refine h.of_same rfl rfl fun i key channel hi => ?_
  unfold reached
  dsimp only
  rcases poll_put_cases j w.layer with
    ⟨d, hd, hput, heq⟩ | ⟨d, hd, hgone, hput, heq⟩ | ⟨hput, heq⟩
  · rw [hput, heq]
    have hperm := (filter_eraseIdx_perm hd channel).map Delivery.msg
    refine (hperm.symm.append_right _).trans ?_
    by_cases hchannel : d.channel = channel
    · -- the message goes from the one list to the other
      rw [List.filter_cons_of_pos (by simpa using hchannel), List.map_cons, List.filter_append,
        List.map_append, List.filter_cons_of_pos (by simpa using hchannel), List.filter_nil,
        ← List.append_assoc]
      exact (List.perm_append_singleton _ _).symm
    · rw [List.filter_cons_of_neg (by simpa using hchannel), List.filter_append,
        List.filter_cons_of_neg (by simpa using hchannel), List.filter_nil, List.append_nil]
  · rw [hput, heq, List.append_nil]
    -- the receivers of client transactions are there
    have hchannel : d.channel ≠ channel := by
      intro hchannel
      rw [hchannel] at hgone
      exact hrouted.alive i key channel hi d (List.mem_of_getElem? hd) hchannel hgone
    have hperm := (filter_eraseIdx_perm hd channel).map Delivery.msg
    rw [List.filter_cons_of_neg (by simpa using hchannel)] at hperm
    exact hperm.symm.append_right _
  · rw [hput, heq, List.append_nil]

/-- What has arrived for a request, with one more response. -/
theorem arrived_append {w : SendingLayer} {layer : TransactionLayer} {a : Arrival} (i : Nat) :
    arrived i { w with layer := layer, arrivals := w.arrivals ++ [a] } =
      w.arrived i ++ if i ∈ a.requests then [.response a.response] else [] := by
  unfold arrived
  dsimp only
  rw [List.filter_append, List.map_append]
  by_cases hi : i ∈ a.requests
  · rw [if_pos hi, List.filter_cons_of_pos (by simpa using hi), List.filter_nil, List.map_singleton]
  · rw [if_neg hi, List.filter_cons_of_neg (by simpa using hi), List.filter_nil, List.map_nil]

/-- A response that answers an open request, and arrives as it should, finds its transaction. -/
theorem exists_entry {w : SendingLayer} (h : w.Routed) {takes : IncomingResponse → Bool}
    {res : IncomingResponse} (hcond : w.Registers takes (.layer (.incoming (.response res))))
    {i : Nat} (hi : i ∈ w.answered res) :
    takes res = false ∧ ∃ key channel, TransactionKey.fromResponse res = some key ∧
      w.layer.plugin.getEntry key = some channel := by
  obtain ⟨key, hanswers, hopen⟩ := mem_answered.mp hi
  obtain ⟨htakes, channel, hcreated, -⟩ := hcond key i hanswers hopen
  have hkey : TransactionKey.fromResponse res = some key :=
    fromResponse_eq_some_iff.mpr ⟨hanswers, h.cookie i key hopen⟩
  rcases open_iff.mp hopen with hcreating | ⟨channel', hcreated', hlive⟩
  · have heq := Option.some.inj (hcreating.symm.trans hcreated)
    injection heq with _ hstatus
    cases hstatus
  · exact ⟨htakes, key, channel', hkey, h.entry i key channel' hcreated' hlive⟩

/-- A response goes on its way to the channels of just those requests that it answers. -/
theorem Delivered.arrive {w : SendingLayer} (hok : w.Ok) (hrouted : w.Routed) (h : w.Delivered)
    {takes : IncomingResponse → Bool} {res : IncomingResponse}
    (hcond : w.Registers takes (.layer (.incoming (.response res)))) :
    (w.arrive takes res).Delivered := by
  rcases arrive_cases takes res w with ⟨key, channel, -, hkey, hentry, heq⟩ | ⟨hnone, heq⟩
  · rw [heq]
    obtain ⟨j, hj, hopen⟩ := created_of_entry hok hkey hentry
    have hanswers : res.answers = some key := (fromResponse_eq_some_iff.mp hkey).1
    -- it answers that one request
    have hmem : ∀ i, i ∈ w.answered res ↔ i = j := by
      intro i
      rw [mem_answered]
      constructor
      · rintro ⟨key', hanswers', hopen'⟩
        rw [Option.some.inj (hanswers'.symm.trans hanswers)] at hopen'
        exact hrouted.keys i j key hopen' hopen
      · rintro rfl
        exact ⟨key, hanswers, hopen⟩
    intro i s hs
    rw [arrived_append]
    dsimp only
    by_cases hij : i = j
    · subst hij
      obtain rfl := Option.some.inj (hs.symm.trans hj)
      rw [if_pos ((hmem i).mpr rfl)]
      have hold : (w.arrived i).Perm (w.reached channel) := h i _ hs
      refine (hold.append_right _).trans ?_
      unfold reachedFor reached
      dsimp only
      rw [List.filter_append, List.filter_cons_of_pos (by simp), List.filter_nil, List.map_append,
        List.map_singleton, List.append_assoc, List.append_assoc]
      exact List.perm_append_comm.append_left _
    · rw [if_neg fun hi => hij ((hmem i).mp hi), List.append_nil]
      have hold := h i s hs
      obtain ⟨key', status⟩ := s
      cases status with
      | creating => exact hold
      | abandoned => exact hold
      | created channel' =>
        have hne : channel ≠ channel' := by
          rintro rfl
          exact hij (hok.channel i j key' key channel hs hj)
        unfold reachedFor reached
        dsimp only
        rw [reached_append_of_ne hne]
        exact hold
  · rw [heq]
    intro i s hs
    have hi : i ∉ w.answered res := by
      intro hi
      obtain ⟨htakes, key, channel, hkey, hentry⟩ := exists_entry hrouted hcond hi
      rw [hnone htakes key hkey] at hentry
      cases hentry
    rw [arrived_append i, if_neg hi, List.append_nil]
    exact h i s hs

/-- **What every step that meets the conditions delivers.** -/
theorem Delivered.step {w : SendingLayer} (hok : w.Ok) (hrouted : w.Routed) (h : w.Delivered)
    {takes : IncomingResponse → Bool} {e : SendingEvent} (hcond : w.Registers takes e) :
    (step takes w e).Delivered := by
  cases e with
  | addTransaction i => exact h.addTransaction hok i
  | abandon i => exact h.abandon i
  | layer e =>
    cases e with
    | send generated outgoing => exact h.transmit hok generated outgoing
    | poll j => exact h.poll hrouted j
    | dropReceiver id => exact h.of_same rfl rfl fun _ _ _ _ => .refl _
    | recv id => exact h.of_same rfl rfl fun _ _ _ _ => .refl _
    | drop id =>
      rcases TransactionLayer.drop_cases id w.layer with ⟨t, -, -, hdrop⟩ | ⟨-, hdrop⟩
      · refine h.of_same rfl rfl fun _ _ channel _ => ?_
        simp only [SendingLayer.step, TransactionLayer.step, hdrop]
        exact .refl _
      · simp only [SendingLayer.step, TransactionLayer.step, hdrop]
        exact h
    | fromRequest request =>
      simp only [SendingLayer.step, TransactionLayer.step]
      split
      · exact h.of_same rfl rfl fun _ _ _ _ => .refl _
      · exact h
    | incoming msg =>
      cases msg with
      | response res => exact h.arrive hok hrouted hcond
      | request r =>
        -- what arrives for a server transaction arrives for none of these
        show Delivered { w with layer := w.layer.incoming (.request r) }
        rcases TransactionLayer.incoming_cases (.request r) w.layer with
          ⟨key', channel', hkey, hentry, hincoming⟩ | ⟨-, hincoming⟩
        · rw [hincoming]
          refine h.of_same rfl rfl fun i key channel hi => ?_
          unfold reached
          dsimp only
          rw [reached_append_of_ne (ne_of_request hok hkey hentry hi)]
        · rw [hincoming]
          exact h

/-- **No response is lost.** In every run in which every request gets a branch of RFC 3261 that no
    open one has, every response arrives when the transactions of the requests it answers are in
    the table, and their receivers stay for what is on its way, the responses that arrive for a
    request all go to the channel of its transaction. -/
theorem run_delivered (takes : IncomingResponse → Bool) {es : List SendingEvent}
    (hes : Meets (step takes) (Registers takes) {} es) :
    Always (step takes) Delivered {} es := by
  have hkept : ∀ (w : SendingLayer) e, (w.Ok ∧ w.Routed ∧ w.Delivered) → Registers takes w e →
      ((step takes w e).Ok ∧ (step takes w e).Routed ∧ (step takes w e).Delivered) := by
    rintro w e ⟨hok, hrouted, h⟩ hcond
    exact ⟨hok.step takes e, hrouted.step hok hcond, h.step hok hrouted hcond⟩
  have hstart : Ok {} ∧ Routed {} ∧ Delivered {} := ⟨ok_start, routed_start, delivered_start⟩
  exact always_of_meets hkept (fun _ h => h.2.2) hstart hes

/-- A response that arrives while a transaction of its request is being created is lost. -/
theorem not_delivered_of_creating {w : SendingLayer} {i : Nat} {key : TransactionKey}
    (hi : w.sent[i]? = some ⟨key, .creating⟩) {res : IncomingResponse}
    (hanswers : res.answers = some key) (takes : IncomingResponse → Bool) :
    ¬ (w.arrive takes res).Delivered := by
  intro h
  have hmem : i ∈ w.answered res := mem_answered.mpr ⟨key, hanswers, open_iff.mpr (.inl hi)⟩
  rcases arrive_cases takes res w with ⟨_, channel, -, -, -, heq⟩ | ⟨-, heq⟩
  · rw [heq] at h
    have hperm := h i _ hi
    rw [arrived_append, if_pos hmem] at hperm
    exact List.append_ne_nil_of_right_ne_nil _ (List.cons_ne_nil _ _) hperm.eq_nil
  · rw [heq] at h
    have hperm := h i _ hi
    rw [arrived_append i, if_pos hmem] at hperm
    exact List.append_ne_nil_of_right_ne_nil _ (List.cons_ne_nil _ _) hperm.eq_nil

/-! ### The layer below -/

/-- What a step does to the layer. -/
theorem step_layer_cases {w : SendingLayer} (hok : w.Ok) (takes : IncomingResponse → Bool)
    (e : SendingEvent) :
    (step takes w e).layer = w.layer ∨ ∃ e', (step takes w e).layer = w.layer.step e' := by
  cases e with
  | abandon i =>
    refine .inl ?_
    show (w.abandon i).layer = w.layer
    rcases abandon_cases i w with ⟨key, -, heq⟩ | heq <;> rw [heq]
  | addTransaction i =>
    show (w.addTransaction i).layer = w.layer ∨ ∃ e', (w.addTransaction i).layer = w.layer.step e'
    -- the transaction that is added was made by a `send`
    rcases addTransaction_cases i w with ⟨key, hs, heq⟩ | heq
    · obtain ⟨generated, outgoing, c, hc, hkey⟩ := hok.made i _ hs
      refine .inr ⟨.send generated outgoing, ?_⟩
      rw [heq]
      simp only [TransactionLayer.step, hc]
      rw [hkey]
    · exact .inl (by rw [heq])
  | layer e =>
    by_cases he : IsLayerStep (.layer e)
    · exact .inr ⟨e, by rw [step_layer takes w he]⟩
    · cases e with
      | poll i => exact .inr ⟨.poll i, rfl⟩
      | send generated outgoing =>
        -- the request is transmitted first, and the layer hears nothing of it
        refine .inl ?_
        show (w.transmit generated outgoing).layer = w.layer
        rcases transmit_cases generated outgoing w with ⟨c, -, heq⟩ | heq <;> rw [heq]
      | incoming msg =>
        cases msg with
        | request r => exact absurd trivial he
        | response res =>
          show (w.arrive takes res).layer = w.layer ∨
            ∃ e', (w.arrive takes res).layer = w.layer.step e'
          rcases arrive_cases takes res w with ⟨key, channel, -, hkey, hentry, heq⟩ | ⟨-, heq⟩
          · refine .inr ⟨.incoming (.response res), ?_⟩
            rw [heq]
            simp only [TransactionLayer.step, TransactionLayer.incoming, IncomingMessage.key, hkey,
              hentry]
          · exact .inl (by rw [heq])
      | fromRequest _ => exact absurd trivial he
      | drop _ => exact absurd trivial he
      | dropReceiver _ => exact absurd trivial he
      | recv _ => exact absurd trivial he

/-- **A run is a run of the transaction layer**, which does not see when requests are sent. -/
theorem run_layer (takes : IncomingResponse → Bool) (es : List SendingEvent) :
    ∃ es', (run takes {} es).layer = TransactionLayer.run {} es' := by
  have hkept : ∀ (w : SendingLayer) e,
      (w.Ok ∧ ∃ es', w.layer = TransactionLayer.run {} es') →
        ((step takes w e).Ok ∧ ∃ es', (step takes w e).layer = TransactionLayer.run {} es') := by
    rintro w e ⟨hok, es', hlayer⟩
    refine ⟨hok.step takes e, ?_⟩
    rcases step_layer_cases hok takes e with heq | ⟨e', heq⟩
    · exact ⟨es', heq.trans hlayer⟩
    · refine ⟨es' ++ [e'], ?_⟩
      rw [heq, hlayer, TransactionLayer.run, TransactionLayer.run, exec_append]
      rfl
  exact (exec_invariant hkept ⟨ok_start, [], rfl⟩ es).2

/-! ### An `INVITE` -/

/-- The `INVITE` is sent, its transaction is added, and the response is delivered. -/
theorem run_delivered_invite :
    Always (step fun _ => false) Delivered {} [
      .layer (.send "z9hG4bK1" (.toLocalhost .invite false)), .addTransaction 0,
      .layer (.incoming (.response (.ofCode .ok))), .layer (.poll 0)] := by
  refine run_delivered (fun _ => false) ⟨?_, trivial, ?_, trivial, trivial⟩
  · intro c hc
    obtain rfl := Option.some.inj hc
    refine ⟨⟨"z9hG4bK1", rfl, by decide⟩, ?_⟩
    rintro i ⟨s, hs, -⟩
    cases hs
  · rintro key i - ⟨s, hs, rfl, -⟩
    cases i with
    | zero =>
      obtain rfl := Option.some.inj hs
      refine ⟨rfl, 0, rfl, ?_⟩
      unfold TransactionLayer.Gone
      decide
    | succ i => cases hs

/-- The response arrives before the transaction is added: no plugin handles it. -/
theorem not_delivered_invite :
    ¬ Delivered (run (fun _ => false) {} [
      .layer (.send "z9hG4bK1" (.toLocalhost .invite false)),
      .layer (.incoming (.response (.ofCode .ok))), .addTransaction 0]) ∧
    Endpoint.onResponse (Endpoint.pluginsWith (fun _ => false) (run (fun _ => false) {} [
      .layer (.send "z9hG4bK1" (.toLocalhost .invite false))]).layer.plugin) (.ofCode .ok) =
      .unhandled := by
  refine ⟨fun h => ?_, by decide⟩
  have hperm := h 0 _ rfl
  have hlength := hperm.length_eq
  exact absurd hlength (by decide)

end SendingLayer

end Rssip
