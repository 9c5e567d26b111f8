import Rssip.Endpoint.CreateResponse
import Rssip.Lib.Network
import Rssip.Parser.StartLines
import Rssip.Transaction.Histories

namespace Rssip

open Lib

/-!
# An endpoint with its transactions

The transactions of an endpoint, the table that leads to them, the deliveries under way, the
messages that were handed to the user and what was sent without a transaction, as one state machine.
Its clocks and tasks run in any order.

* `TransportMessage.read` — the message in a received packet;
* `Transaction`, `Peer` — a transaction, and an endpoint with all of its own;
* `Peer.step`, `Peer.receive` — a step of the endpoint, and the arrival of a packet;
* `Peer.Sound` — every transaction has heard only messages with its key, which came in packets;
* `relies_sound` — endpoints stay sound, whatever becomes of the packets between them.
-/

/-- A message with what was found out about it. -/
def SipMessage.received (info : IncomingInfo) : SipMessage → IncomingMessage
  | request r => .request ⟨r, info⟩
  | response r => .response ⟨r, info⟩

/-- The message that `process_message` makes of a packet. -/
def TransportMessage.read (message : TransportMessage) : Option IncomingMessage :=
  match SipParser.parse message.packet.data with
  | .error _ => none
  | .ok sipMessage =>
    match MandatoryHeaders.tryFrom sipMessage.headers with
    | .error _ => none
    | .ok mandatoryHeaders => some (sipMessage.received (.ofMessage mandatoryHeaders message))

namespace IncomingMessage

/-- A received message without what was found out about it. -/
def sipMessage : IncomingMessage → SipMessage
  | request r => .request r.request
  | response r => .response r.response

/-- The headers that were taken out of a message, and the packet it came in. -/
def info : IncomingMessage → IncomingInfo
  | request r => r.incomingInfo
  | response r => r.incomingInfo

end IncomingMessage

/-- What a packet was read as, it holds. -/
theorem read_eq_some {message : TransportMessage} {msg : IncomingMessage}
    (h : message.read = some msg) : ∃ mandatoryHeaders,
      SipParser.parse message.packet.data = .ok msg.sipMessage ∧
        MandatoryHeaders.tryFrom msg.sipMessage.headers = .ok mandatoryHeaders ∧
          msg.info = .ofMessage mandatoryHeaders message := by
  unfold TransportMessage.read at h
  split at h
  · cases h
  · next m hparse =>
    split at h
    · cases h
    · next mandatoryHeaders hheaders =>
      injection h with h
      cases m <;> subst h <;> exact ⟨mandatoryHeaders, hparse, hheaders, rfl⟩

/-! ### Transactions -/

/-- A transaction of an endpoint.  One that is being created has sent its request, and is not in
    the table yet. -/
inductive Transaction where
  | creating (c : ClientTransaction)
  | client (c : ClientTransaction)
  | server (s : ServerTransaction)

/-- A step of a transaction. -/
inductive TransactionEvent where
  | client (e : ClientEvent)
  | server (e : ServerEvent)

namespace TransactionEvent

/-- The message that comes into the channel with the step. -/
def message? : TransactionEvent → Option IncomingMessage
  | client (.deliver msg) | server (.deliver msg) => some msg
  | _ => none

/-- The step that closes the channel. -/
def isClose : TransactionEvent → Bool
  | client .close | server .close => true
  | _ => false

end TransactionEvent

/-- The message that is handed to the transport. -/
def ClientOutput.message? : ClientOutput → Option SipMessage
  | sent o => some (.request o.request)
  | _ => none

/-- The message that is handed to the transport. -/
def ServerOutput.message? : ServerOutput → Option SipMessage
  | sent o => some (.response o.response)
  | _ => none

namespace Transaction

/-- The key under which the transaction is found. -/
def key : Transaction → TransactionKey
  | creating c | client c => c.key
  | server s => s.transactionKey

/-- The transaction is gone. -/
def isDropped : Transaction → Bool
  | creating _ => false
  | client c => c.activity = .dropped
  | server s => s.activity = .dropped

/-- The messages in the channel that nobody has looked at. -/
def queue : Transaction → List IncomingMessage
  | creating c | client c => c.channel.rx.queue
  | server s => s.channel.queue

/-- A step of a transaction that has been created. -/
def step : Transaction → TransactionEvent → Transaction
  | client c, .client e => client (c.step e)
  | server s, .server e => server (s.step e)
  | t, _ => t

/-- A message is put into the channel. -/
def deliver (msg : IncomingMessage) (t : Transaction) : Transaction :=
  match t with
  | creating _ | client _ => t.step (.client (.deliver msg))
  | server _ => t.step (.server (.deliver msg))

/-- What a transaction has handed to the transport. -/
def spoken : Transaction → List SipMessage
  | creating c | client c => c.trace.filterMap ClientOutput.message?
  | server s => s.trace.filterMap ServerOutput.message?

/-- The messages that have come into the channel. -/
def heard : Transaction → List IncomingMessage
  | creating c | client c => c.heard
  | server s => s.heard

/-- What a transaction does it has a reason for. -/
def Honest : Transaction → Prop
  | creating c | client c => c.Honest
  | server s => s.Honest

end Transaction

/-! ### Endpoints -/

/-- The transactions of an endpoint, by their channels, the table that leads to them, the messages
    that were looked up and not delivered, and those that the user was given.  `answered` are the
    responses sent without a transaction, with their requests, and `requested` the requests. -/
structure Peer where
  plugin : TsxPlugin := {}
  transactions : List Transaction := []
  deliveries : List Delivery := []
  incoming : List IncomingMessage := []
  answered : List (IncomingRequest × OutgoingResponse) := []
  requested : List OutgoingRequest := []

/-- The steps of an endpoint.  `send` and `addTransaction` are the halves of the `send` of a client
    transaction, `fromRequest` makes a server transaction for a message that the user was given, and
    `deliver` and `refuse` end the delivery at a place.  `sendOutgoingResponse` and
    `sendOutgoingRequest` are the calls of the endpoint by those who have no transaction: a user, or
    the plugin of the dialogs with its 481. -/
inductive PeerEvent where
  | send (generated : String) (outgoing : OutgoingRequest) (now : Nat)
  | addTransaction (id : ChannelId)
  | fromRequest (n now : Nat)
  | transaction (id : ChannelId) (e : TransactionEvent)
  | deliver (i : Nat)
  | refuse (i : Nat)
  | sendOutgoingResponse (n : Nat) (response : OutgoingResponse)
  | sendOutgoingRequest (outgoing : OutgoingRequest)

/-- How a packet arrives: over which transport and from where, and whether a plugin in front of that
    of the transactions takes its message. -/
structure PacketArrival where
  transport : TransportHandle
  source : SocketAddr
  taken : Bool := false

namespace Peer

/-- The transactions' plugin, and one of the user that takes what it leaves. -/
def plugins (p : Peer) : List RegisteredPlugin :=
  [⟨.tsx p.plugin, fun _ => false⟩, ⟨.user fun _ => true, fun _ => true⟩]

/-- A transaction under a new channel. -/
def append (t : Transaction) (p : Peer) : Peer :=
  { p with transactions := p.transactions ++ [t] }

/-- There is a sender for the channel, in the table or in a delivery. -/
def hasSender (id : ChannelId) (t : Transaction) (p : Peer) : Bool :=
  p.plugin.getEntry t.key = some id || p.deliveries.any fun d => d.channel = id

/-- A transaction makes a step of its own.  The last one is its `drop`. -/
def act (id : ChannelId) (e : TransactionEvent) (p : Peer) : Peer :=
  match p.transactions[id]? with
  | none => p
  | some t =>
    -- messages come by deliveries, and a channel with a sender is not closed
    if e.message?.isSome || (e.isClose && p.hasSender id t) then p
    else
      let t' := t.step e
      let plugin :=
        if !t.isDropped && t'.isDropped then p.plugin.removeTransaction t.key else p.plugin
      { p with plugin := plugin, transactions := p.transactions.set id t' }

/-- The message of a delivery is put into the channel if there is room. -/
def deliver (i : Nat) (p : Peer) : Peer :=
  match p.deliveries[i]? with
  | none => p
  | some d =>
    match p.transactions[d.channel]? with
    | none => p
    | some t =>
      if t.queue.length < channelCapacity then
        { p with
          transactions := p.transactions.set d.channel (t.deliver d.msg)
          deliveries := p.deliveries.eraseIdx i }
      else p

/-- The receiver went with the transaction, and the message is lost. -/
def refuse (i : Nat) (p : Peer) : Peer :=
  match p.deliveries[i]? with
  | none => p
  | some d =>
    match p.transactions[d.channel]? with
    | none => p
    | some t => if t.isDropped then { p with deliveries := p.deliveries.eraseIdx i } else p

/-- One step of an endpoint.  A response sent without a transaction is one to a request that the
    user was given. -/
def step (p : Peer) : PeerEvent → Peer
  | .send generated outgoing now =>
    match ClientTransaction.send generated outgoing now with
    | some c => p.append (.creating c)
    | none => p
  | .addTransaction id =>
    match p.transactions[id]? with
    | some (.creating c) =>
      { p with
        plugin := p.plugin.addTransaction c.key id
        transactions := p.transactions.set id (.client c) }
    | _ => p
  | .fromRequest n now =>
    match p.incoming[n]? with
    | some (.request request) =>
      match ServerTransaction.fromRequest request now with
      | some s =>
        let plugin := p.plugin.addTransaction s.transactionKey p.transactions.length
        { p.append (.server s) with plugin := plugin }
      | none => p
    | _ => p
  | .transaction id e => p.act id e
  | .deliver i => p.deliver i
  | .refuse i => p.refuse i
  | .sendOutgoingResponse n response =>
    match p.incoming[n]? with
    | some (.request request) => { p with answered := p.answered ++ [(request, response)] }
    | _ => p
  | .sendOutgoingRequest outgoing => { p with requested := p.requested ++ [outgoing] }

/-- A packet arrives. -/
def receive (message : TransportMessage) (taken : Bool) (p : Peer) : Peer :=
  match message.read with
  | none => p
  | some msg =>
    if taken then { p with incoming := p.incoming ++ [msg] }
    else
      match TransportLayer.processMessage p.plugins message with
      | .transaction channel => { p with deliveries := p.deliveries ++ [⟨channel, msg⟩] }
      | .user => { p with incoming := p.incoming ++ [msg] }
      | _ => p

/-- What was sent without a transaction. -/
def stateless (p : Peer) : List SipMessage :=
  p.answered.map (fun a => .response a.2.response) ++ p.requested.map fun o => .request o.request

/-- The packets that an endpoint has handed to its transports. -/
def packets (p : Peer) : List Bytes :=
  (p.transactions.flatMap fun t => t.spoken.filterMap encode) ++ p.stateless.filterMap encode

end Peer

/-! ### What holds of an endpoint -/

/-- The message came in a genuine packet. -/
def Arrived (Genuine : Bytes → Prop) (msg : IncomingMessage) : Prop :=
  ∃ message : TransportMessage, Genuine message.packet.data ∧ message.read = some msg

/-- A message that came in a genuine packet still did when more packets are genuine. -/
theorem Arrived.mono {Genuine Genuine' : Bytes → Prop} {msg : IncomingMessage}
    (hmsg : Arrived Genuine msg) (h : ∀ packet, Genuine packet → Genuine' packet) :
    Arrived Genuine' msg := by
  obtain ⟨message, hgenuine, hread⟩ := hmsg
  exact ⟨message, h _ hgenuine, hread⟩

/-- How a transaction has started: a client transaction with the key of its request, and a server
    transaction with the key of a request that came in. -/
def Transaction.Started (Genuine : Bytes → Prop) : Transaction → Prop
  | .creating c | .client c => ∃ branch, c.request.branch = some branch ∧
    c.key = TransactionKey.newKey3261 .uac c.request.method branch
  | .server s => Arrived Genuine (.request s.request) ∧ s.request.method ≠ .ack ∧
    TransactionKey.fromRequest s.request = some s.transactionKey

/-- A transaction that has heard only messages with its key, all of which came in packets. -/
structure Transaction.Sound (Genuine : Bytes → Prop) (t : Transaction) : Prop where
  honest : t.Honest
  started : t.Started Genuine
  heard : ∀ msg ∈ t.heard, Arrived Genuine msg ∧ msg.key = some t.key

/-- The message is one for the transaction behind a channel. -/
def Peer.Leads (p : Peer) (id : ChannelId) (key : TransactionKey) : Prop :=
  ∃ t, p.transactions[id]? = some t ∧ t.key = key

/-- What holds of an endpoint that takes in genuine packets. -/
structure Peer.Sound (Genuine : Bytes → Prop) (p : Peer) : Prop where
  transactions : ∀ t ∈ p.transactions, t.Sound Genuine
  table : ∀ key id, p.plugin.getEntry key = some id → p.Leads id key
  deliveries : ∀ d ∈ p.deliveries, Arrived Genuine d.msg ∧
    ∃ key, d.msg.key = some key ∧ p.Leads d.channel key
  incoming : ∀ msg ∈ p.incoming, Arrived Genuine msg
  answered : ∀ a ∈ p.answered, Arrived Genuine (.request a.1)

namespace Transaction

variable {t t' : Transaction} {Genuine Genuine' : Bytes → Prop}

/-- What becomes of a transaction in a step. -/
structure Follows (e : TransactionEvent) (t t' : Transaction) : Prop where
  honest : t'.Honest
  key : t'.key = t.key
  started : ∀ Genuine, t.Started Genuine → t'.Started Genuine
  spoken : t.spoken ⊆ t'.spoken
  heard : ∀ msg ∈ t'.heard, msg ∈ t.heard ∨ e.message? = some msg

/-- A step that changes nothing keeps an honest transaction honest and its traces as they are. -/
theorem follows_refl (h : t.Honest) (e : TransactionEvent) : Follows e t t :=
  ⟨h, rfl, fun _ hstarted => hstarted, List.Subset.refl _, fun _ hmsg => .inl hmsg⟩

/-- A step of a client transaction only adds what it has a reason for. -/
theorem follows_client {c : ClientTransaction} (h : c.Honest) (e : ClientEvent) :
    Follows (.client e) (client c) (client (c.step e)) := by
  have hspeaks := ClientTransaction.speaks_step h e
  refine ⟨h.step e, hspeaks.key, fun Genuine hstarted => ?_, ?_, fun msg hmsg => ?_⟩
  · show ∃ branch, (c.step e).request.branch = some branch ∧ _
    rw [hspeaks.key, hspeaks.request]
    exact hstarted
  · obtain ⟨new, htrace, -⟩ := hspeaks.trace
    simp only [spoken, htrace, List.filterMap_append]
    exact List.subset_append_left _ _
  · rcases hspeaks.heard msg hmsg with hold | rfl
    · exact .inl hold
    · exact .inr rfl

/-- A step of a server transaction only adds what it has a reason for. -/
theorem follows_server {s : ServerTransaction} (h : s.Honest) (e : ServerEvent) :
    Follows (.server e) (server s) (server (s.step e)) := by
  have hspeaks := ServerTransaction.speaks_step s e
  have hkey := ServerTransaction.transactionKey_step s e
  refine ⟨h.step e, hkey, fun Genuine hstarted => ?_, ?_, fun msg hmsg => ?_⟩
  · show Arrived Genuine (.request (s.step e).request) ∧ _
    rw [(h.states.step e).request, hkey]
    exact hstarted
  · obtain ⟨new, htrace, -⟩ := hspeaks.trace
    simp only [spoken, htrace, List.filterMap_append]
    exact List.subset_append_left _ _
  · rcases hspeaks.heard msg hmsg with hold | rfl
    · exact .inl hold
    · exact .inr rfl

/-- **What a step of a transaction does to what it stands for.** -/
theorem follows_step (h : t.Honest) (e : TransactionEvent) : Follows e t (t.step e) := by
  cases t with
  | creating c => exact follows_refl h e
  | client c =>
    cases e with
    | client e => exact follows_client h e
    | server e => exact follows_refl h _
  | server s =>
    cases e with
    | client e => exact follows_refl h _
    | server e => exact follows_server h e

/-- How a transaction has started does not change when more packets are genuine. -/
theorem Started.mono (h : ∀ packet, Genuine packet → Genuine' packet)
    (hstarted : t.Started Genuine) : t.Started Genuine' := by
  cases t with
  | creating c => exact hstarted
  | client c => exact hstarted
  | server s => exact ⟨hstarted.1.mono h, hstarted.2⟩

/-- A sound transaction stays so when more packets are genuine. -/
theorem Sound.mono (h : ∀ packet, Genuine packet → Genuine' packet) (ht : t.Sound Genuine) :
    t.Sound Genuine' :=
  ⟨ht.honest, ht.started.mono h,
    fun msg hmsg => ⟨(ht.heard msg hmsg).1.mono h, (ht.heard msg hmsg).2⟩⟩

/-- A transaction stays sound as long as the messages that come into its channel are for it. -/
theorem Sound.step (h : t.Sound Genuine) {e : TransactionEvent}
    (he : ∀ msg, e.message? = some msg → Arrived Genuine msg ∧ msg.key = some t.key) :
    (t.step e).Sound Genuine := by
  have hfollows := follows_step h.honest e
  refine ⟨hfollows.honest, hfollows.started _ h.started, fun msg hmsg => ?_⟩
  rw [hfollows.key]
  rcases hfollows.heard msg hmsg with hold | hnew
  · exact h.heard msg hold
  · exact he msg hnew

end Transaction

namespace Peer

variable {p p' : Peer} {Genuine Genuine' : Bytes → Prop}

/-- A sound endpoint stays so when more packets are genuine. -/
theorem Sound.mono (h : ∀ packet, Genuine packet → Genuine' packet) (hp : p.Sound Genuine) :
    p.Sound Genuine' where
  transactions t ht := (hp.transactions t ht).mono h
  table := hp.table
  deliveries d hd := ⟨(hp.deliveries d hd).1.mono h, (hp.deliveries d hd).2⟩
  incoming msg hmsg := (hp.incoming msg hmsg).mono h
  answered a ha := (hp.answered a ha).mono h

/-- An endpoint without transactions is sound. -/
theorem sound_start (Genuine : Bytes → Prop) : Sound Genuine {} where
  transactions := by simp
  table key id h := by cases h
  deliveries := by simp
  incoming := by simp
  answered := by simp

/-- A channel leads where it did when the transaction behind it changes. -/
theorem Leads.set {id : ChannelId} {t t' : Transaction} (hget : p.transactions[id]? = some t)
    (hkey : t'.key = t.key) (htransactions : p'.transactions = p.transactions.set id t')
    {id' : ChannelId} {key : TransactionKey} (h : p.Leads id' key) : p'.Leads id' key := by
  obtain ⟨t₁, hget₁, hkey₁⟩ := h
  unfold Leads
  rw [htransactions]
  by_cases hid : id' = id
  · subst hid
    obtain rfl := Option.some.inj (hget.symm.trans hget₁)
    obtain ⟨hlt, -⟩ := List.getElem?_eq_some_iff.mp hget
    exact ⟨t', List.getElem?_set_self hlt, hkey.trans hkey₁⟩
  · exact ⟨t₁, by rw [List.getElem?_set_ne (Ne.symm hid), hget₁], hkey₁⟩

/-- A channel that leads to a transaction does so still when another one is made behind it. -/
theorem Leads.append {t : Transaction} (htransactions : p'.transactions = p.transactions ++ [t])
    {id : ChannelId} {key : TransactionKey} (h : p.Leads id key) : p'.Leads id key := by
  obtain ⟨t₁, hget₁, hkey₁⟩ := h
  obtain ⟨hlt, -⟩ := List.getElem?_eq_some_iff.mp hget₁
  refine ⟨t₁, ?_, hkey₁⟩
  rw [htransactions, List.getElem?_append_left hlt, hget₁]

/-- One transaction changes, and nothing new is looked up. -/
theorem Sound.set (h : p.Sound Genuine) {id : ChannelId} {t t' : Transaction}
    (hget : p.transactions[id]? = some t) (hkey : t'.key = t.key) (ht' : t'.Sound Genuine)
    (htransactions : p'.transactions = p.transactions.set id t')
    (htable : ∀ key id', p'.plugin.getEntry key = some id' →
      p.plugin.getEntry key = some id' ∨ key = t.key ∧ id' = id)
    (hdeliveries : ∀ d ∈ p'.deliveries, d ∈ p.deliveries)
    (hincoming : p'.incoming = p.incoming) (hanswered : p'.answered = p.answered) :
    p'.Sound Genuine where
  transactions := by
    rw [htransactions]
    intro t₁ ht₁
    rcases List.mem_or_eq_of_mem_set ht₁ with hold | rfl
    · exact h.transactions t₁ hold
    · exact ht'
  table := by
    intro key id' hentry
    rcases htable key id' hentry with hold | ⟨rfl, rfl⟩
    · exact (h.table key id' hold).set hget hkey htransactions
    · exact Leads.set hget hkey htransactions ⟨t, hget, rfl⟩
  deliveries := by
    intro d hd
    obtain ⟨harrived, key, hmsg, hleads⟩ := h.deliveries d (hdeliveries d hd)
    exact ⟨harrived, key, hmsg, hleads.set hget hkey htransactions⟩
  incoming := hincoming ▸ h.incoming
  answered := hanswered ▸ h.answered

/-- There is one more transaction, in the table or not. -/
theorem Sound.append (h : p.Sound Genuine) {t : Transaction} (ht : t.Sound Genuine)
    (htransactions : p'.transactions = p.transactions ++ [t])
    (htable : ∀ key id, p'.plugin.getEntry key = some id →
      p.plugin.getEntry key = some id ∨ key = t.key ∧ id = p.transactions.length)
    (hdeliveries : p'.deliveries = p.deliveries) (hincoming : p'.incoming = p.incoming)
    (hanswered : p'.answered = p.answered) : p'.Sound Genuine where
  transactions := by
    rw [htransactions]
    intro t₁ ht₁
    rcases List.mem_append.mp ht₁ with hold | hnew
    · exact h.transactions t₁ hold
    · exact List.mem_singleton.mp hnew ▸ ht
  table := by
    intro key id hentry
    rcases htable key id hentry with hold | ⟨rfl, rfl⟩
    · exact (h.table key id hold).append htransactions
    · refine ⟨t, ?_, rfl⟩
      rw [htransactions, List.getElem?_concat_length]
  deliveries := by
    intro d hd
    obtain ⟨harrived, key, hmsg, hleads⟩ := h.deliveries d (hdeliveries ▸ hd)
    exact ⟨harrived, key, hmsg, hleads.append htransactions⟩
  incoming := hincoming ▸ h.incoming
  answered := hanswered ▸ h.answered

/-- What the table says after an entry was added. -/
theorem getEntry_addTransaction_cases {plugin : TsxPlugin} {key key' : TransactionKey}
    {entry id : ChannelId} (h : (plugin.addTransaction key entry).getEntry key' = some id) :
    plugin.getEntry key' = some id ∨ key' = key ∧ id = entry := by
  by_cases hkey : key' = key
  · subst hkey
    rw [TsxPlugin.getEntry_addTransaction_self] at h
    exact .inr ⟨rfl, (Option.some.inj h).symm⟩
  · rw [TsxPlugin.getEntry_addTransaction_of_ne hkey] at h
    exact .inl h

/-- An entry that is there after a removal was there before. -/
theorem getEntry_removeTransaction {plugin : TsxPlugin} {key key' : TransactionKey}
    {id : ChannelId} (h : (plugin.removeTransaction key).getEntry key' = some id) :
    plugin.getEntry key' = some id := by
  by_cases hkey : key' = key
  · rw [hkey, TsxPlugin.getEntry_removeTransaction_self] at h
    cases h
  · rwa [TsxPlugin.getEntry_removeTransaction_of_ne hkey] at h

/-! ### The steps of an endpoint -/

/-- An endpoint stays sound when one of its transactions makes a step of its own. -/
theorem Sound.act (h : p.Sound Genuine) (id : ChannelId) (e : TransactionEvent) :
    (p.act id e).Sound Genuine := by
  unfold Peer.act
  split
  · exact h
  · next t hget =>
    dsimp only
    split
    · exact h
    · next hown =>
      have ht := h.transactions t (List.mem_of_getElem? hget)
      have hnone : e.message? = none := by
        rw [Bool.or_eq_true, not_or] at hown
        simpa using hown.1
      refine h.set hget (Transaction.follows_step ht.honest e).key
        (ht.step fun msg hmsg => by rw [hnone] at hmsg; cases hmsg) rfl (fun key id' hentry => ?_)
        (fun d hd => hd) rfl rfl
      dsimp only at hentry
      split at hentry
      · exact .inl (getEntry_removeTransaction hentry)
      · exact .inl hentry

/-- To deliver a message is a step of the transaction that puts the message into its channel. -/
theorem deliver_eq_step (msg : IncomingMessage) (t : Transaction) :
    ∃ e : TransactionEvent, t.deliver msg = t.step e ∧ e.message? = some msg := by
  cases t with
  | creating c => exact ⟨.client (.deliver msg), rfl, rfl⟩
  | client c => exact ⟨.client (.deliver msg), rfl, rfl⟩
  | server s => exact ⟨.server (.deliver msg), rfl, rfl⟩

/-- What becomes of an honest transaction with a delivery becomes of it in a step. -/
theorem follows_deliver {t : Transaction} (ht : t.Honest) (msg : IncomingMessage) :
    ∃ e, Transaction.Follows e t (t.deliver msg) := by
  obtain ⟨e, hdeliver, -⟩ := deliver_eq_step msg t
  exact ⟨e, hdeliver ▸ Transaction.follows_step ht e⟩

/-- A transaction stays sound with a message that came in a genuine packet and has its key. -/
theorem sound_deliver {t : Transaction} (ht : t.Sound Genuine) {msg : IncomingMessage}
    (hmsg : Arrived Genuine msg) (hkey : msg.key = some t.key) : (t.deliver msg).Sound Genuine := by
  obtain ⟨e, hdeliver, he⟩ := deliver_eq_step msg t
  rw [hdeliver]
  refine ht.step fun msg' hmsg' => ?_
  obtain rfl := Option.some.inj (he.symm.trans hmsg')
  exact ⟨hmsg, hkey⟩

/-- An endpoint stays sound with a delivery: the message has the key of the transaction that it is
    for. -/
theorem Sound.deliver (h : p.Sound Genuine) (i : Nat) : (p.deliver i).Sound Genuine := by
  unfold Peer.deliver
  split
  · exact h
  · next d hd =>
    split
    · exact h
    · next t hget =>
      split
      · have ht := h.transactions t (List.mem_of_getElem? hget)
        -- the channel still leads to a transaction with the key of the message
        obtain ⟨harrived, key, hmsg, t', hget', hkey⟩ := h.deliveries d (List.mem_of_getElem? hd)
        obtain rfl := Option.some.inj (hget.symm.trans hget')
        obtain ⟨e, hfollows⟩ := follows_deliver ht.honest d.msg
        exact h.set hget hfollows.key
          (sound_deliver ht harrived (hmsg.trans (congrArg some hkey.symm))) rfl
          (fun key id hentry => .inl hentry) (fun d' hd' => List.mem_of_mem_eraseIdx hd') rfl rfl
      · exact h

/-- An endpoint stays sound when a delivery fails. -/
theorem Sound.refuse (h : p.Sound Genuine) (i : Nat) : (p.refuse i).Sound Genuine := by
  unfold Peer.refuse
  split
  · exact h
  · split
    · exact h
    · split
      · exact ⟨h.transactions, h.table, fun d hd => h.deliveries d (List.mem_of_mem_eraseIdx hd),
          h.incoming, h.answered⟩
      · exact h

/-- A client transaction that is being created is sound: it has heard nothing and sent its request.
    -/
theorem sound_send {generated : String} {outgoing : OutgoingRequest} {now : Nat}
    {c : ClientTransaction} (h : ClientTransaction.send generated outgoing now = some c) :
    (Transaction.creating c).Sound Genuine := by
  obtain ⟨-, -, hchannel, -, -, -, htrace⟩ := ClientTransaction.send_eq_some h
  refine ⟨ClientTransaction.honest_send h, ClientTransaction.key_of_send h, fun msg hmsg => ?_⟩
  rcases ClientTransaction.mem_heard_iff.mp hmsg with hreceived | hqueued
  · rw [htrace] at hreceived
    simp at hreceived
  · rw [hchannel] at hqueued
    simp [PeekableReceiver.messages] at hqueued

/-- A server transaction is sound from the start, if its request came in a genuine packet. -/
theorem sound_fromRequest {request : IncomingRequest} {now : Nat} {s : ServerTransaction}
    (h : ServerTransaction.fromRequest request now = some s)
    (harrived : Arrived Genuine (.request request)) : (Transaction.server s).Sound Genuine := by
  refine ⟨ServerTransaction.honest_fromRequest h, ?_, fun msg hmsg => ?_⟩
  all_goals
    unfold ServerTransaction.fromRequest at h
    split_ifs at h with hmethod
    obtain ⟨key, hkey, rfl⟩ := Option.map_eq_some_iff.mp h
  · exact ⟨harrived, hmethod, hkey⟩
  · simp [Transaction.heard, ServerTransaction.heard, ServerTransaction.new] at hmsg

/-- **An endpoint stays sound whatever it does.** -/
theorem Sound.step (h : p.Sound Genuine) (e : PeerEvent) : (p.step e).Sound Genuine := by
  cases e with
  | send generated outgoing now =>
    simp only [Peer.step]
    split
    · next c hsend =>
      exact h.append (sound_send hsend) rfl (fun key id hentry => .inl hentry) rfl rfl rfl
    · exact h
  | addTransaction id =>
    simp only [Peer.step]
    split
    · next c hget =>
      have hc := h.transactions _ (List.mem_of_getElem? hget)
      have hclient : (Transaction.client c).Sound Genuine := ⟨hc.honest, hc.started, hc.heard⟩
      have hkey : (Transaction.client c).key = (Transaction.creating c).key := rfl
      exact h.set hget hkey hclient rfl (fun key id' hentry => getEntry_addTransaction_cases hentry)
        (fun d hd => hd) rfl rfl
    · exact h
  | fromRequest n now =>
    simp only [Peer.step]
    split
    · next request hget =>
      split
      · next s hs =>
        exact h.append (sound_fromRequest hs (h.incoming _ (List.mem_of_getElem? hget))) rfl
          (fun key id hentry => getEntry_addTransaction_cases hentry) rfl rfl rfl
      · exact h
    · exact h
  | transaction id e => exact h.act id e
  | deliver i => exact h.deliver i
  | refuse i => exact h.refuse i
  | sendOutgoingResponse n response =>
    simp only [Peer.step]
    split
    · next request hget =>
      refine ⟨h.transactions, h.table, h.deliveries, h.incoming, fun a ha => ?_⟩
      rcases List.mem_append.mp ha with hold | hnew
      · exact h.answered a hold
      · rw [List.mem_singleton.mp hnew]
        exact h.incoming _ (List.mem_of_getElem? hget)
    · exact h
  | sendOutgoingRequest outgoing =>
    exact ⟨h.transactions, h.table, h.deliveries, h.incoming, h.answered⟩

/-- What a plugin takes for a transaction it has an entry for. -/
theorem onRequest_plugins {request : IncomingRequest} {channel : ChannelId}
    (h : Endpoint.onRequest (p.plugins.map RegisteredPlugin.plugin) request =
      .transaction channel) :
    ∃ key, TransactionKey.fromRequest request = some key ∧
      p.plugin.getEntry key = some channel := by
  simp only [plugins, List.map_cons, List.map_nil, Endpoint.onRequest, Plugin.onIncomingRequest,
    TsxPlugin.onIncomingRequest] at h
  cases hkey : TransactionKey.fromRequest request with
  | none => simp [hkey] at h
  | some key =>
    cases hentry : p.plugin.getEntry key with
    | none => simp [hkey, hentry] at h
    | some id => exact ⟨key, rfl, by simpa [hkey, hentry] using h⟩

/-- A response goes to a transaction only by the table, under its key. -/
theorem onResponse_plugins {response : IncomingResponse} {channel : ChannelId}
    (h : Endpoint.onResponse p.plugins response = .transaction channel) :
    ∃ key, TransactionKey.fromResponse response = some key ∧
      p.plugin.getEntry key = some channel := by
  simp only [plugins, Endpoint.onResponse, RegisteredPlugin.onIncomingResponse,
    TsxPlugin.onIncomingResponse] at h
  cases hkey : TransactionKey.fromResponse response with
  | none => simp [hkey] at h
  | some key =>
    cases hentry : p.plugin.getEntry key with
    | none => simp [hkey, hentry] at h
    | some id => exact ⟨key, rfl, by simpa [hkey, hentry] using h⟩

/-- A message that is looked up is one for the channel that is found. -/
theorem processMessage_eq_transaction {message : TransportMessage} {msg : IncomingMessage}
    {channel : ChannelId} (hread : message.read = some msg)
    (h : TransportLayer.processMessage p.plugins message = .transaction channel) :
    ∃ key, msg.key = some key ∧ p.plugin.getEntry key = some channel := by
  unfold TransportMessage.read at hread
  unfold TransportLayer.processMessage at h
  cases hparse : SipParser.parse message.packet.data with
  | error e => simp [hparse] at h
  | ok m =>
    cases hheaders : MandatoryHeaders.tryFrom m.headers with
    | error e => simp [hparse, hheaders] at h
    | ok mandatoryHeaders =>
      simp only [hparse, hheaders] at h hread
      obtain rfl := Option.some.inj hread
      cases m with
      | request request => exact onRequest_plugins h
      | response response => exact onResponse_plugins h

/-- A message that the user is given. -/
theorem Sound.given (h : p.Sound Genuine) {msg : IncomingMessage} (hmsg : Arrived Genuine msg) :
    { p with incoming := p.incoming ++ [msg] }.Sound Genuine := by
  refine ⟨h.transactions, h.table, h.deliveries, fun msg' hmsg' => ?_, h.answered⟩
  rcases List.mem_append.mp hmsg' with hold | hnew
  · exact h.incoming msg' hold
  · exact List.mem_singleton.mp hnew ▸ hmsg

/-- **A packet that arrives leaves an endpoint sound if it is genuine.** -/
theorem Sound.receive (h : p.Sound Genuine) {message : TransportMessage}
    (hgenuine : Genuine message.packet.data) (taken : Bool) :
    (p.receive message taken).Sound Genuine := by
  unfold Peer.receive
  split
  · exact h
  · next msg hread =>
    have harrived : Arrived Genuine msg := ⟨message, hgenuine, hread⟩
    split
    · exact h.given harrived
    · split
      · next channel hprocess =>
        obtain ⟨key, hkey, hentry⟩ := processMessage_eq_transaction hread hprocess
        refine ⟨h.transactions, h.table, fun d hd => ?_, h.incoming, h.answered⟩
        rcases List.mem_append.mp hd with hold | hnew
        · exact h.deliveries d hold
        · rw [List.mem_singleton.mp hnew]
          exact ⟨harrived, key, hkey, h.table key channel hentry⟩
      · exact h.given harrived
      · exact h

/-! ### Endpoints in a network -/

/-- Parts that grow make a whole that grows. -/
theorem append_subset_append {α : Type} {as as' bs bs' : List α} (has : as ⊆ as')
    (hbs : bs ⊆ bs') : as ++ bs ⊆ as' ++ bs' :=
  List.append_subset.mpr
    ⟨List.subset_append_of_subset_left _ has, List.subset_append_of_subset_right _ hbs⟩

/-- What a transaction says it has said for good. -/
theorem packets_append {t : Transaction} (htransactions : p'.transactions = p.transactions ++ [t])
    (hstateless : p'.stateless = p.stateless) : p.packets ⊆ p'.packets := by
  unfold packets
  rw [htransactions, hstateless, List.flatMap_append]
  exact append_subset_append (List.subset_append_left _ _) (List.Subset.refl _)

/-- What an endpoint has sent only grows when one of its transactions speaks. -/
theorem packets_set {id : ChannelId} {t t' : Transaction} (hget : p.transactions[id]? = some t)
    (hspoken : t.spoken ⊆ t'.spoken) (htransactions : p'.transactions = p.transactions.set id t')
    (hstateless : p'.stateless = p.stateless) : p.packets ⊆ p'.packets := by
  unfold packets
  rw [htransactions, hstateless]
  refine append_subset_append (fun data hdata => ?_) (List.Subset.refl _)
  obtain ⟨t₁, ht₁, hmem⟩ := List.mem_flatMap.mp hdata
  obtain ⟨m, hm, hencode⟩ := List.mem_filterMap.mp hmem
  obtain ⟨id₁, hget₁⟩ := List.mem_iff_getElem?.mp ht₁
  obtain ⟨hlt, -⟩ := List.getElem?_eq_some_iff.mp hget
  by_cases hid : id = id₁
  · subst hid
    obtain rfl := Option.some.inj (hget.symm.trans hget₁)
    refine List.mem_flatMap.mpr ⟨t', List.mem_of_getElem? (List.getElem?_set_self hlt), ?_⟩
    exact List.mem_filterMap.mpr ⟨m, hspoken hm, hencode⟩
  · refine List.mem_flatMap.mpr ⟨t₁, ?_, hmem⟩
    exact List.mem_of_getElem? ((List.getElem?_set_ne hid).trans hget₁)

/-- What was sent without a transaction has been sent for good. -/
theorem packets_stateless (htransactions : p'.transactions = p.transactions)
    (hstateless : p.stateless ⊆ p'.stateless) : p.packets ⊆ p'.packets := by
  unfold packets
  rw [htransactions]
  exact append_subset_append (List.Subset.refl _) (List.filterMap_subset _ hstateless)

/-- No step takes back a packet. -/
theorem Sound.packets_step (h : p.Sound Genuine) (e : PeerEvent) :
    p.packets ⊆ (p.step e).packets := by
  have hrefl := List.Subset.refl p.packets
  cases e with
  | send generated outgoing now =>
    simp only [Peer.step]
    split
    · exact packets_append rfl rfl
    · exact hrefl
  | addTransaction id =>
    simp only [Peer.step]
    split
    · next c hget =>
      have hspoken : (Transaction.creating c).spoken ⊆ (Transaction.client c).spoken :=
        List.Subset.refl _
      exact packets_set hget hspoken rfl rfl
    · exact hrefl
  | fromRequest n now =>
    simp only [Peer.step]
    split
    · split
      · exact packets_append rfl rfl
      · exact hrefl
    · exact hrefl
  | transaction id e =>
    simp only [Peer.step, Peer.act]
    split
    · exact hrefl
    · next t hget =>
      split
      · exact hrefl
      · have ht := h.transactions t (List.mem_of_getElem? hget)
        exact packets_set hget (Transaction.follows_step ht.honest e).spoken rfl rfl
  | deliver i =>
    simp only [Peer.step, Peer.deliver]
    split
    · exact hrefl
    · next d _ =>
      split
      · exact hrefl
      · next t hget =>
        split
        · have ht := h.transactions t (List.mem_of_getElem? hget)
          obtain ⟨e, hfollows⟩ := follows_deliver ht.honest d.msg
          exact packets_set hget hfollows.spoken rfl rfl
        · exact hrefl
  | refuse i =>
    simp only [Peer.step, Peer.refuse]
    split
    · exact hrefl
    · split
      · exact hrefl
      · split
        · exact hrefl
        · exact hrefl
  | sendOutgoingResponse n response =>
    simp only [Peer.step]
    split
    · refine packets_stateless rfl ?_
      unfold stateless
      rw [List.map_append]
      exact append_subset_append (List.subset_append_left _ _) (List.Subset.refl _)
    · exact hrefl
  | sendOutgoingRequest outgoing =>
    refine packets_stateless rfl ?_
    unfold stateless
    simp only [Peer.step, List.map_append]
    exact append_subset_append (List.Subset.refl _) (List.subset_append_left _ _)

/-- An endpoint that receives a packet sends nothing in this step. -/
theorem packets_receive (message : TransportMessage) (taken : Bool) (p : Peer) :
    (p.receive message taken).packets = p.packets := by
  unfold Peer.receive
  split
  · rfl
  · split
    · rfl
    · split <;> rfl

/-- Endpoints as the parties of a network.  A packet arrives over a transport and from a source
    that may be any. -/
def party : Party Peer PeerEvent PacketArrival Bytes where
  step := step
  receive how data p := p.receive ⟨how.transport, ⟨data, how.source⟩⟩ how.taken
  sent := packets

/-- **Endpoints stay sound, whatever becomes of the packets between them.** -/
theorem relies_sound : party.Relies Sound where
  mono := fun hsub hp => hp.mono hsub
  step := fun e hp => ⟨hp.step e, hp.packets_step e⟩
  receive := fun how data hgenuine hp =>
    ⟨hp.receive hgenuine how.taken, fun packet hpacket => by
      show packet ∈ (receive ⟨how.transport, ⟨data, how.source⟩⟩ how.taken _).packets
      rw [packets_receive]
      exact hpacket⟩

end Peer

end Rssip
