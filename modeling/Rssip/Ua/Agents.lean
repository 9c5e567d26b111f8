import Rssip.Endpoint.Exchange
import Rssip.Transaction.Ack
import Rssip.Ua.DialogStates
import Rssip.Ua.DialogTable
import Rssip.Ua.Session

namespace Rssip

open Lib

/-!
# What dialogs tell each other

User agents that make calls, answer them and send requests in their dialogs, in a network that may
lose, repeat, reorder and misdirect their messages.

* `Agent.step`, `Agent.receive` — a step of a user agent, and the arrival of a message;
* `Agent.Outside` — no dialog knows a tag for its `To`, and no request of a dialog has one;
* `arrived_refused` — so a dialog gets no request but the `ACK` of a call that was refused, and no
  call is confirmed without one.
-/

/-! ### Requests without a tag -/

/-- No `To` of the message has a tag, if it is a request. -/
def SipMessage.Untagged : SipMessage → Prop
  | request r => ∀ t, .toHdr t ∈ r.headers → t.tag = none
  | response _ => True

/-- The `To` that is found is the one there was, or one of the headers. -/
theorem toHdr_of_foldl {hs : Headers} {found : FoundHeaders} {t : To}
    (h : (hs.foldl FoundHeaders.add found).toHdr = some t) :
    found.toHdr = some t ∨ .toHdr t ∈ hs := by
  induction hs generalizing found with
  | nil => exact .inl h
  | cons header hs ih =>
    rcases ih h with hfound | hmem
    · by_cases hto : ∃ t', header = .toHdr t'
      · obtain ⟨t', rfl⟩ := hto
        obtain rfl := Option.some.inj hfound
        exact .inr List.mem_cons_self
      · left
        rw [← hfound]
        cases header with
        | toHdr t' => exact absurd ⟨t', rfl⟩ hto
        | via v =>
          rw [FoundHeaders.add]
          split <;> rfl
        | _ => rfl
    · exact .inr (List.mem_cons_of_mem _ hmem)

/-- The `To` that counts is one of the headers. -/
theorem toHdr_of_tryFrom {hs : Headers} {mandatoryHeaders : MandatoryHeaders}
    (h : MandatoryHeaders.tryFrom hs = .ok mandatoryHeaders) :
    .toHdr mandatoryHeaders.toHdr ∈ hs := by
  have hfound := congrArg FoundHeaders.toHdr (ClientTransaction.tryFrom_found h)
  rcases toHdr_of_foldl hfound with hnone | hmem
  · cases hnone
  · exact hmem

/-- **What is read of a request without a tag** is outside of any dialog. -/
theorem fromIncomingRequest_of_untagged {r : Request} (hr : (SipMessage.request r).Untagged)
    (hlegible : (SipMessage.request r).RoundTrips) {request : IncomingRequest}
    (hread : ReadFrom (.request r) (.request request)) :
    DialogId.fromIncomingRequest request = none := by
  obtain ⟨message, hencode, hmessage⟩ := hread
  obtain ⟨mandatoryHeaders, hparse, hheaders, hinfo⟩ := read_eq_some hmessage
  have hsame : (SipMessage.request r).withContentLength = .request request.request := by
    rw [SipMessage.RoundTrips, hencode, Option.map_some, Option.some.injEq, hparse] at hlegible
    exact (Except.ok.inj hlegible).symm
  have hheaders : MandatoryHeaders.tryFrom r.headers = .ok mandatoryHeaders := by
    rw [← show (SipMessage.request r).headers = r.headers from rfl, ← tryFrom_withContentLength,
      hsame]
    exact hheaders
  have htag : request.incomingInfo.mandatoryHeaders.toHdr.tag = none := by
    rw [show request.incomingInfo = .ofMessage mandatoryHeaders message from hinfo]
    exact hr mandatoryHeaders.toHdr (toHdr_of_tryFrom hheaders)
  simp [DialogId.fromIncomingRequest, htag]

/-- A client transaction adds no `To`. -/
theorem toHdr_of_viaBranch {generated branch : String} {hs hs' : Headers}
    (h : Headers.viaBranch generated hs = some (branch, hs')) {t : To} (ht : .toHdr t ∈ hs') :
    .toHdr t ∈ hs := by
  induction hs generalizing branch hs' with
  | nil => cases h
  | cons header hs ih =>
    cases header with
    | via v =>
      rw [Headers.viaBranch] at h
      split at h <;>
      · obtain ⟨-, rfl⟩ := Prod.mk.inj (Option.some.inj h)
        rcases List.mem_cons.mp ht with heq | hmem
        · cases heq
        · exact List.mem_cons_of_mem _ hmem
    | _ =>
      obtain ⟨⟨branch', found⟩, hfound, heq⟩ := Option.map_eq_some_iff.mp h
      obtain ⟨-, rfl⟩ := Prod.mk.inj heq
      rcases List.mem_cons.mp ht with hhead | hmem
      · exact hhead ▸ List.mem_cons_self
      · exact List.mem_cons_of_mem _ (ih hfound hmem)

/-- A branch that is added brings no `To`. -/
theorem toHdr_of_withBranch {generated : String} {outgoing : OutgoingRequest} {t : To}
    (ht : .toHdr t ∈ (outgoing.withBranch generated).2.request.headers) :
    .toHdr t ∈ outgoing.request.headers := by
  unfold OutgoingRequest.withBranch at ht
  simp only [] at ht
  split at ht
  · next hvia => exact toHdr_of_viaBranch hvia ht
  · rcases List.mem_cons.mp ht with heq | hmem
    · cases heq
    · exact hmem

/-! ### User agents -/

/-- What is pushed behind the headers of a request of a dialog: no further `To`. -/
structure AddedHeaders where
  headers : Headers
  noTo : ∀ t, .toHdr t ∉ headers

/-- The dialogs of an endpoint, the requests that have come into their channels and those of them
    that have not been read, the messages that were left to the user, the client transactions of the
    dialogs, the responses that have come to transactions, the requests of the dialogs as they were
    sent, and all messages that were sent. -/
structure Agent where
  table : DialogTable := {}
  arrived : ChannelId → List IncomingRequest := fun _ => []
  inbox : ChannelId → List IncomingRequest := fun _ => []
  incoming : List IncomingMessage := []
  clients : List ClientTransaction := []
  answers : List IncomingResponse := []
  requested : List Request := []
  sent : List SipMessage := []

/-- How a request of a dialog leaves: by a client transaction, which gives it a `Via`, or, like the
    `ACK` of `receive_answer`, by the endpoint, which gives it none. -/
inductive Leaving where
  | transaction (generated : String) (target : TargetTransportInfo) (now : Nat)
  | endpoint

/-- The steps of a user agent.  `call` and `answer` make a dialog, `provisional` and `bye` set its
    state, and `receive` and `waitForAck` read its channel.  `acknowledge` is the `ACK` of the client
    transaction `n` for the response `m`. -/
inductive AgentEvent where
  | call (fromUri toUri : SipUri) (contactUri : Option SipUri) (endpoint : Endpoint)
      (tag callId : String) (cseq : UInt32)
  | answer (n : Nat) (contact : Contact) (endpoint : Endpoint) (tag : String)
  | request (channel : ChannelId) (method : SipMethod) (random : UInt32) (added : AddedHeaders)
      (body : Option Bytes) (leaving : Leaving)
  | acknowledge (n m : Nat)
  | respond (response : Response)
  | provisional (channel : ChannelId)
  | bye (channel : ChannelId)
  | receive (channel : ChannelId) (sent : Except Error Unit)
  | waitForAck (channel : ChannelId) (sent : Except Error Unit)
  | drop (channel : ChannelId)

/-- How a message arrives: over which transport, from where, which transactions there are, and
    whether their plugin was registered first. -/
structure Ingress where
  transport : TransportHandle
  source : SocketAddr
  transactions : TsxPlugin := {}
  transactionsFirst : Bool := false

/-- The `ACK` that a client transaction sends for a response: to an `INVITE` that did not go over a
    reliable transport, for a response with its key that refuses the call. -/
def ClientTransaction.ackFor (c : ClientTransaction) (response : IncomingResponse) :
    Option OutgoingRequest :=
  if c.isInvite ∧ ¬ c.isReliable ∧ TransactionKey.fromResponse response = some c.key then
    createAckRequest c.request response
  else none

namespace Agent

/-- The plugin of the dialogs and the one of the transactions, and what they leave is left to the
    user. -/
def plugins (how : Ingress) (u : Agent) : List RegisteredPlugin :=
  let dialogs : RegisteredPlugin := ⟨.dialog u.table.plugin, fun _ => false⟩
  let transactions : RegisteredPlugin := ⟨.tsx how.transactions, fun _ => false⟩
  (if how.transactionsFirst then [transactions, dialogs] else [dialogs, transactions]) ++
    [⟨.user fun _ => true, fun _ => true⟩]

/-- The next request in the channel of a dialog is read. -/
def read (channel : ChannelId) (sent : Except Error Unit) (how : Reception → Dialog → Dialog)
    (u : Agent) : Agent :=
  match u.inbox channel with
  | [] => u
  | request :: rest =>
    { u with
      table := u.table.modify channel fun l =>
        { l with dialog := how ⟨some (.request request), sent⟩ l.dialog }
      inbox := Function.update u.inbox channel rest }

/-- A request of a dialog leaves.  No client transaction is made for an `ACK`. -/
def leave (request : Request) (leaving : Leaving) (u : Agent) : Agent :=
  match leaving with
  | .transaction generated target now =>
    match ClientTransaction.send generated ⟨request, target⟩ now with
    | some c =>
      { u with
        clients := u.clients ++ [c]
        requested := u.requested ++ [c.request.request]
        sent := u.sent ++ [.request c.request.request] }
    | none => u
  | .endpoint =>
    { u with requested := u.requested ++ [request], sent := u.sent ++ [.request request] }

/-- One step of a user agent.  What has no dialog, message or transaction to work on does nothing.
    -/
def step (u : Agent) : AgentEvent → Agent
  | .call fromUri toUri contactUri endpoint tag callId cseq =>
    { u with
      table := u.table.step (.createUac fromUri toUri contactUri endpoint tag callId cseq) }
  | .answer n contact endpoint tag =>
    match u.incoming[n]? with
    | some (.request request) =>
      { u with table := u.table.step (.createUas request contact endpoint tag) }
    | _ => u
  | .request channel method random added body leaving =>
    match u.table.live.find? fun l => l.dialog.receiver = channel with
    | some l =>
      let request := (l.dialog.createRequest method random).1
      let request := { request with headers := request.headers ++ added.headers, body := body }
      { u with table := u.table.step (.createRequest channel method random) }.leave request leaving
    | none => u
  | .acknowledge n m =>
    match u.clients[n]?, u.answers[m]? with
    | some c, some response =>
      match c.ackFor response with
      | some ack => { u with sent := u.sent ++ [.request ack.request] }
      | none => u
    | _, _ => u
  | .respond response => { u with sent := u.sent ++ [.response response] }
  | .provisional channel => { u with table := u.table.step (.setState channel .early) }
  | .bye channel => { u with table := u.table.step (.setState channel .terminated) }
  | .receive channel sent => u.read channel sent fun r d => (d.receiveRequest [r]).dialog
  | .waitForAck channel sent => u.read channel sent fun r d => (d.waitForAck [some r]).dialog
  | .drop channel => { u with table := u.table.step (.drop channel) }

/-- A message arrives, as the packet that it is printed to. -/
def receive (how : Ingress) (m : SipMessage) (u : Agent) : Agent :=
  match encode m with
  | none => u
  | some data =>
    let message : TransportMessage := ⟨how.transport, ⟨data, how.source⟩⟩
    match message.read with
    | none => u
    | some msg =>
      match TransportLayer.processMessage (u.plugins how) message, msg with
      | .dialog channel, .request request =>
        { u with
          arrived := Function.update u.arrived channel (u.arrived channel ++ [request])
          inbox := Function.update u.inbox channel (u.inbox channel ++ [request]) }
      | .transaction _, .response response => { u with answers := u.answers ++ [response] }
      | .user, msg => { u with incoming := u.incoming ++ [msg] }
      | _, _ => u

/-- User agents as the parties of a network. -/
def party : Party Agent AgentEvent Ingress SipMessage where
  step := step
  receive := receive
  sent := sent

/-- User agents after a run of the network between them.  None has a dialog at the start. -/
def network {ι : Type} [DecidableEq ι] (es : List (NetworkEvent ι AgentEvent Ingress)) :
    ι → Agent :=
  exec party.netStep (fun _ => {}) es

/-! ### No tag is ever known -/

/-- One of the client transactions has sent the message as the `ACK` for one of the responses. -/
def Acknowledges (m : SipMessage) (u : Agent) : Prop :=
  ∃ c ∈ u.clients, ∃ response ∈ u.answers, ∃ ack,
    c.ackFor response = some ack ∧ m = .request ack.request

/-- No dialog knows a tag for its `To`, none of their requests has one, and no other request was
    sent than theirs and the `ACK`s of client transactions. -/
structure Outside (u : Agent) : Prop where
  dialogs : ∀ l ∈ u.table.live, l.dialog.toHdr.tag = none
  requested : ∀ r ∈ u.requested, (SipMessage.request r).Untagged ∧ .request r ∈ u.sent
  sent : ∀ m ∈ u.sent, m.Untagged ∨ u.Acknowledges m

variable {u : Agent}

/-- A change that keeps its ends gives no dialog a tag for its `To`. -/
theorem outside_modify {w : DialogTable} (h : ∀ l ∈ w.live, l.dialog.toHdr.tag = none)
    {f : LiveDialog → LiveDialog} (hf : DialogTable.Keeps f) (channel : ChannelId) :
    ∀ l ∈ (w.modify channel f).live, l.dialog.toHdr.tag = none := by
  intro l' hl'
  obtain ⟨l, hl, rfl | ⟨-, rfl⟩⟩ := DialogTable.mem_modify hl'
  · exact h _ hl
  · rw [(hf l).toHdr]
    exact h l hl

/-- A dialog is made without a tag for its `To`, and gets none. -/
theorem outside_table {w : DialogTable} (h : ∀ l ∈ w.live, l.dialog.toHdr.tag = none)
    (e : DialogEvent) : ∀ l ∈ (w.step e).live, l.dialog.toHdr.tag = none := by
  cases e with
  | createUas request contact endpoint tag =>
    cases hcreated : Dialog.createUas request contact endpoint tag w.channels w.plugin with
    | error e => simpa only [DialogTable.step, hcreated] using h
    | ok created =>
      obtain ⟨dialog, plugin⟩ := created
      obtain ⟨hnone, rfl, -⟩ := Dialog.createUas_ok hcreated
      simp only [DialogTable.step, hcreated]
      exact List.forall_mem_cons.mpr ⟨hnone, h⟩
  | createUac fromUri toUri contactUri endpoint tag callId cseq =>
    exact List.forall_mem_cons.mpr ⟨rfl, h⟩
  | answered channel response =>
    exact outside_modify h (DialogTable.keeps_answered response) channel
  | createRequest channel method random =>
    exact outside_modify h (DialogTable.keeps_createRequest method random) channel
  | receive channel r => exact outside_modify h (DialogTable.keeps_receive r) channel
  | setState channel state => exact outside_modify h (DialogTable.keeps_setState state) channel
  | drop channel =>
    rcases DialogTable.drop_cases channel w with ⟨-, -, -, -, hlive, -⟩ | hsame
    · intro l hl
      rw [show (w.step (.drop channel)).live = _ from hlive] at hl
      exact h l (List.mem_filter.mp hl).1
    · rw [show w.step (.drop channel) = w from hsame]
      exact h

/-- What a read of a channel does to the dialog: it keeps its ends, and an `ACK` only confirms it. -/
structure Reads (how : Reception → Dialog → Dialog) : Prop where
  ends : ∀ r (d : Dialog), d.SameEnds (how r d)
  state : ∀ (request : IncomingRequest) sent (d : Dialog),
    (how ⟨some (.request request), sent⟩ d).state = .confirmed →
      d.state = .confirmed ∨ request.method = .ack

/-- A read by `receive_request` keeps the ends of the dialog. -/
theorem reads_receiveRequest : Reads fun r d => (d.receiveRequest [r]).dialog := by
  have hreceived : ∀ (r : Reception) (d : Dialog),
      (d.receiveRequest [r]).dialog = d.received r := by
    intro r d
    unfold Dialog.receiveRequest
    simp only [Dialog.receiveRequest]
    split <;> rfl
  constructor
  · intro r d
    rw [hreceived]
    exact Dialog.receive_sameEnds r d
  · intro request sent d hconfirmed
    rw [hreceived, Dialog.state_received] at hconfirmed
    exact .inl hconfirmed

/-- A read by `wait_for_ack` keeps the ends of the dialog, and confirms it only by an `ACK`. -/
theorem reads_waitForAck : Reads fun r d => (d.waitForAck [some r]).dialog := by
  constructor
  · intro r d
    obtain ⟨hid, hfrom, hto, hrole, hreceiver⟩ := Dialog.receive_sameEnds r d
    unfold Dialog.waitForAck
    simp only [Dialog.waitForAck]
    split
    · exact ⟨hid, hfrom, hto, hrole, hreceiver⟩
    · split <;> exact ⟨hid, hfrom, hto, hrole, hreceiver⟩
    · exact ⟨hid, hfrom, hto, hrole, hreceiver⟩
  · intro request sent d hconfirmed
    have hwaited := Dialog.waited_waitForAck [some ⟨some (.request request), sent⟩] d
    rcases hwaited.state with ⟨ack, hresult, -⟩ | ⟨-, hstate⟩
    · -- the `ACK` is the request that was read
      obtain ⟨before, r, after, hreceptions, -, hmsg, hmethod⟩ := (hwaited.result ack).mp hresult
      obtain rfl : r = ⟨some (.request request), sent⟩ := by
        have hmem : some r ∈ [some (⟨some (.request request), sent⟩ : Reception)] := by
          rw [hreceptions]
          simp
        exact Option.some.inj (List.mem_singleton.mp hmem)
      obtain rfl := IncomingMessage.request.inj (Option.some.inj hmsg)
      exact .inr hmethod
    · exact .inl (hstate.symm.trans hconfirmed)

/-- Who has sent an `ACK` has more transactions and more responses later. -/
theorem Acknowledges.mono {u' : Agent} {m : SipMessage} (h : u.Acknowledges m)
    (hclients : u.clients ⊆ u'.clients) (hanswers : u.answers ⊆ u'.answers) :
    u'.Acknowledges m := by
  obtain ⟨c, hc, response, hresponse, ack, hack, rfl⟩ := h
  exact ⟨c, hclients hc, response, hanswers hresponse, ack, hack, rfl⟩

/-- A read keeps an agent from sending what it does not send by itself. -/
theorem outside_read (h : u.Outside) (channel : ChannelId) (sent : Except Error Unit)
    {how : Reception → Dialog → Dialog} (hhow : Reads how) :
    (u.read channel sent how).Outside := by
  unfold read
  split
  · exact h
  · refine ⟨fun l' hl' => ?_, h.requested, h.sent⟩
    obtain ⟨l, hl, rfl | ⟨-, rfl⟩⟩ := DialogTable.mem_modify hl'
    · exact h.dialogs _ hl
    · show (how _ l.dialog).toHdr.tag = none
      rw [(hhow.ends _ l.dialog).toHdr]
      exact h.dialogs l hl

/-- A request of a dialog has the `To` of the dialog only. -/
theorem untagged_request {d : Dialog} (h : d.toHdr.tag = none) (method : SipMethod)
    (random : UInt32) (added : AddedHeaders) (body : Option Bytes) :
    let request := (d.createRequest method random).1
    (SipMessage.request
      { request with headers := request.headers ++ added.headers, body := body }).Untagged := by
  intro request t ht
  rcases List.mem_append.mp ht with hown | hadded
  · have heq : t = d.toHdr := by simpa [request, Dialog.createRequest] using hown
    rw [heq]
    exact h
  · exact absurd hadded (added.noTo t)

/-- A client transaction leaves the `To` of its request alone. -/
theorem untagged_send {generated : String} {outgoing : OutgoingRequest} {now : Nat}
    {c : ClientTransaction} (hsend : ClientTransaction.send generated outgoing now = some c)
    (h : (SipMessage.request outgoing.request).Untagged) :
    (SipMessage.request c.request.request).Untagged := by
  unfold ClientTransaction.send at hsend
  split at hsend
  · cases hsend
  · obtain rfl := Option.some.inj hsend
    exact fun t ht => h t (toHdr_of_withBranch ht)

/-- What a leaving request adds to what was sent. -/
theorem leave_cases (request : Request) (leaving : Leaving) (u : Agent) :
    u.leave request leaving = u ∨ ∃ r clients,
      u.leave request leaving =
        { u with
          clients := u.clients ++ clients
          requested := u.requested ++ [r]
          sent := u.sent ++ [.request r] } ∧
      ((SipMessage.request request).Untagged → (SipMessage.request r).Untagged) := by
  cases leaving with
  | transaction generated target now =>
    cases hsend : ClientTransaction.send generated ⟨request, target⟩ now with
    | none =>
      left
      simp only [leave, hsend]
    | some c =>
      right
      refine ⟨c.request.request, [c], ?_, untagged_send hsend⟩
      simp only [leave, hsend]
  | endpoint =>
    right
    exact ⟨request, [], by simp [leave], id⟩

/-- A request without a tag in its `To` may leave, by a client transaction or as it is. -/
theorem Outside.leave (h : u.Outside) {request : Request}
    (hrequest : (SipMessage.request request).Untagged) (leaving : Leaving) :
    (u.leave request leaving).Outside := by
  rcases leave_cases request leaving u with hsame | ⟨r, clients, heq, hr⟩
  · rw [hsame]
    exact h
  · rw [heq]
    have hr := hr hrequest
    refine ⟨h.dialogs, fun r' hr' => ?_, fun m hm => ?_⟩
    · rcases List.mem_append.mp hr' with hold | hnew
      · exact (h.requested r' hold).imp_right (List.mem_append_left _)
      · rw [List.mem_singleton.mp hnew]
        exact ⟨hr, by simp⟩
    · rcases List.mem_append.mp hm with hold | hnew
      · exact (h.sent m hold).imp_right fun hack =>
          hack.mono (List.subset_append_left _ _) (List.Subset.refl _)
      · rw [List.mem_singleton.mp hnew]
        exact .inl hr

/-- **A step of a user agent** makes no tag known. -/
theorem Outside.step (h : u.Outside) (e : AgentEvent) : (u.step e).Outside := by
  cases e with
  | call fromUri toUri contactUri endpoint tag callId cseq =>
    exact ⟨outside_table h.dialogs _, h.requested, h.sent⟩
  | answer n contact endpoint tag =>
    simp only [Agent.step]
    split
    · exact ⟨outside_table h.dialogs _, h.requested, h.sent⟩
    · exact h
  | request channel method random added body leaving =>
    simp only [Agent.step]
    split
    · next l hl =>
      have hlive := h.dialogs l (List.mem_of_find?_eq_some hl)
      have htable : ({ u with
          table := u.table.step (.createRequest channel method random) } : Agent).Outside :=
        ⟨outside_table h.dialogs _, h.requested, h.sent⟩
      exact htable.leave (untagged_request hlive method random added body) leaving
    · exact h
  | acknowledge n m =>
    simp only [Agent.step]
    split
    · next c response hc hresponse =>
      split
      · next ack hack =>
        refine ⟨h.dialogs, fun r hr => (h.requested r hr).imp_right (List.mem_append_left _),
          fun m hm => ?_⟩
        rcases List.mem_append.mp hm with hold | hnew
        · exact h.sent m hold
        · exact .inr ⟨c, List.mem_of_getElem? hc, response, List.mem_of_getElem? hresponse, ack,
            hack, List.mem_singleton.mp hnew⟩
      · exact h
    · exact h
  | respond response =>
    refine ⟨h.dialogs, fun r hr => (h.requested r hr).imp_right (List.mem_append_left _),
      fun m hm => ?_⟩
    rcases List.mem_append.mp hm with hold | hnew
    · exact h.sent m hold
    · rw [List.mem_singleton.mp hnew]
      exact .inl trivial
  | provisional channel => exact ⟨outside_table h.dialogs _, h.requested, h.sent⟩
  | bye channel => exact ⟨outside_table h.dialogs _, h.requested, h.sent⟩
  | receive channel sent => exact outside_read h channel sent reads_receiveRequest
  | waitForAck channel sent => exact outside_read h channel sent reads_waitForAck
  | drop channel => exact ⟨outside_table h.dialogs _, h.requested, h.sent⟩

/-- What a step leaves alone: what has arrived, and what was sent. -/
theorem step_frame (u : Agent) (e : AgentEvent) :
    (u.step e).arrived = u.arrived ∧ (u.step e).answers = u.answers ∧
      u.sent ⊆ (u.step e).sent := by
  cases e with
  | request channel method random added body leaving =>
    simp only [Agent.step]
    split
    · rcases leave_cases _ leaving _ with hsame | ⟨r, clients, heq, -⟩
      · rw [hsame]
        exact ⟨rfl, rfl, List.Subset.refl _⟩
      · rw [heq]
        exact ⟨rfl, rfl, List.subset_append_left _ _⟩
    · exact ⟨rfl, rfl, List.Subset.refl _⟩
  | acknowledge n m =>
    simp only [Agent.step]
    split
    · split
      · exact ⟨rfl, rfl, List.subset_append_left _ _⟩
      · exact ⟨rfl, rfl, List.Subset.refl _⟩
    · exact ⟨rfl, rfl, List.Subset.refl _⟩
  | respond response => exact ⟨rfl, rfl, List.subset_append_left _ _⟩
  | answer n contact endpoint tag =>
    simp only [Agent.step]
    split <;> exact ⟨rfl, rfl, List.Subset.refl _⟩
  | receive channel sent | waitForAck channel sent =>
    simp only [Agent.step, read]
    split <;> exact ⟨rfl, rfl, List.Subset.refl _⟩
  | _ => exact ⟨rfl, rfl, List.Subset.refl _⟩

/-! ### What comes to a dialog -/

/-- Outside of any dialog a request goes to a transaction or to the user. -/
theorem onRequest_ne_dialog {request : IncomingRequest}
    (h : DialogId.fromIncomingRequest request = none) (how : Ingress) (u : Agent)
    (channel : ChannelId) :
    Endpoint.onRequest ((u.plugins how).map RegisteredPlugin.plugin) request ≠ .dialog channel := by
  have hdialogs : (Plugin.dialog u.table.plugin).onIncomingRequest request = none := by
    simp [Plugin.onIncomingRequest, DialogPlugin.onIncomingRequest, h]
  have htransactions : ∀ out, (Plugin.tsx how.transactions).onIncomingRequest request = some out →
      out ≠ .dialog channel := by
    intro out hout
    simp only [Plugin.onIncomingRequest, TsxPlugin.onIncomingRequest] at hout
    split at hout
    · rw [← Option.some.inj hout]
      exact Outcome.noConfusion
    · obtain ⟨id, -, rfl⟩ := Option.map_eq_some_iff.mp hout
      exact Outcome.noConfusion
  have huser : (Plugin.user fun _ => true).onIncomingRequest request = some .user := rfl
  unfold plugins
  cases htsx : (Plugin.tsx how.transactions).onIncomingRequest request with
  | some out =>
    have hne := htransactions out htsx
    cases how.transactionsFirst <;> simpa [Endpoint.onRequest, hdialogs, htsx] using hne
  | none =>
    cases how.transactionsFirst <;> simp [Endpoint.onRequest, hdialogs, htsx, huser]

/-- **What an arriving message does**: a request that has a tag may come to a dialog, a response to
    a transaction, and what is left is the user's. -/
theorem receive_cases (how : Ingress) (m : SipMessage) (u : Agent) :
    (∃ channel request, ReadFrom m (.request request) ∧
        DialogId.fromIncomingRequest request ≠ none ∧
        u.receive how m =
          { u with
            arrived := Function.update u.arrived channel (u.arrived channel ++ [request])
            inbox := Function.update u.inbox channel (u.inbox channel ++ [request]) }) ∨
      (∃ response, ReadFrom m (.response response) ∧
        u.receive how m = { u with answers := u.answers ++ [response] }) ∨
      ∃ incoming, u.receive how m = { u with incoming := incoming } := by
  cases hencode : encode m with
  | none => exact .inr (.inr ⟨u.incoming, by simp only [receive, hencode]⟩)
  | some data =>
    cases hread : (⟨how.transport, ⟨data, how.source⟩⟩ : TransportMessage).read with
    | none => exact .inr (.inr ⟨u.incoming, by simp only [receive, hencode, hread]⟩)
    | some msg =>
      have hfrom : ReadFrom m msg := ⟨_, hencode, hread⟩
      simp only [receive, hencode, hread]
      split
      · next channel request hprocess =>
        refine .inl ⟨channel, request, hfrom, fun hnone => ?_, rfl⟩
        -- without a tag no dialog gets it
        obtain ⟨mandatoryHeaders, hparse, hheaders, hinfo⟩ := read_eq_some hread
        refine onRequest_ne_dialog hnone how u channel ?_
        rw [← hprocess]
        simp only [TransportLayer.processMessage, hparse, hheaders]
        rw [show request = ⟨request.request, request.incomingInfo⟩ from rfl,
          show request.incomingInfo = _ from hinfo]
        rfl
      · next response _ => exact .inr (.inl ⟨response, hfrom, rfl⟩)
      · exact .inr (.inr ⟨_, rfl⟩)
      · exact .inr (.inr ⟨u.incoming, rfl⟩)

/-- An arriving message leaves the dialogs and what was sent alone. -/
theorem Outside.receive (h : u.Outside) (how : Ingress) (m : SipMessage) :
    (u.receive how m).Outside := by
  rcases receive_cases how m u with ⟨channel, request, -, -, heq⟩ | ⟨response, -, heq⟩ |
      ⟨incoming, heq⟩ <;> rw [heq]
  · exact ⟨h.dialogs, h.requested, h.sent⟩
  · refine ⟨h.dialogs, h.requested, fun m' hm' => (h.sent m' hm').imp_right fun hack => ?_⟩
    exact hack.mono (List.Subset.refl _) (List.subset_append_left _ _)
  · exact ⟨h.dialogs, h.requested, h.sent⟩

/-- An agent that receives a message sends nothing in this step. -/
theorem sent_receive (how : Ingress) (m : SipMessage) (u : Agent) :
    (u.receive how m).sent = u.sent := by
  rcases receive_cases how m u with ⟨channel, request, -, -, heq⟩ | ⟨response, -, heq⟩ |
    ⟨incoming, heq⟩ <;> rw [heq]

/-- A dialog that is confirmed has got an `ACK`. -/
def ByAck (arrived : ChannelId → List IncomingRequest) (w : DialogTable) : Prop :=
  ∀ l ∈ w.live, l.dialog.state = .confirmed →
    ∃ ack ∈ arrived l.dialog.receiver, ack.method = .ack

/-- What has arrived was read from genuine messages, for the dialogs from those with a tag, and
    without an `ACK` no dialog is confirmed. -/
structure Heard (Genuine : SipMessage → Prop) (u : Agent) : Prop where
  inbox : ∀ channel, u.inbox channel ⊆ u.arrived channel
  arrived : ∀ channel, ∀ request ∈ u.arrived channel,
    DialogId.fromIncomingRequest request ≠ none ∧ ∃ m, Genuine m ∧ ReadFrom m (.request request)
  answers : ∀ response ∈ u.answers, ∃ m, Genuine m ∧ ReadFrom m (.response response)
  confirmed : ByAck u.arrived u.table

/-- A change that confirms no dialog needs no `ACK`. -/
theorem byAck_modify {arrived : ChannelId → List IncomingRequest} {w : DialogTable}
    (h : ByAck arrived w) {f : LiveDialog → LiveDialog} {channel : ChannelId}
    (hreceiver : ∀ l : LiveDialog, (f l).dialog.receiver = l.dialog.receiver)
    (hstate : ∀ l : LiveDialog, (f l).dialog.state = .confirmed →
      l.dialog.state = .confirmed ∨ ∃ ack ∈ arrived channel, ack.method = .ack) :
    ByAck arrived (w.modify channel f) := by
  intro l' hl' hconfirmed
  obtain ⟨l, hl, rfl | ⟨rfl, rfl⟩⟩ := DialogTable.mem_modify hl'
  · exact h _ hl hconfirmed
  · rw [hreceiver]
    rcases hstate l hconfirmed with hbefore | hack
    · exact h l hl hbefore
    · exact hack

/-- A dialog starts in `Init`. -/
theorem byAck_createUas {arrived : ChannelId → List IncomingRequest} {w : DialogTable}
    (h : ByAck arrived w) (request : IncomingRequest) (contact : Contact) (endpoint : Endpoint)
    (tag : String) : ByAck arrived (w.step (.createUas request contact endpoint tag)) := by
  cases hcreated : Dialog.createUas request contact endpoint tag w.channels w.plugin with
  | error e => simpa only [DialogTable.step, hcreated] using h
  | ok created =>
    obtain ⟨dialog, plugin⟩ := created
    obtain ⟨-, rfl, -⟩ := Dialog.createUas_ok hcreated
    simp only [DialogTable.step, hcreated]
    exact List.forall_mem_cons.mpr ⟨fun hstate => DialogState.noConfusion hstate, h⟩

/-- Without one of them, the confirmed dialogs have got their `ACK`s still. -/
theorem byAck_drop {arrived : ChannelId → List IncomingRequest} {w : DialogTable}
    (h : ByAck arrived w) (channel : ChannelId) : ByAck arrived (w.step (.drop channel)) := by
  rcases DialogTable.drop_cases channel w with ⟨-, -, -, -, hlive, -⟩ | hsame
  · intro l hl
    rw [show (w.step (.drop channel)).live = _ from hlive] at hl
    exact h l (List.mem_filter.mp hl).1
  · rw [show w.step (.drop channel) = w from hsame]
    exact h

variable {Genuine : SipMessage → Prop}

/-- A request that is read came into the channel before. -/
theorem Heard.read (h : u.Heard Genuine) (channel : ChannelId) (sent : Except Error Unit)
    {how : Reception → Dialog → Dialog} (hhow : Reads how) :
    (u.read channel sent how).Heard Genuine := by
  unfold Agent.read
  split
  · exact h
  · next request rest hinbox =>
    have harrived : request :: rest ⊆ u.arrived channel := hinbox ▸ h.inbox channel
    refine ⟨fun channel' => ?_, h.arrived, h.answers, ?_⟩
    · by_cases hchannel : channel' = channel
      · subst hchannel
        simp only [Function.update_self]
        exact List.Subset.trans (List.subset_cons_self _ _) harrived
      · simp only [Function.update_of_ne hchannel]
        exact h.inbox channel'
    · refine byAck_modify h.confirmed (fun l => (hhow.ends _ l.dialog).receiver) fun l hl => ?_
      exact (hhow.state request sent l.dialog hl).imp_right fun hack =>
        ⟨request, harrived List.mem_cons_self, hack⟩

/-- **Without an `ACK` in its channel a dialog is not confirmed** by a step. -/
theorem Heard.step (h : u.Heard Genuine) (e : AgentEvent) : (u.step e).Heard Genuine := by
  cases e with
  | call fromUri toUri contactUri endpoint tag callId cseq =>
    refine ⟨h.inbox, h.arrived, h.answers, ?_⟩
    exact List.forall_mem_cons.mpr ⟨fun hstate => DialogState.noConfusion hstate, h.confirmed⟩
  | answer n contact endpoint tag =>
    simp only [Agent.step]
    split
    · exact ⟨h.inbox, h.arrived, h.answers, byAck_createUas h.confirmed _ _ _ _⟩
    · exact h
  | request channel method random added body leaving =>
    simp only [Agent.step]
    split
    · have htable : ByAck u.arrived (u.table.step (.createRequest channel method random)) :=
        byAck_modify h.confirmed (fun _ => rfl) fun _ => .inl
      rcases leave_cases _ leaving _ with hsame | ⟨r, clients, heq, -⟩
      · rw [hsame]
        exact ⟨h.inbox, h.arrived, h.answers, htable⟩
      · rw [heq]
        exact ⟨h.inbox, h.arrived, h.answers, htable⟩
    · exact h
  | acknowledge n m =>
    simp only [Agent.step]
    split
    · split
      · exact ⟨h.inbox, h.arrived, h.answers, h.confirmed⟩
      · exact h
    · exact h
  | respond response => exact ⟨h.inbox, h.arrived, h.answers, h.confirmed⟩
  | provisional channel | bye channel =>
    refine ⟨h.inbox, h.arrived, h.answers, ?_⟩
    exact byAck_modify h.confirmed (fun _ => rfl) fun _ hstate => DialogState.noConfusion hstate
  | receive channel sent => exact h.read channel sent reads_receiveRequest
  | waitForAck channel sent => exact h.read channel sent reads_waitForAck
  | drop channel => exact ⟨h.inbox, h.arrived, h.answers, byAck_drop h.confirmed channel⟩

/-- What a channel has after one more came into it is what it had, or that one. -/
theorem mem_update_append {α : Type} {f : ChannelId → List α} {channel channel' : ChannelId}
    {a b : α} (h : b ∈ Function.update f channel (f channel ++ [a]) channel') :
    b ∈ f channel' ∨ b = a ∧ channel' = channel := by
  by_cases hchannel : channel' = channel
  · subst hchannel
    rw [Function.update_self] at h
    exact (List.mem_append.mp h).imp_right fun hlast => ⟨List.mem_singleton.mp hlast, rfl⟩
  · rw [Function.update_of_ne hchannel] at h
    exact .inl h

/-- No channel loses something when one more comes into one of them. -/
theorem subset_update_append {α : Type} (f : ChannelId → List α) (channel channel' : ChannelId)
    (a : α) : f channel' ⊆ Function.update f channel (f channel ++ [a]) channel' := by
  by_cases hchannel : channel' = channel
  · subst hchannel
    rw [Function.update_self]
    exact List.subset_append_left _ _
  · rw [Function.update_of_ne hchannel]
    exact List.Subset.refl _

/-- **An arriving message** is read from a genuine one. -/
theorem Heard.receive (h : u.Heard Genuine) (how : Ingress) {m : SipMessage} (hm : Genuine m) :
    (u.receive how m).Heard Genuine := by
  rcases receive_cases how m u with ⟨channel, request, hread, htag, heq⟩ | ⟨response, hread, heq⟩ |
      ⟨incoming, heq⟩ <;> rw [heq]
  · refine ⟨fun channel' request' hmem => ?_, fun channel' request' hmem => ?_, h.answers, ?_⟩
    · rcases mem_update_append hmem with hold | ⟨rfl, rfl⟩
      · exact subset_update_append _ _ _ _ (h.inbox channel' hold)
      · simp
    · rcases mem_update_append hmem with hold | ⟨rfl, -⟩
      · exact h.arrived channel' request' hold
      · exact ⟨htag, m, hm, hread⟩
    · intro l hl hconfirmed
      obtain ⟨ack, hack, hmethod⟩ := h.confirmed l hl hconfirmed
      exact ⟨ack, subset_update_append _ _ _ _ hack, hmethod⟩
  · refine ⟨h.inbox, h.arrived, fun response' hmem => ?_, h.confirmed⟩
    rcases List.mem_append.mp hmem with hold | hnew
    · exact h.answers response' hold
    · exact ⟨m, hm, List.mem_singleton.mp hnew ▸ hread⟩
  · exact ⟨h.inbox, h.arrived, h.answers, h.confirmed⟩

/-- What a user agent keeps, whatever it does and whatever comes. -/
theorem relies_heard : party.Relies fun Genuine u => u.Outside ∧ u.Heard Genuine where
  mono hmono h := by
    refine ⟨h.1, h.2.inbox, fun channel request hmem => ?_, fun response hmem => ?_, h.2.confirmed⟩
    · obtain ⟨htag, m, hm, hread⟩ := h.2.arrived channel request hmem
      exact ⟨htag, m, hmono m hm, hread⟩
    · obtain ⟨m, hm, hread⟩ := h.2.answers response hmem
      exact ⟨m, hmono m hm, hread⟩
  step e h := ⟨⟨h.1.step e, h.2.step e⟩, (step_frame _ e).2.2⟩
  receive how m hm h := by
    refine ⟨⟨h.1.receive how m, h.2.receive how hm⟩, ?_⟩
    rw [show party.sent (party.receive how m _) = _ from sent_receive how m _]
    exact List.Subset.refl _

/-- The reads of a channel bring no request but those that came into it. -/
def ReadsFrom (inbox : List IncomingRequest) (receptions : List (Option Reception)) : Prop :=
  ∀ r request, some r ∈ receptions → r.msg = some (.request request) → request ∈ inbox

/-- **A call is accepted only with an `ACK` from its channel.** -/
theorem ack_of_accept {s : Session Incoming} {w : AcceptWorld} {arrived : List IncomingRequest}
    (h : ReadsFrom arrived w.acks) {code : StatusCode} {reason : Option String}
    {params : Media.SdpOfferParams} {ids : OfferIds} {established : Session Established}
    (hok : accept w code reason params ids s = .ok established) :
    ∃ ack ∈ arrived, ack.method = .ack := by
  -- the call goes on behind the wait only with an `ACK`
  have hwaited : ∃ ack, (s.state.dialog.waitForAck w.acks).result = some (.ok ack) := by
    unfold accept at hok
    obtain ⟨offer, -, hok⟩ := except_bind_eq_ok_iff.mp hok
    obtain ⟨⟨body, negotiator⟩, -, hok⟩ := except_bind_eq_ok_iff.mp hok
    obtain ⟨-, -, hok⟩ := except_bind_eq_ok_iff.mp hok
    simp only [] at hok
    split at hok
    · cases hok
    · next result hresult =>
      obtain ⟨ack, hack, -⟩ := except_bind_eq_ok_iff.mp hok
      cases result with
      | error e => cases hack
      | ok ack' => exact ⟨ack', hresult⟩
  obtain ⟨ack, hack⟩ := hwaited
  obtain ⟨before, r, after, hacks, -, hmsg, hmethod⟩ :=
    ((Dialog.waited_waitForAck w.acks s.state.dialog).result ack).mp hack
  have hmem : some r ∈ w.acks := by simp [hacks]
  exact ⟨ack, h r ack hmem hmsg, hmethod⟩

variable {ι : Type}

/-- The request was read from the `ACK` that a client transaction has sent for a response that
    refuses its `INVITE`, and this response from one that was sent. -/
def OfRefusal (w : ι → Agent) (request : IncomingRequest) : Prop :=
  ∃ i, ∃ c ∈ (w i).clients, ∃ r ∈ (w i).answers, ∃ ack,
    c.ackFor r = some ack ∧ 300 ≤ r.code.asU16 ∧ .request ack.request ∈ (w i).sent ∧
      ReadFrom (.request ack.request) (.request request) ∧
        ∃ j response, .response response ∈ (w j).sent ∧ ReadFrom (.response response) (.response r)

/-- The `ACK` is one, and it is for a response that refuses. -/
theorem ackFor_eq_some {c : ClientTransaction} {r : IncomingResponse} {ack : OutgoingRequest}
    (h : c.ackFor r = some ack) : 300 ≤ r.code.asU16 ∧ ack.method = .ack := by
  unfold ClientTransaction.ackFor at h
  split at h
  · unfold ClientTransaction.createAckRequest at h
    split at h
    · next hcode =>
      obtain rfl := Option.some.inj h
      exact ⟨hcode.1, rfl⟩
    · cases h
  · cases h

/-- What is read of a request has its method. -/
theorem method_of_readFrom {r : Request} (hlegible : (SipMessage.request r).RoundTrips)
    {request : IncomingRequest} (hread : ReadFrom (.request r) (.request request)) :
    request.method = r.reqLine.method := by
  obtain ⟨-, hsame, -⟩ := hread.eq hlegible
  exact (congrArg (fun r : Request => r.reqLine.method) (SipMessage.request.inj hsame)).symm

/-- A request with a tag is an `ACK`: nobody else knows a tag. -/
theorem ofRefusal_of_read {w : ι → Agent}
    (hkept : ∀ i, (w i).Outside ∧ (w i).Heard (party.Sent w))
    (hlegible : ∀ i, ∀ m ∈ (w i).sent, m.RoundTrips) {request : IncomingRequest}
    (htag : DialogId.fromIncomingRequest request ≠ none) {m : SipMessage} (hm : party.Sent w m)
    (hread : ReadFrom m (.request request)) : OfRefusal w request := by
  obtain ⟨i, hm⟩ := hm
  cases m with
  | response r => exact absurd hread.kind (by simp [IncomingMessage.sipMessage, SipMessage.kind])
  | request r =>
    rcases (hkept i).1.sent _ hm with huntagged | ⟨c, hc, response, hresponse, ack, hack, heq⟩
    · exact absurd (fromIncomingRequest_of_untagged huntagged (hlegible i _ hm) hread) htag
    · obtain rfl := SipMessage.request.inj heq
      refine ⟨i, c, hc, response, hresponse, ack, hack, (ackFor_eq_some hack).1, hm, hread, ?_⟩
      -- and the response was read from one that somebody has sent
      obtain ⟨m', ⟨j, hm'⟩, hread'⟩ := (hkept i).2.answers response hresponse
      cases m' with
      | request r' =>
        exact absurd hread'.kind (by simp [IncomingMessage.sipMessage, SipMessage.kind])
      | response r' => exact ⟨j, r', hm', hread'⟩

variable [DecidableEq ι]

/-- **No dialog ever gets a request of another one, and no call is confirmed but one that was
    refused.** In a network of user agents that make and answer calls and send requests in their
    dialogs, whatever they and the network do: what comes into the channel of a dialog was read from
    no request that was made in a dialog, but from the `ACK` that a client transaction has sent for a
    response that refuses its call; a dialog is confirmed, and a call of `accept` that reads its
    channel returns a session, only if such an `ACK` has come.  The messages have to be legible. -/
theorem arrived_refused (es : List (NetworkEvent ι AgentEvent Ingress))
    (hlegible : ∀ i, ∀ m ∈ (network es i).sent, m.RoundTrips) (i : ι) :
    (∀ channel, ∀ request ∈ (network es i).arrived channel,
        request.method = .ack ∧ OfRefusal (network es) request ∧
          ∀ j, ∀ r ∈ (network es j).requested, ¬ ReadFrom (.request r) (.request request)) ∧
      (∀ l ∈ (network es i).table.live, l.dialog.state = .confirmed →
        ∃ request ∈ (network es i).arrived l.dialog.receiver, OfRefusal (network es) request) ∧
      ∀ (s : Session Incoming) (w : AcceptWorld),
        ReadsFrom ((network es i).arrived s.state.dialog.receiver) w.acks →
          ∀ code reason params ids established,
            accept w code reason params ids s = .ok established →
              ∃ request ∈ (network es i).arrived s.state.dialog.receiver,
                OfRefusal (network es) request := by
  have hstart : ∀ i : ι, ({} : Agent).Outside ∧
      ({} : Agent).Heard (party.Sent fun _ : ι => ({} : Agent)) := by
    intro i
    exact ⟨⟨by simp, by simp, by simp⟩, by simp, by simp, by simp, by simp [ByAck]⟩
  have hkept : ∀ i, (network es i).Outside ∧ (network es i).Heard (party.Sent (network es)) :=
    relies_heard.exec hstart es
  have hrefused : ∀ channel, ∀ request ∈ (network es i).arrived channel,
      OfRefusal (network es) request := by
    intro channel request hmem
    obtain ⟨htag, m, hm, hread⟩ := (hkept i).2.arrived channel request hmem
    exact ofRefusal_of_read hkept hlegible htag hm hread
  refine ⟨fun channel request hmem => ?_, fun l hl hconfirmed => ?_, ?_⟩
  · obtain ⟨k, c, -, r, -, ack, hack, -, hsent, hread, -⟩ := hrefused channel request hmem
    have hmethod := method_of_readFrom (hlegible k _ hsent) hread
    refine ⟨hmethod.trans (ackFor_eq_some hack).2, hrefused channel request hmem,
      fun j r hr hread => ?_⟩
    obtain ⟨huntagged, hsent⟩ := (hkept j).1.requested r hr
    exact ((hkept i).2.arrived channel request hmem).1
      (fromIncomingRequest_of_untagged huntagged (hlegible j _ hsent) hread)
  · obtain ⟨ack, hack, -⟩ := (hkept i).2.confirmed l hl hconfirmed
    exact ⟨ack, hack, hrefused _ ack hack⟩
  · intro s w hreads code reason params ids established hok
    obtain ⟨ack, hack, -⟩ := ack_of_accept hreads hok
    exact ⟨ack, hack, hrefused _ ack hack⟩

/-! ### A call that is refused -/

/-- The packets come from `localhost`, by UDP. -/
def fromLocal : Ingress where
  transport := .localhost false
  source := .localhost

/-- Nothing is pushed behind the headers of the dialog. -/
def noHeaders : AddedHeaders := ⟨[], fun _ => List.not_mem_nil⟩

/-- The response to the call below, with the tag of its dialog. -/
def busyToCall : Response where
  statusLine := ⟨.busyHere, "Busy Here"⟩
  headers := (IncomingInfo.localhost .invite (some "to") false).mandatoryHeaders.intoHeaders

/-- A call from `false` to `true`, which makes a dialog for it and refuses it.  The client
    transaction gets the response and sends its `ACK`, the dialog reads it, and at last `true` sends
    a `BYE`. -/
def refusedRun : List (NetworkEvent Bool AgentEvent Ingress) :=
  let viaTransaction : Leaving := .transaction "z9hG4bK1" ⟨.localhost, .localhost false⟩ 0
  let transactions : TsxPlugin :=
    TsxPlugin.addTransaction (TransactionKey.newKey3261 .uac .invite "z9hG4bK1") 0 {}
  [.acts false (.call (.uri Uri.localhost) (.uri Uri.localhost) none {} "from" "1" 1),
    .acts false (.request 0 .invite 0 noHeaders none viaTransaction),
    .arrives true false 0 fromLocal,
    .acts true (.answer 0 ⟨.uri Uri.localhost, none, none, {}⟩ {} "to"),
    .acts true (.respond busyToCall),
    .arrives false true 0 { fromLocal with transactions := transactions },
    .acts false (.acknowledge 0 0), .arrives true false 1 fromLocal,
    .acts true (.waitForAck 0 (.ok ())),
    .acts true (.request 0 .bye 7 noHeaders none viaTransaction), .arrives false true 1 fromLocal]

/-- The method, if the message is a request. -/
def method? : SipMessage → Option SipMethod
  | .request r => some r.reqLine.method
  | .response _ => none

/-- The `ACK` comes to the dialog and confirms it, the `BYE` comes to none, and all is legible. -/
theorem refusedRun_facts :
    (network refusedRun false).sent.map method? = [some .invite, some .ack] ∧
      (network refusedRun true).sent.map method? = [none, some .bye] ∧
      ((network refusedRun true).arrived 0).length = 1 ∧
      (network refusedRun true).table.live.map (fun l => l.dialog.state) = [.confirmed] ∧
      (network refusedRun false).incoming.length = 1 ∧
      ∀ i, ∀ m ∈ (network refusedRun i).sent, m.RoundTrips := by
  decide +kernel

/-- The dialog was confirmed by the `ACK` for the response that refuses the call. -/
theorem arrived_refused_busy :
    (network refusedRun false).sent.map method? = [some .invite, some .ack] ∧
      (network refusedRun true).sent.map method? = [none, some .bye] ∧
      (network refusedRun true).table.live.map (fun l => l.dialog.state) = [.confirmed] ∧
      ∃ request ∈ (network refusedRun true).arrived 0,
        request.method = .ack ∧ OfRefusal (network refusedRun) request := by
  obtain ⟨hcaller, hcallee, harrived, hstates, -, hlegible⟩ := refusedRun_facts
  obtain ⟨request, hrequest⟩ := List.exists_mem_of_length_pos (by rw [harrived]; decide)
  obtain ⟨hmethod, hof, -⟩ := (arrived_refused refusedRun hlegible true).1 0 request hrequest
  exact ⟨hcaller, hcallee, hstates, request, hrequest, hmethod, hof⟩

end Agent

end Rssip
