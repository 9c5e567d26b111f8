import Rssip.Lib.Ends
import Rssip.Media.Negotiator
import Rssip.Media.SdpParser
import Rssip.Ua.Dialog

namespace Rssip

open Lib

/-!
# Sessions

An `INVITE`, its response and the `ACK` carry an offer and an answer between them, in one of two
ways, and the media of the session are set up from the answer.

* `sendInvite`, `receiveAnswer` — the side that calls;
* `fromInvite`, `accept` — the side that is called;
* `answer_read_iff` — when there is an answer to set up the media from.  A response without a body
  leaves the side that calls without one.

What is sent goes to functions that say what comes of it; random numbers, messages received and
the local address are arguments.
-/

/-- The errors of the endpoint and of the negotiator. -/
inductive SessionError where
  | core (e : Error)
  | media (e : Media.Error)
deriving DecidableEq

/-- Where a call panics. -/
inductive SessionPanic where
  | negotiator (p : Media.Panic)
  /-- `TransactionKey::from_request`. -/
  | transactionKey
  /-- `todo!("we have early offer?")` -/
  | earlyOffer
  /-- `unreachable!()` -/
  | negotiationDone
  /-- `negotiator.answer().unwrap()` -/
  | answerUnwrap
  /-- `negotiator.answer().expect("a offer")` -/
  | answerExpect
  /-- `todo!()`, for the other final responses. -/
  | notSuccessful
  /-- `unreachable!()`, for a response that is not final. -/
  | notFinal
deriving DecidableEq

/-- How a call ends, or where it waits, when it returns no session. -/
inductive SessionAbort where
  | error (e : SessionError)
  | parse (failure : Media.Failure)
  | panicked (p : SessionPanic)
  | waits
deriving DecidableEq

namespace SessionAbort

/-- How a call on the negotiator ends a call on the session. -/
def ofNegotiator : Media.Abort → SessionAbort
  | .error e => .error (.media e)
  | .panicked p => .panicked (.negotiator p)

end SessionAbort

/-- A result of the rest of the crate. -/
def core {α : Type} : Except Error α → Except SessionAbort α
  | .ok a => .ok a
  | .error e => .error (.error (.core e))

/-- A result of the negotiator. -/
def negotiate {α : Type} : Except Media.Abort α → Except SessionAbort α
  | .ok a => .ok a
  | .error abort => .error (.ofNegotiator abort)

/-- A call that changes the negotiator. -/
def update {α : Type} (out : Except Media.Abort α × Media.Negotiator) :
    Except SessionAbort (α × Media.Negotiator) :=
  (negotiate out.1).map fun a => (a, out.2)

/-- A body is read as a session description. -/
def parseSdp (localIp : IpAddr) (body : Bytes) : Except SessionAbort Media.SessionDescription :=
  match Media.SdpParser.parse localIp body with
  | .ok sdp => .ok sdp
  | .error failure => .error (.parse failure)

/-! ### The states of a session -/

/-- The state of a call that was made: its dialog, and the client transaction of the `INVITE`. -/
structure Calling where
  dialog : Dialog
  /-- The request of the client transaction. -/
  request : Request

/-- The state of a call that came in: its dialog, and the server transaction of the `INVITE`. -/
structure Incoming where
  dialog : Dialog
  serverTsx : ServerTransaction

/-- The media are set up from `sdp`. -/
structure Established where
  dialog : Dialog
  sdp : Media.SessionDescription

/-- A session: what it has in its state, and its negotiator. -/
structure Session (σ : Type) where
  state : σ
  negotiator : Media.Negotiator

/-- The random numbers of an offer. -/
structure OfferIds where
  sessionId : UInt64
  sessionVersion : UInt64

/-- What a call is made of; without `sdp` the other side is to make the offer. -/
structure InvitationParams where
  fromUri : SipUri
  toUri : SipUri
  contact : Option SipUri
  sdp : Option Media.SdpOfferParams

/-- The random texts and numbers of a call, and its channel. -/
structure CallIds where
  tag : String
  callId : String
  cseq : UInt32
  channel : ChannelId

/-- The type of a body that is a session description. -/
def ContentType.sdp : ContentType := ⟨⟨⟨"application", "sdp"⟩, {}⟩⟩

/-- A new offer, and the negotiator that has it as the local one. -/
def newOffer (params : Media.SdpOfferParams) (ids : OfferIds) (n : Media.Negotiator) :
    Except SessionAbort (Media.SessionDescription × Media.Negotiator) := do
  let offer ← negotiate (n.createOffer params ids.sessionId ids.sessionVersion)
  let (_, n) ← update (n.setLocalOffer offer)
  return (offer, n)

/-! ### The side that calls -/

/-- The offer of an invitation, if it has one. -/
def invitationOffer (sdp : Option Media.SdpOfferParams) (ids : OfferIds) :
    Except SessionAbort (Option Media.SessionDescription × Media.Negotiator) :=
  match sdp with
  | none => .ok (none, .new)
  | some params => (newOffer params ids .new).map fun out => (some out.1, out.2)

/-- The `INVITE` with what the endpoint supports, and the offer. -/
def inviteRequest (endpoint : Endpoint) (offer : Option Media.SessionDescription)
    (request : Request) : Request :=
  let allow := if endpoint.allow.methods = [] then [] else [Header.allow endpoint.allow]
  let supported :=
    if endpoint.supported.tags = [] then [] else [Header.supported endpoint.supported]
  match offer with
  | none => { request with headers := request.headers ++ allow ++ supported }
  | some offer =>
    { request with
      headers := request.headers ++ allow ++ supported ++ [.contentType .sdp]
      body := some offer.encode }

/-- A call is made: the dialog, the `INVITE` with the offer if there is one, and its transmission.
    -/
def sendInvite (params : InvitationParams) (endpoint : Endpoint) (plugin : DialogPlugin)
    (ids : CallIds) (offerIds : OfferIds) (sent : Request → Except Error Unit) :
    Except SessionAbort (Session Calling) := do
  let created := Dialog.createUac params.fromUri params.toUri params.contact endpoint ids.tag
    ids.callId ids.cseq ids.channel plugin
  let (request, dialog) := created.1.createRequest .invite 0
  let (offer, negotiator) ← invitationOffer params.sdp offerIds
  let request := inviteRequest endpoint offer request
  core (sent request)
  return { state := { dialog := dialog, request := request }, negotiator := negotiator }

/-- The body of the `ACK`, after a response with the given body. -/
def ackBody (localIp : IpAddr) (offer : Option Media.SdpOfferParams) (ids : OfferIds)
    (n : Media.Negotiator) : Option Bytes → Except SessionAbort (Option Bytes × Media.Negotiator)
  | none => .ok (none, n)
  | some body => do
    let remote ← parseSdp localIp body
    match n.state with
    | .initial =>
      match offer with
      | none =>
        .error (.error (.core (.custom "offer required to answer a delayed offer")))
      | some params =>
        let (_, n) ← newOffer params ids n
        let (_, n) ← update (n.setRemoteOffer remote)
        let (answer, n) ← update n.createAnswer
        return (some answer.encode, n)
    | .localOffer =>
      -- the body is an answer
      let (_, n) ← update (n.processAnswer remote)
      return (none, n)
    | .remoteOffer => .error (.panicked .earlyOffer)
    | .ready | .done => .error (.panicked .negotiationDone)

/-- What a call of `receive_answer` meets with: the final response of the transaction, what comes of
    making and sending the `ACK`, and of setting up the media. -/
structure AnswerWorld where
  localIp : IpAddr
  final : Except Error IncomingResponse
  acked : Request → Except Error Unit
  setup : Media.SessionDescription → Except Error Unit

/-- The response to the `INVITE` is waited for.  One that accepts is answered by an `ACK`, with the
    answer if the offer came with the response; another one is an error. -/
def receiveAnswer (w : AnswerWorld) (offer : Option Media.SdpOfferParams) (ids : OfferIds)
    (s : Session Calling) : Except SessionAbort (Session Established) := do
  let response ← core w.final
  let code := response.code.asU16
  if 200 ≤ code ∧ code ≤ 299 then
    let (body, negotiator) ← ackBody w.localIp offer ids s.negotiator response.response.body
    let (ack, dialog) := s.state.dialog.createRequest .ack 0
    core (w.acked { ack with body := body })
    match negotiator.answer with
    | none => .error (.panicked .answerUnwrap)
    | some sdp =>
      core (w.setup sdp)
      return { state := { dialog := dialog, sdp := sdp }, negotiator := negotiator }
  else if 300 ≤ code ∧ code ≤ 699 then .error (.panicked .notSuccessful)
  else .error (.panicked .notFinal)

/-! ### The side that is called -/

/-- The offer in the body of an `INVITE`, if there is one. -/
def remoteOffer (localIp : IpAddr) : Option Bytes → Except SessionAbort Media.Negotiator
  | none => .ok .new
  | some body => do
    let offer ← parseSdp localIp body
    let (_, n) ← update (Media.Negotiator.new.setRemoteOffer offer)
    return n

/-- The dialog that has been created goes again if the session does not come about. -/
def fromInvite (request : IncomingRequest) (contact : Contact) (endpoint : Endpoint)
    (plugin : DialogPlugin) (tag : String) (channel : ChannelId) (localIp : IpAddr) (now : Nat) :
    Except SessionAbort (Session Incoming) × DialogPlugin :=
  if request.method ≠ .invite then
    (.error (.error (.core (.custom ("unexpected method '" ++ request.method.asStr ++
      "' expected INVITE")))), plugin)
  else
    match Dialog.createUas request contact endpoint tag channel plugin with
    | .error e => (.error (.error (.core e)), plugin)
    | .ok (dialog, plugin) =>
      match remoteOffer localIp request.request.body with
      | .error abort => (.error abort, dialog.drop plugin)
      | .ok negotiator =>
        match ServerTransaction.fromRequest request now with
        | none => (.error (.panicked .transactionKey), dialog.drop plugin)
        | some serverTsx =>
          (.ok { state := { dialog := dialog, serverTsx := serverTsx }
                 negotiator := negotiator }, plugin)

/-- The body of the response: an answer to the offer of the `INVITE`, or else an offer. -/
def acceptBody (offer : Media.SessionDescription) (n : Media.Negotiator) :
    Except SessionAbort (Bytes × Media.Negotiator) :=
  if n.state = .remoteOffer then do
    let (_, n) ← update (n.setLocalOffer offer)
    let (answer, n) ← update n.createAnswer
    return (answer.encode, n)
  else do
    let (_, n) ← update (n.setLocalOffer offer)
    return (offer.encode, n)

/-- The negotiator after the `ACK`, which has to bring the answer if there is none yet. -/
def ackedAnswer (localIp : IpAddr) (ack : IncomingRequest) (n : Media.Negotiator) :
    Except SessionAbort Media.Negotiator :=
  if n.state = .localOffer then
    match ack.request.body with
    | none => .error (.error (.core (.custom "missing answer on ack")))
    | some body => do
      let answer ← parseSdp localIp body
      let (_, n) ← update (n.processAnswer answer)
      return n
  else .ok n

/-- What a call of `accept` meets with: what comes of sending the response and of setting up the
    media, and the reads of the dialog's channel. -/
structure AcceptWorld where
  localIp : IpAddr
  sent : Response → Except Error Unit
  acks : List (Option Reception)
  setup : Media.SessionDescription → Except Error Unit

/-- A call is accepted: the response has the answer, or the offer if the `INVITE` had none, and its
    `ACK` is waited for. -/
def accept (w : AcceptWorld) (code : StatusCode) (reason : Option String)
    (params : Media.SdpOfferParams) (ids : OfferIds) (s : Session Incoming) :
    Except SessionAbort (Session Established) := do
  let response := s.state.dialog.createResponse s.state.serverTsx code reason
  let offer ← negotiate (s.negotiator.createOffer params ids.sessionId ids.sessionVersion)
  let (body, negotiator) ← acceptBody offer s.negotiator
  core (w.sent { response with body := some body })
  let waited := s.state.dialog.waitForAck w.acks
  match waited.result with
  | none => .error .waits
  | some result =>
    let ack ← core result
    let negotiator ← ackedAnswer w.localIp ack negotiator
    match negotiator.answer with
    | none => .error (.panicked .answerExpect)
    | some sdp =>
      core (w.setup sdp)
      return { state := { dialog := waited.dialog, sdp := sdp }, negotiator := negotiator }

/-! ### The answer is there -/

namespace Media.Negotiator

/-- The answer that was created is the one that the negotiator keeps. -/
theorem createAnswer_answer {n : Negotiator} {answer : SessionDescription}
    (h : n.createAnswer.1 = .ok answer) :
    n.createAnswer.2.answer = some answer ∧ n.createAnswer.2.state = .done := by
  unfold createAnswer at h ⊢
  -- each check that fails gives an error, and no answer
  by_cases hstate : n.state ≠ .ready
  · rw [if_pos hstate] at h
    cases h
  · rw [if_neg hstate] at h ⊢
    cases hremote : n.remoteOffer with
    | none =>
      rw [hremote] at h
      cases h
    | some r =>
      cases hlocal : n.localOffer with
      | none =>
        rw [hremote, hlocal] at h
        cases h
      | some l =>
        rw [hremote, hlocal] at h
        dsimp only at h ⊢
        cases hmedias : answerMedias (l.media.zip r.media) with
        | error abort =>
          rw [hmedias] at h
          cases h
        | ok media =>
          rw [hmedias] at h
          exact ⟨congrArg some (Except.ok.inj h), rfl⟩

/-- The answer that was taken is the one that the negotiator keeps. -/
theorem processAnswer_answer {n : Negotiator} {answer : SessionDescription}
    (h : (n.processAnswer answer).1 = .ok ()) :
    (n.processAnswer answer).2.answer = some answer := by
  unfold processAnswer at h ⊢
  by_cases hstate : n.state ≠ .localOffer
  · rw [if_pos hstate] at h
    cases h
  · rw [if_neg hstate] at h ⊢
    cases hlocal : n.localOffer with
    | none =>
      rw [hlocal] at h
      cases h
    | some l =>
      rw [hlocal] at h
      dsimp only at h ⊢
      cases hmedias : checkMedias (l.media.zip answer.media) with
      | error abort =>
        rw [hmedias] at h
        cases h
      | ok _ => rfl

/-- An offer leaves the answer alone, and in the place of the first offer it waits for one. -/
theorem setLocalOffer_ok {n : Negotiator} {l : SessionDescription}
    (h : (n.setLocalOffer l).1 = .ok ()) :
    (n.setLocalOffer l).2.answer = n.answer ∧
      (n.state = .remoteOffer ∨ (n.setLocalOffer l).2.state = .localOffer) := by
  unfold setLocalOffer at h ⊢
  cases hstate : n.state with
  | initial => exact ⟨rfl, .inr rfl⟩
  | remoteOffer => exact ⟨rfl, .inl rfl⟩
  | localOffer | ready | done =>
    rw [hstate] at h
    cases h

end Media.Negotiator

/-- The failure is not for want of an answer. -/
def SessionAbort.Other (abort : SessionAbort) : Prop :=
  abort ≠ .panicked .answerUnwrap ∧ abort ≠ .panicked .answerExpect

/-- The media are set up from the answer that the negotiator holds, or the call fails before. -/
def AnswerRead (outcome : Except SessionAbort (Session Established)) : Prop :=
  Ends SessionAbort.Other (fun s => s.negotiator.answer = some s.state.sdp) outcome

/-- A call of the core gives its value, and its errors are none of the session's own. -/
theorem ends_core {α : Type} (x : Except Error α) :
    Ends SessionAbort.Other (fun a => x = .ok a) (core x) := by
  cases x with
  | ok a => exact rfl
  | error e => exact ⟨nofun, nofun⟩

/-- A call of the negotiator gives its value, and its errors are none of the session's own. -/
theorem ends_negotiate {α : Type} (x : Except Media.Abort α) :
    Ends SessionAbort.Other (fun a => x = .ok a) (negotiate x) := by
  cases x with
  | ok a => exact rfl
  | error abort =>
    cases abort with
    | error e => exact ⟨nofun, nofun⟩
    | panicked p => exact ⟨nofun, nofun⟩

/-- The same for a call that changes the negotiator. -/
theorem ends_update {α : Type} (out : Except Media.Abort α × Media.Negotiator) :
    Ends SessionAbort.Other (fun p => out.1 = .ok p.1 ∧ out.2 = p.2) (update out) :=
  ends_map ((ends_negotiate out.1).mono fun _ h => ⟨h, rfl⟩)

/-- A body is parsed, or its error is none of the session's own. -/
theorem ends_parseSdp (localIp : IpAddr) (body : Bytes) :
    Ends SessionAbort.Other (fun _ => True) (parseSdp localIp body) := by
  unfold parseSdp
  split
  · trivial
  · exact ⟨nofun, nofun⟩

/-- A new offer does not change the answer that is there. -/
theorem ends_newOffer (params : Media.SdpOfferParams) (ids : OfferIds) (n : Media.Negotiator) :
    Ends SessionAbort.Other (fun p => p.2.answer = n.answer) (newOffer params ids n) := by
  refine ends_bind (ends_negotiate _) fun offer _ => ends_bind (ends_update _) ?_
  rintro ⟨⟨⟩, n'⟩ ⟨hok, rfl⟩
  exact (Media.Negotiator.setLocalOffer_ok hok).1

/-- When an answer was created the negotiation is done. -/
theorem ends_createAnswer (n : Media.Negotiator) :
    Ends SessionAbort.Other (fun p => p.2.answer = some p.1 ∧ p.2.state = .done)
      (update n.createAnswer) := by
  refine (ends_update _).mono ?_
  rintro ⟨answer, n'⟩ ⟨hok, rfl⟩
  exact Media.Negotiator.createAnswer_answer hok

/-- When an answer was taken it is kept. -/
theorem ends_processAnswer (answer : Media.SessionDescription) (n : Media.Negotiator) :
    Ends SessionAbort.Other (fun p => p.2.answer = some answer)
      (update (n.processAnswer answer)) := by
  refine (ends_update _).mono ?_
  rintro ⟨⟨⟩, n'⟩ ⟨hok, rfl⟩
  exact Media.Negotiator.processAnswer_answer hok

/-! ### The side that calls -/

/-- A call starts without an answer. -/
theorem ends_sendInvite (params : InvitationParams) (endpoint : Endpoint) (plugin : DialogPlugin)
    (ids : CallIds) (offerIds : OfferIds) (sent : Request → Except Error Unit) :
    Ends SessionAbort.Other (fun s => s.negotiator.answer = none)
      (sendInvite params endpoint plugin ids offerIds sent) := by
  have hoffer : Ends SessionAbort.Other (fun p => p.2.answer = none)
      (invitationOffer params.sdp offerIds) := by
    unfold invitationOffer
    split
    · rfl
    · next offer _ => exact ends_map (ends_newOffer offer offerIds .new)
  exact ends_bind hoffer fun p hp => ends_bind (ends_core _) fun _ _ => hp

/-- **A body brings the answer**, or lets the call make one. -/
theorem ends_ackBody (localIp : IpAddr) (offer : Option Media.SdpOfferParams) (ids : OfferIds)
    (n : Media.Negotiator) (body : Bytes) :
    Ends SessionAbort.Other (fun p => p.2.answer.isSome)
      (ackBody localIp offer ids n (some body)) := by
  unfold ackBody
  refine ends_bind (ends_parseSdp localIp body) fun remote _ => ?_
  split
  · split
    · exact ⟨nofun, nofun⟩
    · refine ends_bind (ends_newOffer _ _ _) fun _ _ => ends_bind (ends_update _) fun _ _ => ?_
      refine ends_bind (ends_createAnswer _) fun p hp => ?_
      exact Option.isSome_of_eq_some hp.1
  · refine ends_bind (ends_processAnswer _ _) fun p hp => ?_
    exact Option.isSome_of_eq_some hp
  · exact ⟨nofun, nofun⟩
  · exact ⟨nofun, nofun⟩
  · exact ⟨nofun, nofun⟩

/-- The end of `receive_answer`, behind the `ACK`. -/
theorem answerRead_setup {localAnswer : Media.Negotiator} {dialog : Dialog} {panic : SessionPanic}
    (h : localAnswer.answer.isSome) (setup : Media.SessionDescription → Except Error Unit) :
    AnswerRead
      (match localAnswer.answer with
        | none => .error (.panicked panic)
        | some sdp => do
          core (setup sdp)
          return { state := { dialog := dialog, sdp := sdp }, negotiator := localAnswer }) := by
  obtain ⟨sdp, hsdp⟩ := Option.isSome_iff_exists.mp h
  rw [hsdp]
  exact ends_bind (ends_core _) fun _ _ => hsdp

/-- **When the side that calls has its answer.** -/
theorem receiveAnswer_answerRead_iff {s : Session Calling} (hnone : s.negotiator.answer = none)
    {w : AnswerWorld} {response : IncomingResponse} (hfinal : w.final = .ok response)
    (hcode : 200 ≤ response.code.asU16 ∧ response.code.asU16 ≤ 299)
    (offer : Option Media.SdpOfferParams) (ids : OfferIds) :
    AnswerRead (receiveAnswer w offer ids s) ↔
      response.response.body.isSome ∨
        w.acked (s.state.dialog.createRequest .ack 0).1 ≠ .ok () := by
  have hcall : receiveAnswer w offer ids s = (do
      let (body, negotiator) ← ackBody w.localIp offer ids s.negotiator response.response.body
      let (ack, dialog) := s.state.dialog.createRequest .ack 0
      core (w.acked { ack with body := body })
      match negotiator.answer with
      | none => .error (.panicked .answerUnwrap)
      | some sdp =>
        core (w.setup sdp)
        return { state := { dialog := dialog, sdp := sdp }, negotiator := negotiator }) := by
    rw [receiveAnswer, hfinal]
    exact if_pos hcode
  cases hbody : response.response.body with
  | some body =>
    rw [hcall, hbody]
    refine iff_of_true ?_ (.inl rfl)
    refine ends_bind (ends_ackBody _ _ _ _ body) fun p hp => ends_bind (ends_core _) fun _ _ => ?_
    exact answerRead_setup hp w.setup
  | none =>
    -- without a body the `ACK` is the request of the dialog
    have hcall : receiveAnswer w offer ids s =
        (core (w.acked (s.state.dialog.createRequest .ack 0).1) >>= fun _ =>
          match s.negotiator.answer with
          | none => .error (.panicked .answerUnwrap)
          | some sdp => do
            core (w.setup sdp)
            return { state := { dialog := (s.state.dialog.createRequest .ack 0).2, sdp := sdp }
                     negotiator := s.negotiator }) := by
      rw [hcall, hbody]
      rfl
    rw [hcall, or_iff_right (by decide), hnone]
    cases w.acked (s.state.dialog.createRequest .ack 0).1 with
    | ok u => exact iff_of_false (fun hread => hread.1 rfl) (not_not_intro rfl)
    | error e => exact iff_of_true ⟨nofun, nofun⟩ nofun

/-! ### The side that is called -/

/-- After the response there is an answer, or an offer that waits for one. -/
theorem ends_acceptBody (offer : Media.SessionDescription) (n : Media.Negotiator) :
    Ends SessionAbort.Other
      (fun p => p.2.state = .localOffer ∨ p.2.answer.isSome ∧ p.2.state = .done)
      (acceptBody offer n) := by
  unfold acceptBody
  by_cases hremote : n.state = .remoteOffer
  · rw [if_pos hremote]
    refine ends_bind (ends_update _) fun _ _ => ends_bind (ends_createAnswer _) fun p hp => ?_
    exact .inr ⟨Option.isSome_of_eq_some hp.1, hp.2⟩
  · rw [if_neg hremote]
    refine ends_bind (ends_update _) ?_
    rintro ⟨⟨⟩, n'⟩ ⟨hok, rfl⟩
    exact .inl ((Media.Negotiator.setLocalOffer_ok hok).2.resolve_left hremote)

/-- **The `ACK` brings the answer**, unless there is one. -/
theorem ends_ackedAnswer (localIp : IpAddr) (ack : IncomingRequest) {n : Media.Negotiator}
    (h : n.state = .localOffer ∨ n.answer.isSome ∧ n.state = .done) :
    Ends SessionAbort.Other (fun n' => n'.answer.isSome) (ackedAnswer localIp ack n) := by
  unfold ackedAnswer
  by_cases hlocal : n.state = .localOffer
  · rw [if_pos hlocal]
    split
    · exact ⟨nofun, nofun⟩
    · refine ends_bind (ends_parseSdp _ _) fun answer _ => ?_
      exact ends_bind (ends_processAnswer _ _) fun p hp => Option.isSome_of_eq_some hp
  · rw [if_neg hlocal]
    exact (h.resolve_left hlocal).1

/-- **The side that is called always has its answer.** -/
theorem accept_answerRead (w : AcceptWorld) (code : StatusCode) (reason : Option String)
    (params : Media.SdpOfferParams) (ids : OfferIds) (s : Session Incoming) :
    AnswerRead (accept w code reason params ids s) := by
  refine ends_bind (ends_negotiate _) fun offer _ => ?_
  refine ends_bind (ends_acceptBody offer s.negotiator) fun p hp => ?_
  refine ends_bind (ends_core _) fun _ _ => ?_
  dsimp only
  cases (s.state.dialog.waitForAck w.acks).result with
  | none => exact ⟨nofun, nofun⟩
  | some result =>
    refine ends_bind (ends_core _) fun ack _ => ?_
    refine ends_bind (ends_ackedAnswer w.localIp ack hp) fun n hn => ?_
    exact answerRead_setup hn w.setup

/-- **When the media are set up from an answer.** On the side that is called always; on the side
    that calls, after a successful response, exactly when it has a body, or the `ACK` does not
    go out. -/
theorem answer_read_iff {params : InvitationParams} {endpoint : Endpoint} {plugin : DialogPlugin}
    {ids : CallIds} {offerIds : OfferIds} {sent : Request → Except Error Unit} {s : Session Calling}
    (hs : sendInvite params endpoint plugin ids offerIds sent = .ok s) {w : AnswerWorld}
    {response : IncomingResponse} (hfinal : w.final = .ok response)
    (hcode : 200 ≤ response.code.asU16 ∧ response.code.asU16 ≤ 299)
    (offer : Option Media.SdpOfferParams) (answerIds : OfferIds) :
    (AnswerRead (receiveAnswer w offer answerIds s) ↔
      response.response.body.isSome ∨
        w.acked (s.state.dialog.createRequest .ack 0).1 ≠ .ok ()) ∧
      ∀ request contact endpoint plugin tag channel localIp now s,
        (fromInvite request contact endpoint plugin tag channel localIp now).1 = .ok s →
          ∀ w code reason params ids, AnswerRead (accept w code reason params ids s) := by
  constructor
  · have hnone := (ends_sendInvite params endpoint plugin ids offerIds sent).of_eq_ok hs
    exact receiveAnswer_answerRead_iff hnone hfinal hcode offer answerIds
  · intro request contact endpoint plugin tag channel localIp now s _ w code reason params ids
    exact accept_answerRead w code reason params ids s

/-- A call from `localhost` to `localhost`, without an offer. -/
def Session.calling : Session Calling where
  state :=
    { dialog := Dialog.calling
      request := (Dialog.calling.createRequest .invite 0).1 }
  negotiator := .new

/-- A successful response with the given body, and an `ACK` that goes out. -/
def AnswerWorld.ofBody (body : Option Bytes) : AnswerWorld where
  localIp := SocketAddr.localhost.ip
  final :=
    .ok { response := { statusLine := ⟨.ok, ""⟩, body := body }
          incomingInfo := .localhost .invite (some "to") false }
  acked _ := .ok ()
  setup _ := .ok ()

/-- The example: a call that is sent. -/
theorem sendInvite_calling :
    sendInvite ⟨.uri Uri.localhost, .uri Uri.localhost, none, none⟩ {} {} ⟨"from", "1", 1, 0⟩
      ⟨0, 0⟩ (fun _ => .ok ()) = .ok Session.calling := rfl

/-- With a body the call ends before the answer is read, or with an answer. -/
theorem answer_read_body :
    AnswerRead (receiveAnswer (.ofBody (some [])) none ⟨0, 0⟩ Session.calling) :=
  (answer_read_iff sendInvite_calling rfl (by decide) none ⟨0, 0⟩).1.mpr (.inl rfl)

/-- Without a body the side that calls unwraps the answer it does not have. -/
theorem not_answer_read :
    ¬ AnswerRead (receiveAnswer (.ofBody none) none ⟨0, 0⟩ Session.calling) :=
  fun h => h.1 rfl

end Rssip
