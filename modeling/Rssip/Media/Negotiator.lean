import Rssip.Lib.Machine
import Rssip.Media.Sdp

namespace Rssip.Media

open Lib

/-!
# Offer and answer

The negotiator keeps two offers and an answer, and a state that says which of them there are.

* `createOffer`, `createAnswer`, `processAnswer` — the calls that look at descriptions;
* `Negotiator.call` — any call, with its outcome;
* `Negotiator.Ok` — what each state holds;
* `run_ok` — it is so after every sequence of calls, and a call that fails changes nothing.
-/

/-- Which of the two offers the negotiator has, and whether it is done. -/
inductive NegotiatorState where
  | initial
  | localOffer
  | remoteOffer
  | ready
  | done
deriving DecidableEq

/-- The offers of both sides, the answer, and how far the negotiation is. -/
structure Negotiator where
  remoteOffer : Option SessionDescription := none
  localOffer : Option SessionDescription := none
  answer : Option SessionDescription := none
  state : NegotiatorState := .initial
deriving DecidableEq

/-- Where a call panics: at an `expect` of an offer, at a `todo!`, or at an `unimplemented!`. -/
inductive Panic where
  | aRemoteOffer
  | aLocalOffer
  | returnErr
  | dynamicPayloadType
deriving DecidableEq

/-- How a call ends when it returns no value. -/
inductive Abort where
  | error (e : Error)
  | panicked (p : Panic)
deriving DecidableEq

/-! ### Offers -/

/-- Who sends media in a session.  `unspecified` is for a stream without a direction. -/
inductive Direction where
  | unspecified
  | sendRecv
  | recvOnly
  | sendOnly
  | inactive
deriving DecidableEq

/-- The name of the attribute; that of `unspecified` stands for no direction. -/
def Direction.toText : Direction → String
  | sendRecv => "sendrecv"
  | sendOnly => "sendonly"
  | recvOnly => "recvonly"
  | inactive => "inactive"
  | unspecified => "Unspecified"

/-- A codec: its name, clock rate and channels, and the payload type that stands for it. -/
structure Codec where
  name : String
  clockRate : UInt32
  payloadType : UInt8
  channels : UInt16
deriving DecidableEq

namespace Codec

/-- G.711 with the one law, under its static payload type. -/
def ulaw : Codec := ⟨"PCMU", 8000, 0, 1⟩

/-- G.711 with the other law, under its static payload type. -/
def alaw : Codec := ⟨"PCMA", 8000, 8, 1⟩

/-- Opus, under a dynamic payload type. -/
def opus : Codec := ⟨"opus", 48000, 96, 2⟩

/-- Key presses, under a dynamic payload type. -/
def telephoneEvent : Codec := ⟨"telephone-event", 8000, 101, 1⟩

/-- The codecs of the crate. -/
def builtin : List Codec := [ulaw, alaw, opus, telephoneEvent]

end Codec

/-- A stream that is to be offered, with its codecs. -/
structure SdpMediaStream where
  transport : SdpTransport
  mediaType : MediaType
  codecs : List Codec := []
  port : UInt16
deriving DecidableEq

/-- What an offer is made of: the address of this side, a direction and the streams. -/
structure SdpOfferParams where
  originIp : IpAddr
  direction : Direction
  mediaStreams : List SdpMediaStream := []
deriving DecidableEq

/-- The attributes of a codec in an offer. -/
def Codec.attributes (c : Codec) : List Attribute :=
  match c.name with
  | "PCMU" => [⟨"rtpmap", some "0 PCMU/8000"⟩]
  | "PCMA" => [⟨"rtpmap", some "8 PCMA/8000"⟩]
  | "opus" => [⟨"rtpmap", some "96 opus/48000/2"⟩]
  | "telephone-event" =>
    [⟨"rtpmap", some "101 telephone-event/8000"⟩, ⟨"fmtp", some "101 0-16"⟩]
  | name =>
    [⟨"rtpmap", some (decimal c.payloadType.toNat ++ "/" ++ name ++ "/" ++
      decimal c.clockRate.toNat ++ "/" ++ decimal c.channels.toNat ++ "/")⟩]

/-- The media section of a stream. -/
def SdpMediaStream.description (stream : SdpMediaStream) : MediaDescription where
  mediaType := stream.mediaType
  proto := stream.transport
  port := stream.port
  mediaFormats := stream.codecs.map fun c => decimal c.payloadType.toNat
  attributes := stream.codecs.flatMap Codec.attributes

/-- What the last media description of an offer gets in addition. -/
def lastAttributes (direction : Direction) : List Attribute :=
  [⟨"ptime", some "20"⟩, ⟨"maxptime", some "150"⟩, ⟨direction.toText, none⟩]

/-- The type of an address, as it stands in front of it. -/
def addrTypeOf : IpAddr → AddrType
  | .v4 _ => .ip4
  | .v6 _ => .ip6

namespace Negotiator

/-- A negotiator without an offer. -/
def new : Negotiator := {}

/-- A negotiator with the offer of this side. -/
def withLocal (l : SessionDescription) : Negotiator :=
  { localOffer := some l, state := .localOffer }

/-- A negotiator with the offer of the other side. -/
def withRemote (r : SessionDescription) : Negotiator :=
  { remoteOffer := some r, state := .remoteOffer }

/-- The offer of the other side is taken if it is the first of its kind. -/
def setRemoteOffer (r : SessionDescription) (n : Negotiator) : Except Abort Unit × Negotiator :=
  match n.state with
  | .initial => (.ok (), { n with state := .remoteOffer, remoteOffer := some r })
  | .localOffer => (.ok (), { n with state := .ready, remoteOffer := some r })
  | .remoteOffer | .ready | .done => (.error (.error .errInvalidNegoState), n)

/-- The offer of this side is taken if it is the first of its kind. -/
def setLocalOffer (l : SessionDescription) (n : Negotiator) : Except Abort Unit × Negotiator :=
  match n.state with
  | .initial => (.ok (), { n with state := .localOffer, localOffer := some l })
  | .remoteOffer => (.ok (), { n with state := .ready, localOffer := some l })
  | .localOffer | .ready | .done => (.error (.error .errInvalidNegoState), n)

/-- The random numbers of the origin are arguments. -/
def createOffer (params : SdpOfferParams) (sessionId sessionVersion : UInt64) (n : Negotiator) :
    Except Abort SessionDescription :=
  if n.state = .initial ∨ n.state = .remoteOffer then
    let media := params.mediaStreams.map SdpMediaStream.description
    let media := modifyLast
      (fun m => { m with attributes := m.attributes ++ lastAttributes params.direction }) media
    .ok {
      origin :=
        { user := "-"
          sessionId := sessionId
          sessionVersion := sessionVersion
          nettype := .internet
          addrtype := addrTypeOf params.originIp
          unicastAddress := params.originIp }
      sessionName := "-"
      connectionInformation := some ⟨.internet, addrTypeOf params.originIp, params.originIp⟩
      time := [{ timeActive := ⟨0, 0⟩ }]
      media := media }
  else .error (.error .errInvalidNegoState)

/-! ### Answers -/

/-- `parse::<u8>`, from the value `acc` of the digits before. -/
def readU8 : Nat → Bytes → Except IntErrorKind Nat
  | acc, [] => .ok acc
  | acc, b :: bs =>
    if isAsciiDigit b then
      let acc := acc * 10 + (b.toNat - 48)
      if acc < 256 then readU8 acc bs else .error .posOverflow
    else .error .invalidDigit

/-- `parse::<u8>`.  A plus sign may stand in front of the digits. -/
def parseU8 (text : String) : Except IntErrorKind Nat :=
  match asBytes text with
  | [] => .error .empty
  | [43] => .error .invalidDigit
  | 43 :: digits => readU8 0 digits
  | digits => readU8 0 digits

/-- The attributes that say who sends. -/
def isDirection (attr : Attribute) : Bool :=
  attr.name ∈ ["recvonly", "sendrecv", "sendonly", "inactive"]

/-- The first direction among the attributes. -/
def directionOf (attributes : List Attribute) : Option String :=
  (attributes.find? isDirection).map Attribute.name

/-- The direction of an answer, by the remote and the local one. -/
def answerDir (remoteDir localDir : Option String) : Except Abort (Option String) :=
  match remoteDir with
  | some "sendonly" =>
    if localDir = some "sendrecv" ∨ localDir = some "recvonly" then .ok (some "recvonly")
    else .ok (some "inactive")
  | some "inactive" => .ok (some "inactive")
  | some "recvonly" =>
    if localDir = some "sendrecv" ∨ localDir = some "sendonly" then .ok (some "sendonly")
    else .ok (some "inactive")
  | some "sendrecv" => .ok (some "sendrecv")
  | some _ => .error (.panicked .returnErr)
  | none => .ok none

/-- The local attributes, with the direction of the answer in place of the local one. -/
def answerAttributes (attributes : List Attribute) : Option String → List Attribute
  | some direction => (attributes.filter fun attr => !isDirection attr) ++ [⟨direction, none⟩]
  | none => attributes

/-- The loop over the local formats, which keeps those that are remote ones too. -/
def answerFormats (remoteFormats : List String) : List String → Except Abort (List String)
  | [] => .ok []
  | format :: formats =>
    match parseU8 format with
    | .error e => .error (.error (.parseInt e))
    | .ok payloadType =>
      if payloadType < 96 then do
        let rest ← answerFormats remoteFormats formats
        return if format ∈ remoteFormats then format :: rest else rest
      else .error (.panicked .dynamicPayloadType)

/-- One pass of the loop over the pairs of media descriptions. -/
def answerMedia (l r : MediaDescription) : Except Abort (Option MediaDescription) :=
  if l.mediaType ≠ r.mediaType then .error (.panicked .returnErr)
  else if l.proto ≠ r.proto then .error (.panicked .returnErr)
  else if r.port = 0 ∨ l.port = 0 then .ok none
  else do
    let direction ← answerDir (directionOf r.attributes) (directionOf l.attributes)
    let formats ← answerFormats r.mediaFormats l.mediaFormats
    return some { l with
      mediaFormats := formats
      attributes := answerAttributes l.attributes direction }

/-- The sections of an answer, one for each pair of sections that have a codec in common. -/
def answerMedias : List (MediaDescription × MediaDescription) → Except Abort (List MediaDescription)
  | [] => .ok []
  | (l, r) :: pairs => do
    let media ← answerMedia l r
    let rest ← answerMedias pairs
    return media.toList ++ rest

/-- `create_answer`.  The negotiator is changed when the answer is there. -/
def createAnswer (n : Negotiator) : Except Abort SessionDescription × Negotiator :=
  if n.state ≠ .ready then (.error (.error .errInvalidNegoState), n)
  else
    match n.remoteOffer, n.localOffer with
    | none, _ => (.error (.panicked .aRemoteOffer), n)
    | some _, none => (.error (.panicked .aLocalOffer), n)
    | some r, some l =>
      match answerMedias (l.media.zip r.media) with
      | .error abort => (.error abort, n)
      | .ok media =>
        let answer := { l with media := media, time := r.time }
        (.ok answer, { n with answer := some answer, state := .done })

/-- The loop of `process_answer` compares the kinds of the media descriptions. -/
def checkMedias : List (MediaDescription × MediaDescription) → Except Abort Unit
  | [] => .ok ()
  | (l, r) :: pairs =>
    if l.mediaType ≠ r.mediaType then .error (.panicked .returnErr)
    else if l.proto ≠ r.proto then .error (.panicked .returnErr)
    else checkMedias pairs

/-- The answer of the other side: its sections are compared with those of the offer of this side. -/
def processAnswer (answer : SessionDescription) (n : Negotiator) :
    Except Abort Unit × Negotiator :=
  if n.state ≠ .localOffer then (.error (.error .errInvalidNegoState), n)
  else
    match n.localOffer with
    | none => (.error (.panicked .aLocalOffer), n)
    | some l =>
      match checkMedias (l.media.zip answer.media) with
      | .error abort => (.error abort, n)
      | .ok () => (.ok (), { n with answer := some answer, state := .done })

/-! ### Calls -/

end Negotiator

/-- A call with its arguments. -/
inductive NegotiatorCall where
  | setRemoteOffer (r : SessionDescription)
  | setLocalOffer (l : SessionDescription)
  | createOffer (params : SdpOfferParams) (sessionId sessionVersion : UInt64)
  | createAnswer
  | processAnswer (answer : SessionDescription)

/-- An `expect` fails only without its offer. -/
def Abort.Missing (n : Negotiator) : Abort → Prop
  | .panicked .aRemoteOffer => n.state = .ready ∧ n.remoteOffer = none
  | .panicked .aLocalOffer => (n.state = .ready ∨ n.state = .localOffer) ∧ n.localOffer = none
  | _ => True

/-- No `expect` fails in a loop. -/
def Abort.InLoop : Abort → Prop
  | .panicked .aRemoteOffer | .panicked .aLocalOffer => False
  | _ => True

/-- What can go wrong in a loop over the streams is no matter of the state. -/
theorem Abort.InLoop.missing {abort : Abort} (h : abort.InLoop) (n : Negotiator) :
    Abort.Missing n abort := by
  unfold Abort.Missing
  split
  · exact absurd h id
  · exact absurd h id
  · trivial

namespace Negotiator

/-- A call: how it ends, and the negotiator after it. -/
def call (n : Negotiator) : NegotiatorCall → Except Abort (Option SessionDescription) × Negotiator
  | .setRemoteOffer r => ((n.setRemoteOffer r).1.map fun _ => none, (n.setRemoteOffer r).2)
  | .setLocalOffer l => ((n.setLocalOffer l).1.map fun _ => none, (n.setLocalOffer l).2)
  | .createOffer params sessionId sessionVersion =>
    ((n.createOffer params sessionId sessionVersion).map some, n)
  | .createAnswer => (n.createAnswer.1.map some, n.createAnswer.2)
  | .processAnswer answer =>
    ((n.processAnswer answer).1.map fun _ => none, (n.processAnswer answer).2)

/-- The negotiator after some calls. -/
def run (n : Negotiator) (calls : List NegotiatorCall) : Negotiator :=
  exec (fun n c => (n.call c).2) n calls

/-- A negotiator as it is made. -/
inductive Start : Negotiator → Prop where
  | new : Start new
  | withLocal (l : SessionDescription) : Start (withLocal l)
  | withRemote (r : SessionDescription) : Start (withRemote r)

/-- What each state holds. -/
def Ok (n : Negotiator) : Prop :=
  match n.state with
  | .initial => n.localOffer = none ∧ n.remoteOffer = none ∧ n.answer = none
  | .localOffer => n.localOffer.isSome ∧ n.remoteOffer = none ∧ n.answer = none
  | .remoteOffer => n.localOffer = none ∧ n.remoteOffer.isSome ∧ n.answer = none
  | .ready => n.localOffer.isSome ∧ n.remoteOffer.isSome ∧ n.answer = none
  | .done => n.answer.isSome

/-! ### What a call does -/

/-- What a call that succeeds makes of the negotiator. -/
inductive Advances (n : Negotiator) : Negotiator → Prop where
  | stays : Advances n n
  | remoteFirst (r : SessionDescription) (h : n.state = .initial) :
    Advances n { n with state := .remoteOffer, remoteOffer := some r }
  | remoteSecond (r : SessionDescription) (h : n.state = .localOffer) :
    Advances n { n with state := .ready, remoteOffer := some r }
  | localFirst (l : SessionDescription) (h : n.state = .initial) :
    Advances n { n with state := .localOffer, localOffer := some l }
  | localSecond (l : SessionDescription) (h : n.state = .remoteOffer) :
    Advances n { n with state := .ready, localOffer := some l }
  | answered (answer : SessionDescription) (h : n.state = .ready ∨ n.state = .localOffer) :
    Advances n { n with answer := some answer, state := .done }

/-- A call that gives no value leaves the negotiator as it was. -/
structure Fails (n : Negotiator) {α : Type} (out : Except Abort α × Negotiator) (abort : Abort) :
    Prop where
  outcome : out.1 = .error abort
  unchanged : out.2 = n
  missing : Abort.Missing n abort

/-- A remote offer is refused and nothing changes, or it is stored and the state goes on. -/
theorem setRemoteOffer_cases (r : SessionDescription) (n : Negotiator) :
    (∃ abort, Fails n (n.setRemoteOffer r) abort) ∨
      (n.setRemoteOffer r).1 = .ok () ∧ Advances n (n.setRemoteOffer r).2 := by
  unfold setRemoteOffer
  split
  · next h => exact .inr ⟨rfl, .remoteFirst r h⟩
  · next h => exact .inr ⟨rfl, .remoteSecond r h⟩
  all_goals exact .inl ⟨_, rfl, rfl, trivial⟩

/-- A local offer is refused and nothing changes, or it is stored and the state goes on. -/
theorem setLocalOffer_cases (l : SessionDescription) (n : Negotiator) :
    (∃ abort, Fails n (n.setLocalOffer l) abort) ∨
      (n.setLocalOffer l).1 = .ok () ∧ Advances n (n.setLocalOffer l).2 := by
  unfold setLocalOffer
  split
  · next h => exact .inr ⟨rfl, .localFirst l h⟩
  · next h => exact .inr ⟨rfl, .localSecond l h⟩
  all_goals exact .inl ⟨_, rfl, rfl, trivial⟩

/-- The directions of two streams can only make a loop fail. -/
theorem inLoop_answerDir {remoteDir localDir : Option String} {abort : Abort}
    (h : answerDir remoteDir localDir = .error abort) : abort.InLoop := by
  unfold answerDir at h
  split at h
  · split at h <;> cases h
  · cases h
  · split at h <;> cases h
  · cases h
  · obtain rfl := Except.error.inj h
    trivial
  · cases h

/-- The formats of two streams can only make a loop fail. -/
theorem inLoop_answerFormats {remoteFormats formats : List String} {abort : Abort}
    (h : answerFormats remoteFormats formats = .error abort) : abort.InLoop := by
  induction formats with
  | nil => cases h
  | cons format formats ih =>
    rw [answerFormats] at h
    split at h
    · obtain rfl := Except.error.inj h
      trivial
    · split at h
      · cases hrest : answerFormats remoteFormats formats with
        | error e =>
          rw [hrest] at h
          obtain rfl := Except.error.inj h
          exact ih hrest
        | ok rest =>
          rw [hrest] at h
          cases h
      · obtain rfl := Except.error.inj h
        trivial

/-- A pair of streams can only make a loop fail. -/
theorem inLoop_answerMedia {l r : MediaDescription} {abort : Abort}
    (h : answerMedia l r = .error abort) : abort.InLoop := by
  unfold answerMedia at h
  split at h
  · obtain rfl := Except.error.inj h
    trivial
  · split at h
    · obtain rfl := Except.error.inj h
      trivial
    · split at h
      · cases h
      · cases hdir : answerDir (directionOf r.attributes) (directionOf l.attributes) with
        | error e =>
          rw [hdir] at h
          obtain rfl := Except.error.inj h
          exact inLoop_answerDir hdir
        | ok direction =>
          rw [hdir] at h
          cases hformats : answerFormats r.mediaFormats l.mediaFormats with
          | error e =>
            simp only [hformats] at h
            obtain rfl := Except.error.inj h
            exact inLoop_answerFormats hformats
          | ok formats =>
            simp only [hformats] at h
            cases h

/-- All pairs of streams can only make a loop fail. The induction is on the pairs. -/
theorem inLoop_answerMedias {pairs : List (MediaDescription × MediaDescription)} {abort : Abort}
    (h : answerMedias pairs = .error abort) : abort.InLoop := by
  induction pairs with
  | nil => cases h
  | cons pair pairs ih =>
    obtain ⟨l, r⟩ := pair
    rw [answerMedias] at h
    cases hmedia : answerMedia l r with
    | error e =>
      rw [hmedia] at h
      obtain rfl := Except.error.inj h
      exact inLoop_answerMedia hmedia
    | ok media =>
      rw [hmedia] at h
      cases hrest : answerMedias pairs with
      | error e =>
        simp only [hrest] at h
        obtain rfl := Except.error.inj h
        exact ih hrest
      | ok rest =>
        simp only [hrest] at h
        cases h

/-- The check of an answer's streams can only make a loop fail. The induction is on the pairs. -/
theorem inLoop_checkMedias {pairs : List (MediaDescription × MediaDescription)} {abort : Abort}
    (h : checkMedias pairs = .error abort) : abort.InLoop := by
  induction pairs with
  | nil => cases h
  | cons pair pairs ih =>
    obtain ⟨l, r⟩ := pair
    rw [checkMedias] at h
    split at h
    · obtain rfl := Except.error.inj h
      trivial
    · split at h
      · obtain rfl := Except.error.inj h
        trivial
      · exact ih h

/-- An answer cannot be created and nothing changes, or there is one and the state goes on. -/
theorem createAnswer_cases (n : Negotiator) :
    (∃ abort, Fails n n.createAnswer abort) ∨
      ∃ answer, n.createAnswer.1 = .ok answer ∧ Advances n n.createAnswer.2 := by
  unfold createAnswer
  by_cases hstate : n.state = .ready
  · rw [if_neg (not_not_intro hstate)]
    cases hremote : n.remoteOffer with
    | none => exact .inl ⟨_, rfl, rfl, hstate, hremote⟩
    | some r =>
      cases hlocal : n.localOffer with
      | none => exact .inl ⟨_, rfl, rfl, .inl hstate, hlocal⟩
      | some l =>
        dsimp only
        cases hmedias : answerMedias (l.media.zip r.media) with
        | error abort => exact .inl ⟨abort, rfl, rfl, (inLoop_answerMedias hmedias).missing n⟩
        | ok media =>
          refine .inr ⟨_, rfl, ?_⟩
          have hanswered := Advances.answered { l with media := media, time := r.time } (.inl hstate)
          rw [hremote, hlocal] at hanswered
          exact hanswered
  · rw [if_pos hstate]
    exact .inl ⟨_, rfl, rfl, trivial⟩

/-- An answer is refused and nothing changes, or it is taken and the state goes on. -/
theorem processAnswer_cases (answer : SessionDescription) (n : Negotiator) :
    (∃ abort, Fails n (n.processAnswer answer) abort) ∨
      (n.processAnswer answer).1 = .ok () ∧ Advances n (n.processAnswer answer).2 := by
  unfold processAnswer
  by_cases hstate : n.state = .localOffer
  · rw [if_neg (not_not_intro hstate)]
    cases hlocal : n.localOffer with
    | none => exact .inl ⟨_, rfl, rfl, .inr hstate, hlocal⟩
    | some l =>
      dsimp only
      cases hmedias : checkMedias (l.media.zip answer.media) with
      | error abort => exact .inl ⟨abort, rfl, rfl, (inLoop_checkMedias hmedias).missing n⟩
      | ok _ =>
        have hanswered := Advances.answered answer (.inr hstate)
        rw [hlocal] at hanswered
        exact .inr ⟨rfl, hanswered⟩
  · rw [if_pos hstate]
    exact .inl ⟨_, rfl, rfl, trivial⟩

/-- To map the value of a call does not change how it fails. -/
theorem Fails.map {n : Negotiator} {α β : Type} {out : Except Abort α × Negotiator}
    {abort : Abort} (h : Fails n out abort) (f : α → β) : Fails n (out.1.map f, out.2) abort := by
  obtain ⟨houtcome, hunchanged, hmissing⟩ := h
  refine ⟨?_, hunchanged, hmissing⟩
  show out.1.map f = _
  rw [houtcome]
  rfl

/-- **What a call does**: it fails and changes nothing, or succeeds and goes on. -/
theorem call_cases (n : Negotiator) (c : NegotiatorCall) :
    (∃ abort, Fails n (n.call c) abort) ∨
      ∃ res, (n.call c).1 = .ok res ∧ Advances n (n.call c).2 := by
  cases c with
  | setRemoteOffer r =>
    refine (n.setRemoteOffer_cases r).imp (fun ⟨abort, h⟩ => ⟨abort, h.map _⟩) fun ⟨h, hnext⟩ => ?_
    exact ⟨none, by rw [call, h]; rfl, hnext⟩
  | setLocalOffer l =>
    refine (n.setLocalOffer_cases l).imp (fun ⟨abort, h⟩ => ⟨abort, h.map _⟩) fun ⟨h, hnext⟩ => ?_
    exact ⟨none, by rw [call, h]; rfl, hnext⟩
  | createAnswer =>
    refine n.createAnswer_cases.imp (fun ⟨abort, h⟩ => ⟨abort, h.map _⟩)
      fun ⟨answer, h, hnext⟩ => ?_
    exact ⟨some answer, by rw [call, h]; rfl, hnext⟩
  | processAnswer answer =>
    refine (n.processAnswer_cases answer).imp (fun ⟨abort, h⟩ => ⟨abort, h.map _⟩)
      fun ⟨h, hnext⟩ => ?_
    exact ⟨none, by rw [call, h]; rfl, hnext⟩
  | createOffer params sessionId sessionVersion =>
    -- an offer is created without a step of the negotiation
    by_cases hstate : n.state = .initial ∨ n.state = .remoteOffer
    · rw [call, createOffer, if_pos hstate]
      exact .inr ⟨_, rfl, .stays⟩
    · refine .inl ⟨.error .errInvalidNegoState, ?_, rfl, trivial⟩
      rw [call, createOffer, if_neg hstate]
      rfl

/-! ### What a negotiator holds -/

/-- A negotiator that was just made is in order. -/
theorem Start.ok {n : Negotiator} (h : Start n) : n.Ok := by
  cases h with
  | new => exact ⟨rfl, rfl, rfl⟩
  | withLocal l => exact ⟨rfl, rfl, rfl⟩
  | withRemote r => exact ⟨rfl, rfl, rfl⟩

/-- **A step of the negotiation.** -/
theorem Ok.advances {n n' : Negotiator} (h : n.Ok) (hnext : Advances n n') : n'.Ok := by
  unfold Ok at h
  cases hnext with
  | stays => exact h
  | remoteFirst r hstate =>
    rw [hstate] at h
    exact ⟨h.1, rfl, h.2.2⟩
  | remoteSecond r hstate =>
    rw [hstate] at h
    exact ⟨h.1, rfl, h.2.2⟩
  | localFirst l hstate =>
    rw [hstate] at h
    exact ⟨rfl, h.2.1, h.2.2⟩
  | localSecond l hstate =>
    rw [hstate] at h
    exact ⟨rfl, h.2.1, h.2.2⟩
  | answered answer hstate => exact rfl

/-- Every call keeps the negotiator in order. -/
theorem Ok.call {n : Negotiator} (h : n.Ok) (c : NegotiatorCall) : (n.call c).2.Ok := by
  rcases n.call_cases c with ⟨abort, hfails⟩ | ⟨res, -, hnext⟩
  · rw [hfails.unchanged]
    exact h
  · exact h.advances hnext

/-- The negotiator is in order after all calls. -/
theorem Ok.run {n : Negotiator} (h : n.Ok) (calls : List NegotiatorCall) : (n.run calls).Ok :=
  exec_invariant (fun _ c h => h.call c) h calls

/-- The offers that a state promises are there. -/
theorem Ok.not_missing {n : Negotiator} (h : n.Ok) {abort : Abort} (hmissing : Abort.Missing n abort) :
    abort ≠ .panicked .aRemoteOffer ∧ abort ≠ .panicked .aLocalOffer := by
  unfold Ok at h
  constructor
  · rintro rfl
    obtain ⟨hstate, hnone⟩ := hmissing
    rw [hstate, hnone] at h
    exact absurd h.2.1 (by decide)
  · rintro rfl
    obtain ⟨hstate | hstate, hnone⟩ := hmissing
    · rw [hstate, hnone] at h
      exact absurd h.1 (by decide)
    · rw [hstate, hnone] at h
      exact absurd h.1 (by decide)

/-- **What a negotiator holds.** After every sequence of calls, from each way to make one, it holds
    what its state says; no `expect` of an offer fails, and a call that fails, or panics, leaves
    everything as it was. -/
theorem run_ok {start : Negotiator} (hstart : Start start) (calls : List NegotiatorCall) :
    (start.run calls).Ok ∧
      ∀ c abort, ((start.run calls).call c).1 = .error abort →
        abort ≠ .panicked .aRemoteOffer ∧ abort ≠ .panicked .aLocalOffer ∧
          ((start.run calls).call c).2 = start.run calls := by
  have hok := hstart.ok.run calls
  refine ⟨hok, fun c abort houtcome => ?_⟩
  rcases (start.run calls).call_cases c with ⟨abort', hfails⟩ | ⟨res, hres, -⟩
  · obtain rfl : abort' = abort := by
      rw [hfails.outcome] at houtcome
      exact Except.error.inj houtcome
    obtain ⟨hremote, hlocal⟩ := hok.not_missing hfails.missing
    exact ⟨hremote, hlocal, hfails.unchanged⟩
  · rw [hres] at houtcome
    cases houtcome

/-- A session with one audio stream of the given format. -/
def offering (format : String) : SessionDescription :=
  { SessionDescription.default (.v4 ⟨127, 0, 0, 1⟩) with
    media := [
      { mediaType := .audio
        proto := .rtpAvp
        port := 4000
        mediaFormats := [format] }] }

/-- A format that is no number: the answer fails on the way, and the negotiator is ready still. -/
theorem run_ok_offering_x :
    let ready := (withRemote (offering "x")).run [.setLocalOffer (offering "x")]
    (ready.call .createAnswer).1 = .error (.error (.parseInt .invalidDigit)) ∧ ready.Ok ∧
      (ready.call .createAnswer).2 = ready := by
  intro ready
  have houtcome : (ready.call .createAnswer).1 = .error (.error (.parseInt .invalidDigit)) := by
    decide +kernel
  obtain ⟨hok, hfails⟩ :=
    run_ok (.withRemote (offering "x")) [.setLocalOffer (offering "x")]
  exact ⟨houtcome, hok, (hfails .createAnswer _ houtcome).2.2⟩

example : ((withLocal (offering "0")).run [.setRemoteOffer (offering "0"), .createAnswer]).state =
    .done := by
  decide +kernel

end Negotiator

end Rssip.Media
