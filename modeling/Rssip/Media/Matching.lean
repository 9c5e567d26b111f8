import Rssip.Media.Directions
import Rssip.Media.SdpParser

namespace Rssip.Media

open Lib

/-!
# Descriptions that do not match

Two descriptions are gone through stream by stream.  Where the streams differ the negotiator has
a `todo!`, and where the formats do it has nothing.

* `processAnswer_judges_iff` — an answer that does not match is never turned down with an error;
* `run_safe_iff` — when an answer can be made, or processed, without a panic.
-/

namespace Negotiator

/-- The streams of the pair have one type and one transport. -/
def SameKind (pair : MediaDescription × MediaDescription) : Prop :=
  pair.1.mediaType = pair.2.mediaType ∧ pair.1.proto = pair.2.proto

instance : DecidablePred SameKind := fun pair =>
  inferInstanceAs (Decidable (pair.1.mediaType = pair.2.mediaType ∧ pair.1.proto = pair.2.proto))

/-- The loop over the pairs goes through when all are of one kind. -/
theorem checkMedias_eq (pairs : List (MediaDescription × MediaDescription)) :
    checkMedias pairs =
      if ∀ pair ∈ pairs, SameKind pair then .ok () else .error (.panicked .returnErr) := by
  induction pairs with
  | nil => rfl
  | cons pair pairs ih =>
    obtain ⟨l, r⟩ := pair
    rw [checkMedias]
    by_cases htype : l.mediaType = r.mediaType
    · by_cases hproto : l.proto = r.proto
      · rw [if_neg (not_not_intro htype), if_neg (not_not_intro hproto), ih]
        refine if_congr ?_ rfl rfl
        rw [List.forall_mem_cons]
        exact (and_iff_right ⟨htype, hproto⟩).symm
      · rw [if_neg (not_not_intro htype), if_pos hproto, if_neg]
        exact fun h => hproto (h (l, r) List.mem_cons_self).2
    · rw [if_pos htype, if_neg]
      exact fun h => htype (h (l, r) List.mem_cons_self).1

/-- What processing an answer to the own offer `l` gives. -/
theorem processAnswer_eq {n : Negotiator} {l : SessionDescription} (hstate : n.state = .localOffer)
    (hlocal : n.localOffer = some l) (answer : SessionDescription) :
    n.processAnswer answer =
      if ∀ pair ∈ l.media.zip answer.media, SameKind pair then
        (.ok (), { n with answer := some answer, state := .done })
      else (.error (.panicked .returnErr), n) := by
  rw [processAnswer, if_neg (not_not_intro hstate), hlocal]
  dsimp only
  rw [checkMedias_eq]
  by_cases hkinds : ∀ pair ∈ l.media.zip answer.media, SameKind pair
  · rw [if_pos hkinds, if_pos hkinds]
  · rw [if_neg hkinds, if_neg hkinds]

/-! ### Answers that do not match -/

/-- The stream `m` answers the offered one: a stream that is not rejected has formats, and they
    are offered ones. -/
structure AnswersStream (offered m : MediaDescription) : Prop where
  kind : SameKind (offered, m)
  nonempty : m.port ≠ 0 → m.mediaFormats ≠ []
  offered : m.port ≠ 0 → ∀ format ∈ m.mediaFormats, format ∈ offered.mediaFormats

/-- The answer has a stream for each one of the offer `l`, in the same order. -/
def Matches (l answer : SessionDescription) : Prop :=
  List.Forall₂ AnswersStream l.media answer.media

/-- The streams of an answer that matches are of the kind of the offered ones. -/
theorem Matches.sameKind {l answer : SessionDescription} (h : Matches l answer) :
    ∀ pair ∈ l.media.zip answer.media, SameKind pair :=
  fun (_, _) hpair => ((List.forall₂_iff_zip.mp h).2 hpair).kind

/-- The answer is accepted only if it matches, and is turned down with an error otherwise. -/
def Judges (n : Negotiator) (l answer : SessionDescription) : Prop :=
  let (outcome, next) := n.processAnswer answer
  (outcome = .ok () ∧ next.state = .done ∧ Matches l answer) ∨
    (∃ e, outcome = .error (.error e)) ∧ next.state = .localOffer

/-- **Which answers are judged.** The negotiator turns no answer down: it accepts it or panics.
    That is right exactly for the answers that match. -/
theorem processAnswer_judges_iff {n : Negotiator} {l : SessionDescription}
    (hstate : n.state = .localOffer) (hlocal : n.localOffer = some l)
    (answer : SessionDescription) : Judges n l answer ↔ Matches l answer := by
  rw [Judges, processAnswer_eq hstate hlocal]
  by_cases hkinds : ∀ pair ∈ l.media.zip answer.media, SameKind pair
  · rw [if_pos hkinds]
    constructor
    · rintro (⟨-, -, hmatches⟩ | ⟨⟨e, he⟩, -⟩)
      · exact hmatches
      · cases he
    · exact fun hmatches => .inl ⟨rfl, rfl, hmatches⟩
  · rw [if_neg hkinds]
    constructor
    · rintro (⟨hok, -⟩ | ⟨⟨e, he⟩, -⟩)
      · cases hok
      · cases he
    · exact fun hmatches => absurd hmatches.sameKind hkinds

/-- The condition at a call with one stream. -/
theorem processAnswer_judges_iff_calling :
    Judges (withLocal (calling ["0", "8"] "sendrecv")) (calling ["0", "8"] "sendrecv")
      (calling ["8"] "recvonly") := by
  refine (processAnswer_judges_iff rfl rfl _).mpr (.cons ⟨by decide, ?_, ?_⟩ .nil)
  · exact fun _ => by decide
  · exact fun _ => by decide

/-- The answer lists a format that is not offered, and is accepted. -/
theorem not_judges_calling :
    ¬ Judges (withLocal (calling ["0", "8"] "sendrecv")) (calling ["0", "8"] "sendrecv")
      (calling ["9"] "recvonly") := by
  rintro (⟨-, -, hmatches⟩ | ⟨-, hstate⟩)
  · obtain ⟨hstream, -⟩ := List.forall₂_cons.mp hmatches
    exact absurd (hstream.offered (by decide)) (by decide)
  · exact absurd hstate (by decide)

/-! ### Panics -/

/-- A call that gives a value or an error. -/
def Safe {α : Type} (outcome : Except Abort α) : Prop := ∀ p, outcome ≠ .error (.panicked p)

/-- There is a value on a condition, and a panic without it. -/
def OkIff {α : Type} (cond : Prop) (outcome : Except Abort α) : Prop :=
  (cond ∧ ∃ a, outcome = .ok a) ∨ (¬ cond ∧ ∃ p, outcome = .error (.panicked p))

section

variable {α β : Type} {cond cond' : Prop} {outcome : Except Abort α}

/-- What succeeds on a condition, and panics without it, is safe exactly on the condition. -/
theorem OkIff.safe (h : OkIff cond outcome) : Safe outcome ↔ cond := by
  rcases h with ⟨hcond, a, rfl⟩ | ⟨hcond, p, rfl⟩
  · refine iff_of_true (fun p hp => ?_) hcond
    cases hp
  · exact iff_of_false (fun hsafe => hsafe p rfl) hcond

/-- What always succeeds needs no condition. -/
theorem OkIff.of_ok (h : ∃ a, outcome = .ok a) : OkIff True outcome := .inl ⟨trivial, h⟩

/-- The condition may be replaced by an equivalent one. -/
theorem OkIff.congr (h : OkIff cond outcome) (hiff : cond ↔ cond') : OkIff cond' outcome := by
  rw [OkIff, ← hiff]
  exact h

/-- The second call is made after a first one that gives a value. -/
theorem OkIff.bind {k : α → Except Abort β} (h : OkIff cond outcome)
    (hk : ∀ a, OkIff cond' (k a)) : OkIff (cond ∧ cond') (outcome >>= k) := by
  rcases h with ⟨hcond, a, rfl⟩ | ⟨hcond, p, rfl⟩
  · exact (hk a).congr (and_iff_right hcond).symm
  · exact .inr ⟨fun h => hcond h.1, p, rfl⟩

/-- To map the value does not change the condition. -/
theorem OkIff.map (h : OkIff cond outcome) (f : α → β) : OkIff cond (outcome.map f) := by
  rcases h with ⟨hcond, a, rfl⟩ | ⟨hcond, p, rfl⟩
  · exact .inl ⟨hcond, f a, rfl⟩
  · exact .inr ⟨hcond, p, rfl⟩

end

/-- The formats of the codecs of the crate. -/
def builtinFormats : List String := ["0", "8", "96", "101"]

/-- The formats with dynamic payload types. -/
def dynamicFormats : List String := ["96", "101"]

/-- The formats of the codecs of the crate are payload types, dynamic or not. -/
theorem parseU8_builtin : ∀ format ∈ builtinFormats, ∃ payloadType,
    parseU8 format = .ok payloadType ∧ (payloadType < 96 ↔ format ∉ dynamicFormats) := by
  refine List.forall_mem_cons.mpr ⟨⟨0, by decide⟩, List.forall_mem_cons.mpr ⟨⟨8, by decide⟩,
    List.forall_mem_cons.mpr ⟨⟨96, by decide⟩, List.forall_mem_singleton.mpr ⟨101, by decide⟩⟩⟩⟩

/-- The formats of the crate are gone through when none is dynamic. -/
theorem okIff_answerFormats (remoteFormats : List String) {formats : List String}
    (h : ∀ format ∈ formats, format ∈ builtinFormats) :
    OkIff (∀ format ∈ formats, format ∉ dynamicFormats) (answerFormats remoteFormats formats) := by
  induction formats with
  | nil => exact .inl ⟨fun _ h => absurd h List.not_mem_nil, [], rfl⟩
  | cons format formats ih =>
    obtain ⟨hformat, hformats⟩ := List.forall_mem_cons.mp h
    obtain ⟨payloadType, hparse, hdynamic⟩ := parseU8_builtin format hformat
    rw [List.forall_mem_cons, answerFormats, hparse]
    dsimp only
    by_cases hlt : payloadType < 96
    · rw [if_pos hlt, and_iff_right (hdynamic.mp hlt)]
      exact ((ih hformats).bind fun _ => .of_ok ⟨_, rfl⟩).congr (and_iff_left trivial)
    · rw [if_neg hlt]
      exact .inr ⟨fun hall => hlt (hdynamic.mpr hall.1), _, rfl⟩

/-- Every direction that attributes give is answered. -/
theorem okIff_answerDir (remote : List Attribute) (localDir : Option String) :
    OkIff True (answerDir (directionOf remote) localDir) := by
  apply OkIff.of_ok
  cases hremote : directionOf remote with
  | none => exact ⟨none, rfl⟩
  | some name =>
    have hname := directionOf_eq_some hremote
    simp only [List.mem_cons, List.not_mem_nil, or_false] at hname
    rcases hname with rfl | rfl | rfl | rfl
    · by_cases hsend : localDir = some "sendrecv" ∨ localDir = some "sendonly"
      · exact ⟨_, if_pos hsend⟩
      · exact ⟨_, if_neg hsend⟩
    · exact ⟨_, rfl⟩
    · by_cases hrecv : localDir = some "sendrecv" ∨ localDir = some "recvonly"
      · exact ⟨_, if_pos hrecv⟩
      · exact ⟨_, if_neg hrecv⟩
    · exact ⟨_, rfl⟩

/-- The negotiator can answer the offered stream of the pair with the local one. -/
structure Answerable (pair : MediaDescription × MediaDescription) : Prop where
  kind : SameKind pair
  static : Accepted pair → ∀ format ∈ pair.1.mediaFormats, format ∉ dynamicFormats

/-- With formats of the crate, a pair of streams is answered exactly if it is answerable. -/
theorem okIff_answerMedia {l r : MediaDescription}
    (h : ∀ format ∈ l.mediaFormats, format ∈ builtinFormats) :
    OkIff (Answerable (l, r)) (answerMedia l r) := by
  unfold answerMedia
  by_cases htype : l.mediaType = r.mediaType
  · by_cases hproto : l.proto = r.proto
    · rw [if_neg (not_not_intro htype), if_neg (not_not_intro hproto)]
      by_cases hport : r.port = 0 ∨ l.port = 0
      · rw [if_pos hport]
        refine .inl ⟨⟨⟨htype, hproto⟩, fun haccepted => ?_⟩, _, rfl⟩
        rcases hport with hport | hport
        · exact absurd hport haccepted.2
        · exact absurd hport haccepted.1
      · rw [if_neg hport]
        obtain ⟨hremote, hlocal⟩ := not_or.mp hport
        refine ((okIff_answerDir _ _).bind fun _ =>
          (okIff_answerFormats _ h).bind fun _ => .of_ok ⟨_, rfl⟩).congr ?_
        rw [true_and, and_true]
        exact ⟨fun hstatic => ⟨⟨htype, hproto⟩, fun _ => hstatic⟩,
          fun h => h.static ⟨hlocal, hremote⟩⟩
    · rw [if_neg (not_not_intro htype), if_pos hproto]
      exact .inr ⟨fun h => hproto h.kind.2, _, rfl⟩
  · rw [if_pos htype]
    exact .inr ⟨fun h => htype h.kind.1, _, rfl⟩

/-- With formats of the crate, all pairs are answered exactly if each of them is answerable. -/
theorem okIff_answerMedias {pairs : List (MediaDescription × MediaDescription)}
    (h : ∀ pair ∈ pairs, ∀ format ∈ pair.1.mediaFormats, format ∈ builtinFormats) :
    OkIff (∀ pair ∈ pairs, Answerable pair) (answerMedias pairs) := by
  induction pairs with
  | nil => exact .inl ⟨fun _ h => absurd h List.not_mem_nil, [], rfl⟩
  | cons pair pairs ih =>
    obtain ⟨l, r⟩ := pair
    obtain ⟨hpair, hpairs⟩ := List.forall_mem_cons.mp h
    rw [List.forall_mem_cons]
    exact (okIff_answerMedia hpair).bind fun _ =>
      ((ih hpairs).bind fun _ => .of_ok ⟨_, rfl⟩).congr (and_iff_left trivial)

/-- An offer that the negotiator creates from codecs of the crate. -/
def BuiltinOffer (l : SessionDescription) : Prop :=
  ∃ (n : Negotiator) (params : SdpOfferParams) (sessionId sessionVersion : UInt64),
    n.createOffer params sessionId sessionVersion = .ok l ∧
      ∀ stream ∈ params.mediaStreams, ∀ c ∈ stream.codecs, c ∈ Codec.builtin

/-- An offer of codecs of the crate has formats of the crate. -/
theorem BuiltinOffer.formats {l : SessionDescription} (h : BuiltinOffer l) :
    ∀ m ∈ l.media, ∀ format ∈ m.mediaFormats, format ∈ builtinFormats := by
  obtain ⟨n, params, sessionId, sessionVersion, hoffer, hcodecs⟩ := h
  have hstream : ∀ stream ∈ params.mediaStreams,
      ∀ format ∈ stream.description.mediaFormats, format ∈ builtinFormats := by
    intro stream hmem format hformat
    obtain ⟨c, hc, rfl⟩ := List.mem_map.mp hformat
    have hbuiltin : ∀ c ∈ Codec.builtin, decimal c.payloadType.toNat ∈ builtinFormats := by decide
    exact hbuiltin c (hcodecs stream hmem c hc)
  obtain ⟨-, ⟨-, hmedia⟩ | ⟨streams, stream, hstreams, hmedia⟩⟩ := createOffer_ok hoffer
  · rw [hmedia]
    exact fun _ hm => absurd hm List.not_mem_nil
  · rw [hmedia]
    rw [hstreams] at hstream
    intro m hm
    rcases List.mem_append.mp hm with hm | hm
    · obtain ⟨own, hown, rfl⟩ := List.mem_map.mp hm
      exact hstream own (List.mem_append_left _ hown)
    · obtain rfl := List.mem_singleton.mp hm
      exact hstream stream (List.mem_append_right _ (List.mem_singleton_self _))

/-- The local offer after a call is the one before it, or the one of the call. -/
theorem localOffer_call {n : Negotiator} {c : NegotiatorCall} {l : SessionDescription}
    (h : (n.call c).2.localOffer = some l) : n.localOffer = some l ∨ c = .setLocalOffer l := by
  cases c with
  | setRemoteOffer r =>
    refine .inl ?_
    rw [call, setRemoteOffer] at h
    split at h <;> exact h
  | setLocalOffer l' =>
    rw [call, setLocalOffer] at h
    split at h
    · exact .inr (congrArg NegotiatorCall.setLocalOffer (Option.some.inj h))
    · exact .inr (congrArg NegotiatorCall.setLocalOffer (Option.some.inj h))
    all_goals exact .inl h
  | createOffer params sessionId sessionVersion => exact .inl h
  | createAnswer =>
    refine .inl ?_
    rw [call, createAnswer] at h
    split at h
    · exact h
    · split at h
      · exact h
      · exact h
      · next hlocal =>
        rw [hlocal]
        split at h <;> simpa [hlocal] using h
  | processAnswer answer =>
    refine .inl ?_
    rw [call, processAnswer] at h
    split at h
    · exact h
    · split at h
      · exact h
      · next hlocal =>
        rw [hlocal]
        split at h <;> simpa [hlocal] using h

/-- The local offer comes from the start, or from a call. -/
theorem localOffer_run {n : Negotiator} {calls : List NegotiatorCall} {l : SessionDescription}
    (h : (n.run calls).localOffer = some l) :
    n.localOffer = some l ∨ .setLocalOffer l ∈ calls := by
  induction calls generalizing n with
  | nil => exact .inl h
  | cons c calls ih =>
    rcases ih h with hlocal | hmem
    · exact (localOffer_call hlocal).imp id fun hc => List.mem_cons.mpr (.inl hc.symm)
    · exact .inr (List.mem_cons_of_mem c hmem)

/-- With both offers there, the creation of an answer is safe exactly if all pairs are answerable.
    -/
theorem safe_createAnswer_iff {n : Negotiator} {l r : SessionDescription}
    (hstate : n.state = .ready) (hlocal : n.localOffer = some l) (hremote : n.remoteOffer = some r)
    (hoffer : BuiltinOffer l) :
    Safe n.createAnswer.1 ↔ ∀ pair ∈ l.media.zip r.media, Answerable pair := by
  have houtcome : n.createAnswer.1 =
      (answerMedias (l.media.zip r.media)).map fun media => { l with media := media, time := r.time } := by
    rw [createAnswer, if_neg (not_not_intro hstate), hlocal, hremote]
    dsimp only
    cases answerMedias (l.media.zip r.media) <;> rfl
  rw [houtcome]
  refine ((okIff_answerMedias fun pair hpair => ?_).map _).safe
  exact hoffer.formats pair.1 (List.of_mem_zip hpair).1

/-- With an offer sent, the processing of an answer is safe exactly if all pairs are of one kind. -/
theorem safe_processAnswer_iff {n : Negotiator} {l : SessionDescription}
    (hstate : n.state = .localOffer) (hlocal : n.localOffer = some l)
    (answer : SessionDescription) :
    Safe (n.processAnswer answer).1 ↔ ∀ pair ∈ l.media.zip answer.media, SameKind pair := by
  rw [processAnswer_eq hstate hlocal]
  by_cases hkinds : ∀ pair ∈ l.media.zip answer.media, SameKind pair
  · rw [if_pos hkinds]
    refine iff_of_true (fun p hp => ?_) hkinds
    cases hp
  · rw [if_neg hkinds]
    exact iff_of_false (fun hsafe => hsafe _ rfl) hkinds

/-- **When an answer is made, or processed, without a panic.** After every sequence of calls, when
    the own offers are created from codecs of the crate: an answer is made when the streams of each
    pair are of one kind, and an accepted one has no dynamic format; an answer is processed when
    they are of one kind. -/
theorem run_safe_iff {start : Negotiator} (hstart : Start start) (calls : List NegotiatorCall)
    (hoffers : ∀ l, start.localOffer = some l ∨ .setLocalOffer l ∈ calls → BuiltinOffer l)
    (answer : SessionDescription) :
    let n := start.run calls
    (Safe n.createAnswer.1 ↔
        (n.state = .ready → ∀ l ∈ n.localOffer, ∀ r ∈ n.remoteOffer,
          ∀ pair ∈ l.media.zip r.media, Answerable pair)) ∧
      (Safe (n.processAnswer answer).1 ↔
        (n.state = .localOffer → ∀ l ∈ n.localOffer,
          ∀ pair ∈ l.media.zip answer.media, SameKind pair)) := by
  intro n
  have hok : n.Ok := hstart.ok.run calls
  have hbuiltin : ∀ l ∈ n.localOffer, BuiltinOffer l := fun l hl => hoffers l (localOffer_run hl)
  constructor
  · by_cases hstate : n.state = .ready
    · unfold Ok at hok
      rw [hstate] at hok
      obtain ⟨l, hlocal⟩ := Option.isSome_iff_exists.mp hok.1
      obtain ⟨r, hremote⟩ := Option.isSome_iff_exists.mp hok.2.1
      rw [safe_createAnswer_iff hstate hlocal hremote (hbuiltin l hlocal), hlocal, hremote]
      simp [hstate]
    · refine iff_of_true (fun p hp => ?_) fun h => absurd h hstate
      rw [createAnswer, if_pos hstate] at hp
      cases hp
  · by_cases hstate : n.state = .localOffer
    · unfold Ok at hok
      rw [hstate] at hok
      obtain ⟨l, hlocal⟩ := Option.isSome_iff_exists.mp hok.1
      rw [safe_processAnswer_iff hstate hlocal, hlocal]
      simp [hstate]
    · refine iff_of_true (fun p hp => ?_) fun h => absurd h hstate
      rw [processAnswer, if_pos hstate] at hp
      cases hp

/-- An offer of one audio stream with codecs of the crate. -/
theorem builtinOffer_asking {codecs : List Codec} (hcodecs : ∀ c ∈ codecs, c ∈ Codec.builtin) :
    ∃ l, new.createOffer (asking .sendRecv [codecs]) 1 1 = .ok l ∧ BuiltinOffer l := by
  refine ⟨_, rfl, new, asking .sendRecv [codecs], 1, 1, rfl, fun stream hstream => ?_⟩
  obtain rfl := List.mem_singleton.mp hstream
  exact hcodecs

/-- The condition at an offer with one stream. -/
theorem run_safe_iff_asking :
    ∃ l, new.createOffer (asking .sendRecv [[.ulaw, .alaw]]) 1 1 = .ok l ∧
      Safe (facing l (calling ["8"] "sendonly")).createAnswer.1 := by
  obtain ⟨l, hl, hbuiltin⟩ := @builtinOffer_asking [.ulaw, .alaw] (by decide)
  refine ⟨l, hl, ?_⟩
  have hoffers : ∀ l', (withRemote (calling ["8"] "sendonly")).localOffer = some l' ∨
      .setLocalOffer l' ∈ [NegotiatorCall.setLocalOffer l] → BuiltinOffer l' := by
    rintro l' (h | h)
    · cases h
    · obtain rfl := NegotiatorCall.setLocalOffer.inj (List.mem_singleton.mp h)
      exact hbuiltin
  refine (run_safe_iff (.withRemote _) _ hoffers l).1.mpr fun _ l' hl' r hr pair hpair => ?_
  obtain rfl := Option.some.inj hl'
  obtain rfl := Option.some.inj hr
  obtain rfl := Except.ok.inj hl
  obtain rfl := List.mem_singleton.mp hpair
  exact ⟨by decide, fun _ => by decide⟩

/-- A session with one video stream. -/
def videoOffer : SessionDescription :=
  { origin :=
      { user := "-", sessionId := 1, sessionVersion := 1, unicastAddress := .v4 ⟨10, 0, 0, 1⟩ }
    sessionName := "-"
    time := [{ timeActive := ⟨0, 0⟩ }]
    media := [{ mediaType := .video, proto := .rtpAvp, port := 4000, mediaFormats := ["31"] }] }

/-- A video stream stands against the audio stream offered here, and both calls panic. -/
theorem not_safe_videoOffer :
    ∃ l, BuiltinOffer l ∧
      SdpParser.parse (.v4 ⟨127, 0, 0, 1⟩) (asBytes
        "v=0\r\no=- 1 1 IN IP4 10.0.0.1\r\ns=-\r\nt=0 0\r\nm=video 4000 RTP/AVP 31\r\n") =
          .ok videoOffer ∧
      ¬ Safe (facing l videoOffer).createAnswer.1 ∧
      ¬ Safe ((withLocal l).processAnswer videoOffer).1 := by
  obtain ⟨l, hl, hbuiltin⟩ := @builtinOffer_asking [.ulaw] (by decide)
  refine ⟨l, hbuiltin, by decide +kernel, fun hsafe => ?_, fun hsafe => ?_⟩
  · obtain rfl := Except.ok.inj hl
    exact hsafe .returnErr (by decide +kernel)
  · obtain rfl := Except.ok.inj hl
    exact hsafe .returnErr (by decide +kernel)

end Negotiator

end Rssip.Media
