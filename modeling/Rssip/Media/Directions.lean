import Rssip.Media.Answer

namespace Rssip.Media

open Lib

/-!
# The directions of the streams

A stream has the first direction among its attributes.  Without one it has the direction of its
session, and without that one too it is sent and received.

* `effective` — the direction of a stream in its session;
* `createAnswer_within_iff` — the directions of an answer stay within those of both sides exactly
  when the pairs of streams are `Compatible`;
* `createOffer_describes_iff` — an offer gives the direction asked for to its last stream only.
-/

/-- The direction that an attribute names. -/
def Direction.ofName : String → Direction
  | "sendrecv" => .sendRecv
  | "sendonly" => .sendOnly
  | "recvonly" => .recvOnly
  | "inactive" => .inactive
  | _ => .unspecified

/-- The side of this direction may send. -/
def Direction.Sends (d : Direction) : Prop := d = .sendRecv ∨ d = .sendOnly

/-- The side of this direction may receive. -/
def Direction.Receives (d : Direction) : Prop := d = .sendRecv ∨ d = .recvOnly

instance : DecidablePred Direction.Sends := fun d =>
  inferInstanceAs (Decidable (d = .sendRecv ∨ d = .sendOnly))

instance : DecidablePred Direction.Receives := fun d =>
  inferInstanceAs (Decidable (d = .sendRecv ∨ d = .recvOnly))

/-- The direction `a` of an answer is within the local one `l` and the offered one `r`. -/
structure Within (a l r : Direction) : Prop where
  sends : a.Sends → l.Sends ∧ r.Receives
  receives : a.Receives → l.Receives ∧ r.Sends

instance (a l r : Direction) : Decidable (Within a l r) :=
  decidable_of_iff ((a.Sends → l.Sends ∧ r.Receives) ∧ (a.Receives → l.Receives ∧ r.Sends))
    ⟨fun h => ⟨h.1, h.2⟩, fun h => ⟨h.sends, h.receives⟩⟩

theorem within_sendRecv_iff {l r : Direction} : Within .sendRecv l r ↔ l = .sendRecv ∧ r = .sendRecv := by
  cases l <;> cases r <;> decide

theorem within_inactive (l r : Direction) : Within .inactive l r := by
  cases l <;> cases r <;> decide

namespace Negotiator

/-- The direction that attributes give, or else the one of the level above. -/
def directionOr (above : Direction) (attributes : List Attribute) : Direction :=
  ((directionOf attributes).map Direction.ofName).getD above

/-- The direction of the stream `m` of the session `s`. -/
def effective (s : SessionDescription) (m : MediaDescription) : Direction :=
  directionOr (directionOr .sendRecv s.attributes) m.attributes

/-! ### Attributes and their direction -/

theorem directionOf_eq_some {attributes : List Attribute} {name : String}
    (h : directionOf attributes = some name) :
    name ∈ ["recvonly", "sendrecv", "sendonly", "inactive"] := by
  obtain ⟨attr, hfind, rfl⟩ := Option.map_eq_some_iff.mp h
  exact of_decide_eq_true (show isDirection attr from List.find?_some hfind)

theorem directionOf_append (attributes attributes' : List Attribute) :
    directionOf (attributes ++ attributes') =
      (directionOf attributes).or (directionOf attributes') := by
  rw [directionOf, List.find?_append]
  cases hfind : attributes.find? isDirection <;> simp [directionOf, hfind]

/-- Without a direction the attributes name none. -/
theorem directionOf_eq_none_iff {attributes : List Attribute} :
    directionOf attributes = none ↔ attributes.filter isDirection = [] := by
  rw [directionOf, Option.map_eq_none_iff, List.find?_eq_none, List.filter_eq_nil_iff]

/-- The direction of an answer is the one its attributes give first. -/
theorem directionOf_answerAttributes {direction : String}
    (hdirection : isDirection ⟨direction, none⟩) (attributes : List Attribute) :
    directionOf (answerAttributes attributes (some direction)) = some direction := by
  have hnone : directionOf (attributes.filter fun attr => !isDirection attr) = none := by
    rw [directionOf_eq_none_iff, List.filter_filter]
    simp
  rw [answerAttributes, directionOf_append, hnone, Option.none_or, directionOf, List.find?_cons,
    hdirection]
  rfl

/-! ### Answers -/

/-- The pair of a local stream and an offered one whose answer stays within both directions. -/
def Compatible (l r : SessionDescription) (pair : MediaDescription × MediaDescription) : Prop :=
  match directionOf pair.2.attributes with
  | some remote => remote = "sendrecv" → effective l pair.1 = .sendRecv
  -- the answer does not look at the direction that the stream has from its session
  | none => Within (effective l pair.1) (effective l pair.1) (effective r pair.2)

/-- A direction that the answer takes from the offer and from the own stream: only `sendrecv` is
    taken without a look at the own one. -/
theorem within_answerDir_iff {remote direction : String} {localDir : Option String}
    (hdirection : answerDir (some remote) localDir = .ok (some direction)) (above : Direction) :
    let own := (localDir.map Direction.ofName).getD above
    Within (.ofName direction) own (.ofName remote) ↔ (remote = "sendrecv" → own = .sendRecv) := by
  intro own
  unfold answerDir at hdirection
  split at hdirection
  · next hremote =>
    cases hremote
    refine iff_of_true ?_ fun h => absurd h (by decide)
    split at hdirection
    · next hlocal =>
      cases hdirection
      rcases hlocal with rfl | rfl <;> exact of_decide_eq_true rfl
    · cases hdirection
      exact within_inactive own _
  · next hremote =>
    cases hremote
    cases hdirection
    exact iff_of_true (within_inactive own _) fun h => absurd h (by decide)
  · next hremote =>
    cases hremote
    refine iff_of_true ?_ fun h => absurd h (by decide)
    split at hdirection
    · next hlocal =>
      cases hdirection
      rcases hlocal with rfl | rfl <;> exact of_decide_eq_true rfl
    · cases hdirection
      exact within_inactive own _
  · next hremote =>
    cases hremote
    cases hdirection
    rw [show Direction.ofName "sendrecv" = .sendRecv from rfl, within_sendRecv_iff]
    exact ⟨fun h _ => h.1, fun h => ⟨h rfl, rfl⟩⟩
  · cases hdirection
  · next hremote => cases hremote

/-- A direction of the offer is answered by a direction. -/
theorem answerDir_ne_none (remote : String) (localDir : Option String) :
    answerDir (some remote) localDir ≠ .ok none := by
  intro h
  unfold answerDir at h
  split at h
  · split at h <;> cases h
  · cases h
  · split at h <;> cases h
  · cases h
  · cases h
  · next hremote => cases hremote

/-- **One stream of an answer.** -/
theorem Adds.within_iff {l r answer : SessionDescription}
    {pair : MediaDescription × MediaDescription} {m : MediaDescription} {direction : Option String}
    {formats : List String} (h : Adds pair.1 pair.2 m direction formats)
    (hsession : answer.attributes = l.attributes) :
    Within (effective answer m) (effective l pair.1) (effective r pair.2) ↔
      Compatible l r pair := by
  have hanswer := h.answerDir
  rw [effective, h.eq, hsession, Compatible]
  cases hremote : directionOf pair.2.attributes with
  | none =>
    rw [hremote] at hanswer
    obtain rfl := Except.ok.inj hanswer
    rfl
  | some remote =>
    rw [hremote] at hanswer
    cases direction with
    | none => exact absurd hanswer (answerDir_ne_none _ _)
    | some direction =>
      have hown : directionOr (directionOr .sendRecv l.attributes)
          (answerAttributes pair.1.attributes (some direction)) = .ofName direction := by
        rw [directionOr, directionOf_answerAttributes (isDirection_of_answerDir hanswer none)]
        rfl
      have hoffered : effective r pair.2 = .ofName remote := by
        rw [effective, directionOr, hremote]
        rfl
      rw [hown, hoffered]
      exact within_answerDir_iff hanswer _

/-- **The directions of an answer.** Each of its streams stays within the local and the offered
    direction exactly when the pair that it answers is `Compatible`: an offered `sendrecv` meets a
    local one, or the own direction of a stream that is offered without one is within that of the
    offered session. -/
theorem createAnswer_within_iff {n : Negotiator} {l r answer : SessionDescription}
    (hlocal : n.localOffer = some l) (hremote : n.remoteOffer = some r)
    (h : n.createAnswer.1 = .ok answer) :
    List.Forall₂
      (fun pair m => Within (effective answer m) (effective l pair.1) (effective r pair.2) ↔
        Compatible l r pair)
      ((l.media.zip r.media).filter Accepted) answer.media := by
  have hsession : answer.attributes = l.attributes := by
    rw [createAnswer_session hlocal hremote h]
  exact (answerMedias_ok (createAnswer_ok hlocal hremote h)).imp
    fun _ _ ⟨_, _, hadds⟩ => hadds.within_iff hsession

/-- A stream that one side only sends, and the other only receives. -/
theorem createAnswer_within_iff_calling :
    ∃ answer m, (facing (calling ["0"] "sendonly") (calling ["0"] "recvonly")).createAnswer.1 =
        .ok answer ∧ answer.media = [m] ∧ Within (effective answer m) .sendOnly .recvOnly := by
  have hanswer : ∃ answer, (facing (calling ["0"] "sendonly")
      (calling ["0"] "recvonly")).createAnswer.1 = .ok answer :=
    ⟨_, rfl⟩
  obtain ⟨answer, hanswer⟩ := hanswer
  have hstreams := createAnswer_within_iff rfl rfl hanswer
  obtain ⟨m, rest, hwithin, hrest, hmedia⟩ := List.forall₂_cons_left_iff.mp hstreams
  obtain rfl := List.forall₂_nil_left_iff.mp hrest
  exact ⟨answer, m, hanswer, hmedia, hwithin.mpr fun h => absurd h (by decide)⟩

/-- An offered `sendrecv` makes a side receive that only sends. -/
theorem not_within_calling :
    let l := calling ["0"] "sendonly"
    let r := calling ["0"] "sendrecv"
    ∃ answer own offered m, (facing l r).createAnswer.1 = .ok answer ∧
      l.media = [own] ∧ r.media = [offered] ∧ answer.media = [m] ∧
      ¬ Within (effective answer m) (effective l own) (effective r offered) := by
  refine ⟨_, _, _, _, rfl, rfl, rfl, rfl, ?_⟩
  decide +kernel

/-! ### Offers -/

/-- The offer gives its streams a direction: each has one direction among its attributes, or has it
    from the session. -/
def Describes (direction : Direction) (offer : SessionDescription) : Prop :=
  ∀ m ∈ offer.media, effective offer m = direction ∧
    (m.attributes.filter isDirection = [⟨direction.toText, none⟩] ∨
      m.attributes.filter isDirection = [] ∧ directionOf offer.attributes = some direction.toText)

/-- A codec gives a stream no direction. -/
theorem filter_attributes (codecs : List Codec) :
    (codecs.flatMap Codec.attributes).filter isDirection = [] := by
  rw [List.filter_eq_nil_iff]
  intro attr hattr
  obtain ⟨c, -, hattr⟩ := List.mem_flatMap.mp hattr
  have hname : attr.name = "rtpmap" ∨ attr.name = "fmtp" := by
    unfold Codec.attributes at hattr
    split at hattr
    all_goals
      simp only [List.mem_cons, List.not_mem_nil, or_false] at hattr
    · exact .inl (congrArg Attribute.name hattr)
    · exact .inl (congrArg Attribute.name hattr)
    · exact .inl (congrArg Attribute.name hattr)
    · exact hattr.imp (congrArg Attribute.name) (congrArg Attribute.name)
    · exact .inl (congrArg Attribute.name hattr)
  rw [isDirection]
  rcases hname with hname | hname <;> rw [hname] <;> decide

/-- The last stream gets the direction. -/
theorem filter_lastAttributes (direction : Direction) :
    (lastAttributes direction).filter isDirection =
      if direction = .unspecified then [] else [⟨direction.toText, none⟩] := by
  cases direction <;> rfl

theorem directionOr_toText {attributes : List Attribute} {direction : Direction} (above : Direction)
    (h : attributes.filter isDirection = [⟨direction.toText, none⟩]) :
    directionOr above attributes = .ofName direction.toText := by
  rw [directionOr, directionOf, ← List.head?_filter, h]
  rfl

theorem ofName_toText (direction : Direction) : Direction.ofName direction.toText = direction := by
  cases direction <;> rfl

/-- The description of the last stream of an offer. -/
def lastDescription (direction : Direction) (stream : SdpMediaStream) : MediaDescription :=
  { stream.description with
    attributes := stream.description.attributes ++ lastAttributes direction }

/-- The streams of an offer, if there are any. -/
theorem createOffer_ok {n : Negotiator} {params : SdpOfferParams}
    {sessionId sessionVersion : UInt64} {offer : SessionDescription}
    (h : n.createOffer params sessionId sessionVersion = .ok offer) :
    offer.attributes = [] ∧
      (params.mediaStreams = [] ∧ offer.media = [] ∨
        ∃ streams stream, params.mediaStreams = streams ++ [stream] ∧
          offer.media = streams.map SdpMediaStream.description ++
            [lastDescription params.direction stream]) := by
  unfold createOffer at h
  split at h
  · obtain rfl := Except.ok.inj h
    refine ⟨rfl, ?_⟩
    rcases List.eq_nil_or_concat' params.mediaStreams with hstreams | ⟨streams, stream, hstreams⟩
    · rw [hstreams]
      exact .inl ⟨rfl, rfl⟩
    · rw [hstreams, List.map_append, List.map_singleton, modifyLast_concat]
      exact .inr ⟨streams, stream, rfl, rfl⟩
  · cases h

/-- **The directions of an offer.** The offer gives its streams the direction asked for exactly
    when there is at most one stream, for only the last one gets it, and when it is not
    `Unspecified`. -/
theorem createOffer_describes_iff {n : Negotiator} {params : SdpOfferParams}
    {sessionId sessionVersion : UInt64} {offer : SessionDescription}
    (h : n.createOffer params sessionId sessionVersion = .ok offer) :
    Describes params.direction offer ↔
      params.mediaStreams.length ≤ 1 ∧
        (params.mediaStreams ≠ [] → params.direction ≠ .unspecified) := by
  obtain ⟨hsession, ⟨hstreams, hmedia⟩ | ⟨streams, stream, hstreams, hmedia⟩⟩ := createOffer_ok h
  · rw [hstreams]
    refine iff_of_true (fun m hm => ?_) ⟨by simp, fun h => absurd rfl h⟩
    rw [hmedia] at hm
    cases hm
  · have hnone : ∀ direction : Direction,
        ¬ directionOf offer.attributes = some direction.toText := by
      rw [hsession]
      exact fun _ => Option.some_ne_none _ ∘ Eq.symm
    have hlast : (lastDescription params.direction stream).attributes.filter isDirection =
        if params.direction = .unspecified then [] else [⟨params.direction.toText, none⟩] := by
      show (stream.description.attributes ++ lastAttributes params.direction).filter isDirection = _
      rw [List.filter_append, filter_lastAttributes]
      show (stream.codecs.flatMap Codec.attributes).filter isDirection ++ _ = _
      rw [filter_attributes, List.nil_append]
    rw [hstreams]
    constructor
    · intro hdescribes
      -- a stream before the last one has no direction, and neither has the session
      have hfirst : streams = [] := by
        refine List.eq_nil_iff_forall_not_mem.mpr fun own hown => ?_
        have hmem : own.description ∈ offer.media := by
          rw [hmedia]
          exact List.mem_append_left _ (List.mem_map_of_mem hown)
        rcases (hdescribes _ hmem).2 with hone | ⟨-, habove⟩
        · rw [show own.description.attributes = own.codecs.flatMap Codec.attributes from rfl,
            filter_attributes] at hone
          cases hone
        · exact hnone _ habove
      refine ⟨by rw [hfirst]; simp, fun _ hunspecified => ?_⟩
      have hmem : lastDescription params.direction stream ∈ offer.media := by
        rw [hmedia]
        exact List.mem_append_right _ (List.mem_singleton_self _)
      rcases (hdescribes _ hmem).2 with hone | ⟨-, habove⟩
      · rw [hlast, if_pos hunspecified] at hone
        cases hone
      · exact hnone _ habove
    · rintro ⟨hlength, hspecified⟩
      obtain rfl : streams = [] := by
        rw [List.length_append, List.length_singleton] at hlength
        exact List.eq_nil_of_length_eq_zero (by omega)
      rw [if_neg (hspecified (by simp))] at hlast
      intro m hm
      rw [hmedia] at hm
      obtain rfl := List.mem_singleton.mp hm
      refine ⟨?_, .inl hlast⟩
      rw [effective, directionOr_toText _ hlast, ofName_toText]

/-- An offer of some audio streams. -/
def asking (direction : Direction) (codecs : List (List Codec)) : SdpOfferParams :=
  { originIp := .v4 ⟨127, 0, 0, 1⟩
    direction := direction
    mediaStreams := codecs.map fun codecs =>
      { transport := .rtpAvp, mediaType := .audio, codecs := codecs, port := 4000 } }

theorem createOffer_describes_iff_asking :
    ∃ offer, new.createOffer (asking .sendOnly [[⟨"PCMU", 8000, 0, 1⟩]]) 1 1 = .ok offer ∧
      Describes .sendOnly offer := by
  have hoffer : ∃ offer,
      new.createOffer (asking .sendOnly [[⟨"PCMU", 8000, 0, 1⟩]]) 1 1 = .ok offer :=
    ⟨_, rfl⟩
  obtain ⟨offer, hoffer⟩ := hoffer
  exact ⟨offer, hoffer, (createOffer_describes_iff hoffer).mpr ⟨Nat.le_refl 1, fun _ => by decide⟩⟩

/-- Two streams are offered as `sendonly`, and the first one is sent and received. -/
theorem not_describes_asking :
    ∃ offer first last,
      new.createOffer (asking .sendOnly [[⟨"PCMU", 8000, 0, 1⟩], [⟨"PCMA", 8000, 8, 1⟩]]) 1 1 =
        .ok offer ∧ offer.media = [first, last] ∧ effective offer first = .sendRecv ∧
      ¬ Describes .sendOnly offer := by
  refine ⟨_, _, _, rfl, rfl, by decide +kernel, fun hdescribes => ?_⟩
  exact absurd (hdescribes _ List.mem_cons_self).1 (by decide +kernel)

end Negotiator

end Rssip.Media
