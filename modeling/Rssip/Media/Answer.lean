import Rssip.Media.Negotiator
import Mathlib.Data.List.Forall2

namespace Rssip.Media

open Lib

/-!
# The shape of an answer

An answer has a media description for each one of the offer, in the same order, with port zero
for a stream that is rejected.

* `AnswerShape` — what an answer to an offer looks like;
* `answerShape_iff` — the answer of a negotiator has that shape when no stream is rejected.  The
  loop over the pairs of media descriptions leaves a rejected stream out;
* `createAnswer_common` — what an answer takes from the local description, and what from the offer.
-/

/-- An answer to the offer `r` of the side that offers `l`. -/
structure AnswerShape (l r answer : SessionDescription) : Prop where
  length : answer.media.length = r.media.length
  kind : ∀ (i : Nat) (offered m : MediaDescription), r.media[i]? = some offered →
    answer.media[i]? = some m → m.mediaType = offered.mediaType ∧ m.proto = offered.proto
  /-- Without a media description of its own, the side that answers rejects the stream. -/
  rejected : ∀ (i : Nat) (offered m : MediaDescription), r.media[i]? = some offered →
    answer.media[i]? = some m → (offered.port = 0 ∨ ∀ own ∈ l.media[i]?, own.port = 0) → m.port = 0

namespace Negotiator

/-- Neither side rejects the stream. -/
def Accepted (pair : MediaDescription × MediaDescription) : Prop :=
  pair.1.port ≠ 0 ∧ pair.2.port ≠ 0

instance : DecidablePred Accepted := fun pair =>
  inferInstanceAs (Decidable (pair.1.port ≠ 0 ∧ pair.2.port ≠ 0))

/-- The pass of the loop over the pair of `l` and `r` adds `m`. -/
structure Adds (l r m : MediaDescription) (direction : Option String) (formats : List String) :
    Prop where
  accepted : Accepted (l, r)
  mediaType : l.mediaType = r.mediaType
  proto : l.proto = r.proto
  answerDir : answerDir (directionOf r.attributes) (directionOf l.attributes) = .ok direction
  answerFormats : answerFormats r.mediaFormats l.mediaFormats = .ok formats
  eq : m = { l with mediaFormats := formats, attributes := answerAttributes l.attributes direction }

/-- What one pass of the loop adds to the answer, if it goes on. -/
theorem answerMedia_ok {l r : MediaDescription} {media : Option MediaDescription}
    (h : answerMedia l r = .ok media) :
    (media = none ∧ ¬ Accepted (l, r)) ∨
      ∃ m direction formats, media = some m ∧ Adds l r m direction formats := by
  unfold answerMedia at h
  by_cases htype : l.mediaType = r.mediaType
  · by_cases hproto : l.proto = r.proto
    · rw [if_neg (not_not_intro htype), if_neg (not_not_intro hproto)] at h
      by_cases hport : r.port = 0 ∨ l.port = 0
      · rw [if_pos hport] at h
        refine .inl ⟨(Except.ok.inj h).symm, fun haccepted => ?_⟩
        rcases hport with hport | hport
        · exact haccepted.2 hport
        · exact haccepted.1 hport
      · rw [if_neg hport] at h
        obtain ⟨hremote, hlocal⟩ := not_or.mp hport
        obtain ⟨direction, hdirection, h⟩ := except_bind_eq_ok_iff.mp h
        obtain ⟨formats, hformats, h⟩ := except_bind_eq_ok_iff.mp h
        exact .inr ⟨_, direction, formats, (Except.ok.inj h).symm, ⟨hlocal, hremote⟩, htype, hproto,
          hdirection, hformats, rfl⟩
    · rw [if_neg (not_not_intro htype), if_pos hproto] at h
      cases h
  · rw [if_pos htype] at h
    cases h

/-- The loop adds a stream for each pair that neither side rejects. -/
theorem answerMedias_ok {pairs : List (MediaDescription × MediaDescription)}
    {medias : List MediaDescription} (h : answerMedias pairs = .ok medias) :
    List.Forall₂ (fun pair m => ∃ direction formats, Adds pair.1 pair.2 m direction formats)
      (pairs.filter Accepted) medias := by
  induction pairs generalizing medias with
  | nil =>
    obtain rfl := Except.ok.inj h
    exact .nil
  | cons pair pairs ih =>
    obtain ⟨l, r⟩ := pair
    obtain ⟨media, hmedia, h⟩ := except_bind_eq_ok_iff.mp h
    obtain ⟨rest, hrest, h⟩ := except_bind_eq_ok_iff.mp h
    obtain rfl := Except.ok.inj h
    rcases answerMedia_ok hmedia with ⟨rfl, hnot⟩ | ⟨m, direction, formats, rfl, hadds⟩
    · rw [List.filter_cons_of_neg (by simpa using hnot)]
      exact ih hrest
    · rw [List.filter_cons_of_pos (by simpa using hadds.accepted)]
      exact .cons ⟨direction, formats, hadds⟩ (ih hrest)

/-- What an answer is made of: the local session, but for its streams and the times of the offer. -/
theorem createAnswer_eq_ok {n : Negotiator} {l r answer : SessionDescription}
    (hlocal : n.localOffer = some l) (hremote : n.remoteOffer = some r)
    (h : n.createAnswer.1 = .ok answer) :
    ∃ media, answerMedias (l.media.zip r.media) = .ok media ∧
      answer = { l with media := media, time := r.time } := by
  unfold createAnswer at h
  by_cases hstate : n.state = .ready
  · rw [if_neg (not_not_intro hstate), hremote, hlocal] at h
    dsimp only at h
    cases hmedias : answerMedias (l.media.zip r.media) with
    | error abort =>
      rw [hmedias] at h
      cases h
    | ok media =>
      rw [hmedias] at h
      exact ⟨media, rfl, (Except.ok.inj h).symm⟩
  · rw [if_pos hstate] at h
    cases h

/-- The streams of an answer. -/
theorem createAnswer_ok {n : Negotiator} {l r answer : SessionDescription}
    (hlocal : n.localOffer = some l) (hremote : n.remoteOffer = some r)
    (h : n.createAnswer.1 = .ok answer) : answerMedias (l.media.zip r.media) = .ok answer.media := by
  obtain ⟨media, hmedias, rfl⟩ := createAnswer_eq_ok hlocal hremote h
  exact hmedias

/-- **The shape of an answer.** It has a description for each one of the offer exactly when the
    other side has as many, and none of the pairs is rejected. -/
theorem answerShape_iff {n : Negotiator} {l r answer : SessionDescription}
    (hlocal : n.localOffer = some l) (hremote : n.remoteOffer = some r)
    (h : n.createAnswer.1 = .ok answer) :
    AnswerShape l r answer ↔
      r.media.length ≤ l.media.length ∧ ∀ pair ∈ l.media.zip r.media, Accepted pair := by
  have hmedias := answerMedias_ok (createAnswer_ok hlocal hremote h)
  have hlength := hmedias.length_eq
  have hzip : (l.media.zip r.media).length = min l.media.length r.media.length := List.length_zip
  have hfilter := List.length_filter_le (fun pair => decide (Accepted pair)) (l.media.zip r.media)
  constructor
  · intro hshape
    have hall : ((l.media.zip r.media).filter Accepted).length = (l.media.zip r.media).length := by
      have := hshape.length
      omega
    refine ⟨by have := hshape.length; omega, fun pair hpair => ?_⟩
    simpa using List.length_filter_eq_length_iff.mp hall pair hpair
  · rintro ⟨hle, haccepted⟩
    have hall : (l.media.zip r.media).filter Accepted = l.media.zip r.media :=
      List.filter_eq_self.mpr fun pair hpair => by simpa using haccepted pair hpair
    rw [hall] at hmedias hlength
    -- the own description of a stream, and its pair
    have hpair : ∀ (i : Nat) (offered : MediaDescription), r.media[i]? = some offered →
        ∃ own, l.media[i]? = some own ∧ (l.media.zip r.media)[i]? = some (own, offered) := by
      intro i offered hoffered
      obtain ⟨hi, -⟩ := List.getElem?_eq_some_iff.mp hoffered
      refine ⟨l.media[i], List.getElem?_eq_getElem _, ?_⟩
      rw [List.getElem?_zip_eq_some]
      exact ⟨List.getElem?_eq_getElem _, hoffered⟩
    refine ⟨by omega, fun i offered m hoffered hm => ?_, fun i offered m hoffered hm hrejected => ?_⟩
    · obtain ⟨own, -, hzipped⟩ := hpair i offered hoffered
      have hmem : ((own, offered), m) ∈ (l.media.zip r.media).zip answer.media :=
        List.mem_of_getElem? (List.getElem?_zip_eq_some.mpr ⟨hzipped, hm⟩)
      obtain ⟨direction, formats, hadds⟩ := (List.forall₂_iff_zip.mp hmedias).2 hmem
      rw [hadds.eq]
      exact ⟨hadds.mediaType, hadds.proto⟩
    · obtain ⟨own, hown, hzipped⟩ := hpair i offered hoffered
      have hboth := haccepted _ (List.mem_of_getElem? hzipped)
      rcases hrejected with hport | hport
      · exact absurd hport hboth.2
      · exact absurd (hport own hown) hboth.1

/-- The negotiator of a side that offers `l`, with the offer `r` of the other side. -/
def facing (l r : SessionDescription) : Negotiator := (withRemote r).run [.setLocalOffer l]

theorem answerShape_iff_offering :
    ∃ answer, (facing (offering "0") (offering "0")).createAnswer.1 = .ok answer ∧
      AnswerShape (offering "0") (offering "0") answer := by
  have hanswer : (facing (offering "0") (offering "0")).createAnswer.1 = .ok (offering "0") := by
    decide +kernel
  refine ⟨offering "0", hanswer, (answerShape_iff rfl rfl hanswer).mpr ⟨Nat.le_refl _, ?_⟩⟩
  decide

/-- A session that rejects its audio stream. -/
def rejecting : SessionDescription :=
  { offering "0" with media := (offering "0").media.map fun m => { m with port := 0 } }

/-- The rejected stream is left out, and the answer to one stream has none. -/
theorem not_answerShape_rejecting :
    ∃ answer, (facing (offering "0") rejecting).createAnswer.1 = .ok answer ∧
      ¬ AnswerShape (offering "0") rejecting answer := by
  refine ⟨{ offering "0" with media := [] }, by decide +kernel, fun hshape => ?_⟩
  exact absurd hshape.length (by decide)

/-! ### What an answer takes from each side -/

/-- Every direction of an answer is one that the local attributes lose. -/
theorem isDirection_of_answerDir {remoteDir localDir : Option String} {direction : String}
    (h : answerDir remoteDir localDir = .ok (some direction)) (value : Option String) :
    isDirection ⟨direction, value⟩ := by
  unfold answerDir at h
  split at h
  · split at h
    · cases h
      rfl
    · cases h
      rfl
  · cases h
    rfl
  · split at h
    · cases h
      rfl
    · cases h
      rfl
  · cases h
    rfl
  · cases h
  · cases h

/-- Whatever the direction of the answer is, the other attributes are the local ones. -/
theorem answerAttributes_filter {remoteDir localDir direction : Option String}
    (h : answerDir remoteDir localDir = .ok direction) (attributes : List Attribute) :
    (answerAttributes attributes direction).filter (fun attr => !isDirection attr) =
      attributes.filter fun attr => !isDirection attr := by
  cases direction with
  | none => rfl
  | some direction =>
    rw [answerAttributes, List.filter_append, List.filter_filter]
    simp [isDirection_of_answerDir h]

/-- The loop over the local formats keeps the common ones. -/
theorem answerFormats_ok {remoteFormats localFormats formats : List String}
    (h : answerFormats remoteFormats localFormats = .ok formats) :
    formats = localFormats.filter (· ∈ remoteFormats) := by
  induction localFormats generalizing formats with
  | nil => exact (Except.ok.inj h).symm
  | cons format localFormats ih =>
    rw [answerFormats] at h
    split at h
    · cases h
    · split at h
      · obtain ⟨rest, hrest, h⟩ := except_bind_eq_ok_iff.mp h
        obtain rfl := Except.ok.inj h
        obtain rfl := ih hrest
        by_cases hmem : format ∈ remoteFormats
        · rw [if_pos hmem, List.filter_cons_of_pos (by simpa using hmem)]
        · rw [if_neg hmem, List.filter_cons_of_neg (by simpa using hmem)]
      · cases h

/-- The media description `m` of an answer is the local one `l`, with the formats that the offered
    one `r` lists too, and with a direction of its own. -/
structure AnswerStream (l r m : MediaDescription) : Prop where
  mediaType : m.mediaType = l.mediaType
  proto : m.proto = l.proto
  port : m.port = l.port
  mediaFormats : m.mediaFormats = l.mediaFormats.filter (· ∈ r.mediaFormats)
  attributes : m.attributes.filter (fun attr => !isDirection attr) =
    l.attributes.filter fun attr => !isDirection attr
  others : { m with mediaFormats := l.mediaFormats, attributes := l.attributes } = l

/-- What the loop adds for a pair is the stream of the pair. -/
theorem Adds.stream {l r m : MediaDescription} {direction : Option String} {formats : List String}
    (h : Adds l r m direction formats) : AnswerStream l r m := by
  obtain ⟨-, -, -, hdirection, hformats, rfl⟩ := h
  exact ⟨rfl, rfl, rfl, answerFormats_ok hformats, answerAttributes_filter hdirection _, rfl⟩

/-- The session of an answer. -/
theorem createAnswer_session {n : Negotiator} {l r answer : SessionDescription}
    (hlocal : n.localOffer = some l) (hremote : n.remoteOffer = some r)
    (h : n.createAnswer.1 = .ok answer) :
    answer = { l with media := answer.media, time := r.time } := by
  obtain ⟨media, -, rfl⟩ := createAnswer_eq_ok hlocal hremote h
  rfl

/-- **What an answer takes from each side.** Each of its streams is the local one of a pair that
    neither side rejects, with the common formats in local order; the session is the local one,
    with the times of the offer. -/
theorem createAnswer_common {n : Negotiator} {l r answer : SessionDescription}
    (hlocal : n.localOffer = some l) (hremote : n.remoteOffer = some r)
    (h : n.createAnswer.1 = .ok answer) :
    List.Forall₂ (fun pair m => AnswerStream pair.1 pair.2 m)
        ((l.media.zip r.media).filter Accepted) answer.media ∧
      answer = { l with media := answer.media, time := r.time } :=
  ⟨(answerMedias_ok (createAnswer_ok hlocal hremote h)).imp fun _ _ ⟨_, _, hadds⟩ => hadds.stream,
    createAnswer_session hlocal hremote h⟩

/-- The default session with one audio stream of some formats, and a direction. -/
def calling (formats : List String) (direction : String) : SessionDescription :=
  { SessionDescription.default (.v4 ⟨127, 0, 0, 1⟩) with
    media := [
      { mediaType := .audio
        proto := .rtpAvp
        port := 4000
        mediaFormats := formats
        attributes := [⟨direction, none⟩, ⟨"ptime", some "20"⟩] }] }

/-- Two formats are common, and one of them is listed twice. -/
theorem createAnswer_common_calling :
    ∃ answer m, (facing (calling ["8", "0", "3", "8"] "sendrecv")
        (calling ["0", "8"] "sendonly")).createAnswer.1 = .ok answer ∧
      answer.media = [m] ∧ m.mediaFormats = ["8", "0", "8"] ∧
        m.attributes.filter (fun attr => !isDirection attr) = [⟨"ptime", some "20"⟩] := by
  have hanswer : ∃ answer, (facing (calling ["8", "0", "3", "8"] "sendrecv")
      (calling ["0", "8"] "sendonly")).createAnswer.1 = .ok answer :=
    ⟨_, rfl⟩
  obtain ⟨answer, hanswer⟩ := hanswer
  obtain ⟨hstreams, -⟩ := createAnswer_common rfl rfl hanswer
  obtain ⟨m, rest, hstream, hrest, hmedia⟩ := List.forall₂_cons_left_iff.mp hstreams
  obtain rfl := List.forall₂_nil_left_iff.mp hrest
  exact ⟨answer, m, hanswer, hmedia, hstream.mediaFormats, hstream.attributes⟩

end Negotiator

end Rssip.Media
