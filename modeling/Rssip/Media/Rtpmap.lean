import Rssip.Media.Directions
import Rssip.Media.SdpRoundTrip

namespace Rssip.Media

open Lib

/-!
# The codecs of an offer

An offer lists the payload types of its codecs, and says in `rtpmap` attributes what they mean.

* `Mapped` — an attribute among some that means a codec;
* `createOffer_described_iff` — all codecs of a stream are `Mapped` exactly when each has the payload
  type and the clock rate of the codec of the crate with its name.
-/

/-- The value of an `rtpmap` attribute means the codec. -/
structure SdpParser.RtpMap.Means (m : SdpParser.RtpMap) (c : Codec) : Prop where
  payloadType : m.payloadType = decimal c.payloadType.toNat
  encName : m.encName = c.name
  clockRate : m.clockRate = c.clockRate

namespace SdpParser

instance (m : RtpMap) (c : Codec) : Decidable (m.Means c) :=
  decidable_of_iff (m.payloadType = decimal c.payloadType.toNat ∧ m.encName = c.name ∧
    m.clockRate = c.clockRate) ⟨fun h => ⟨h.1, h.2.1, h.2.2⟩, fun h => ⟨h.1, h.2, h.3⟩⟩

/-- What the parser makes of the value of an `rtpmap` attribute. -/
def rtpmapOf (value : String) : Option RtpMap :=
  match parseRtpmap (Scanner.new (asBytes value)) with
  | .ok m _ => some m
  | .error _ _ => none

theorem token_decimal (n : Nat) : Token (decimal n) := fun b hb => by
  refine forall_byte_of_lt (p := fun b => isAsciiDigit b → isToken b) (by decide +kernel) b ?_
  exact isAsciiDigit_of_mem_decimal hb

theorem asBytes_slash : asBytes "/" = [47] := by decide

/-- Without a blank behind the payload type there is no name. -/
theorem encName_of_slash {n : Nat} {rest : Bytes} {c c' : Scanner} {m : RtpMap}
    (hc : c.remaining = asBytes (decimal n) ++ 47 :: rest) (h : parseRtpmap c = .ok m c') :
    m.encName = "" := by
  have hblank : Reads handleWs [] (47 :: rest) () :=
    reads_handleWs (fun _ h => absurd h List.not_mem_nil) (stops_cons.mpr (by decide))
  have hname : Reads readToken (asBytes "") (47 :: rest) "" :=
    reads_readToken (fun _ h => absurd h (by simp)) (stops_cons.mpr (by decide +kernel))
  obtain ⟨payloadType, c₁, h₁, h⟩ := bind_eq_ok_iff.mp h
  obtain ⟨blank, c₂, h₂, h⟩ := bind_eq_ok_iff.mp h
  obtain ⟨encName, c₃, h₃, h⟩ := bind_eq_ok_iff.mp h
  have hc₁ : c₁.remaining = 47 :: rest := by
    rw [reads_readToken (token_decimal n) (stops_cons.mpr (by decide +kernel)) c hc] at h₁
    cases h₁
    exact remaining_advance (σ := Scanner) hc
  have hc₂ : c₂.remaining = 47 :: rest := by
    rw [hblank c₁ hc₁] at h₂
    obtain ⟨-, rfl⟩ := EStateM.Result.ok.inj h₂
    exact hc₁
  rw [hname c₂ hc₂] at h₃
  cases h₃
  obtain ⟨-, c₄, -, h⟩ := bind_eq_ok_iff.mp h
  obtain ⟨clockRate, c₅, -, h⟩ := bind_eq_ok_iff.mp h
  obtain ⟨param, c₆, -, h⟩ := bind_eq_ok_iff.mp h
  obtain ⟨done, c₇, -, h⟩ := bind_eq_ok_iff.mp h
  cases h
  rfl

end SdpParser

namespace Codec

open SdpParser

/-- An attribute among some that means the codec. -/
def Mapped (attributes : List Attribute) (c : Codec) : Prop :=
  ∃ value m, ⟨"rtpmap", some value⟩ ∈ attributes ∧ rtpmapOf value = some m ∧ m.Means c

/-- The codec is one of the crate, but for its channels. -/
def Known (c : Codec) : Prop :=
  ∃ b ∈ builtin, c.name = b.name ∧ c.payloadType = b.payloadType ∧ c.clockRate = b.clockRate

instance (c : Codec) : Decidable c.Known :=
  inferInstanceAs (Decidable (∃ b ∈ builtin,
    c.name = b.name ∧ c.payloadType = b.payloadType ∧ c.clockRate = b.clockRate))

/-- The value of the `rtpmap` attribute of a codec that is not one of the crate. -/
def rtpmapValue (c : Codec) : String :=
  decimal c.payloadType.toNat ++ "/" ++ c.name ++ "/" ++ decimal c.clockRate.toNat ++ "/" ++
    decimal c.channels.toNat ++ "/"

theorem attributes_of_name {b c : Codec} (hb : b ∈ builtin) (h : c.name = b.name) :
    c.attributes = b.attributes := by
  simp only [builtin, List.mem_cons, List.not_mem_nil, or_false] at hb
  unfold attributes
  rw [h]
  rcases hb with rfl | rfl | rfl | rfl <;> rfl

theorem attributes_cases (c : Codec) :
    (∃ b ∈ builtin, c.attributes = b.attributes) ∨
      c.attributes = [⟨"rtpmap", some c.rtpmapValue⟩] := by
  unfold attributes
  split
  · exact .inl ⟨ulaw, by decide, rfl⟩
  · exact .inl ⟨alaw, by decide, rfl⟩
  · exact .inl ⟨opus, by decide, rfl⟩
  · exact .inl ⟨telephoneEvent, by decide, rfl⟩
  · exact .inr rfl

/-- The attributes of a codec of the crate name one `rtpmap`, and it means the codec. -/
theorem builtin_rtpmap : ∀ b ∈ builtin, ∃ value m,
    b.attributes.filter (fun attr => attr.name = "rtpmap") = [⟨"rtpmap", some value⟩] ∧
      rtpmapOf value = some m ∧ m.Means b := by
  refine List.forall_mem_cons.mpr ⟨?_, List.forall_mem_cons.mpr ⟨?_, List.forall_mem_cons.mpr
    ⟨?_, List.forall_mem_singleton.mpr ?_⟩⟩⟩
  · exact ⟨"0 PCMU/8000", ⟨"0", "PCMU", 8000, none⟩, by decide +kernel⟩
  · exact ⟨"8 PCMA/8000", ⟨"8", "PCMA", 8000, none⟩, by decide +kernel⟩
  · exact ⟨"96 opus/48000/2", ⟨"96", "opus", 48000, some "2"⟩, by decide +kernel⟩
  · exact ⟨"101 telephone-event/8000", ⟨"101", "telephone-event", 8000, none⟩, by decide +kernel⟩

/-- What the attributes of a codec say is read back as a codec of the crate, or without a name. -/
theorem rtpmapOf_attributes {c : Codec} {value : String} {m : RtpMap}
    (hmem : ⟨"rtpmap", some value⟩ ∈ c.attributes) (hvalue : rtpmapOf value = some m) :
    m.encName = "" ∨ ∃ b ∈ builtin, m.Means b := by
  rcases c.attributes_cases with ⟨b, hb, hattributes⟩ | hattributes
  · obtain ⟨value', m', hfilter, hvalue', hmeans⟩ := builtin_rtpmap b hb
    rw [hattributes] at hmem
    have hfiltered : ⟨"rtpmap", some value⟩ ∈
        b.attributes.filter fun attr => attr.name = "rtpmap" :=
      List.mem_filter.mpr ⟨hmem, by simp⟩
    rw [hfilter] at hfiltered
    obtain rfl : value = value' := by simpa using hfiltered
    rw [hvalue] at hvalue'
    obtain rfl := Option.some.inj hvalue'
    exact .inr ⟨b, hb, hmeans⟩
  · rw [hattributes] at hmem
    obtain rfl : value = c.rtpmapValue := by simpa using hmem
    refine .inl ?_
    unfold rtpmapOf at hvalue
    split at hvalue
    · next m' c' hparse =>
      obtain rfl := Option.some.inj hvalue
      have hbytes : asBytes c.rtpmapValue = asBytes (decimal c.payloadType.toNat) ++
          47 :: asBytes (c.name ++ ("/" ++ (decimal c.clockRate.toNat ++ ("/" ++
            (decimal c.channels.toNat ++ "/"))))) := by
        simp only [rtpmapValue, asBytes_append, List.append_assoc, asBytes_slash]
        rfl
      have hc : (Scanner.new (asBytes c.rtpmapValue)).remaining = _ := hbytes
      exact encName_of_slash hc hparse
    · cases hvalue

/-- **The codecs of a stream.** Each is `Mapped` exactly when all are `Known`. -/
theorem mapped_iff {codecs : List Codec} (hnames : ∀ c ∈ codecs, c.name ≠ "") :
    (∀ c ∈ codecs, Mapped (codecs.flatMap attributes) c) ↔ ∀ c ∈ codecs, Known c := by
  constructor
  · intro hmapped c hc
    obtain ⟨value, m, hmem, hvalue, hmeans⟩ := hmapped c hc
    obtain ⟨c', -, hmem⟩ := List.mem_flatMap.mp hmem
    rcases rtpmapOf_attributes hmem hvalue with hempty | ⟨b, hb, hbuiltin⟩
    · exact absurd (hmeans.encName.symm.trans hempty) (hnames c hc)
    · refine ⟨b, hb, hmeans.encName.symm.trans hbuiltin.encName, ?_,
        hmeans.clockRate.symm.trans hbuiltin.clockRate⟩
      have hdecimal := hmeans.payloadType.symm.trans hbuiltin.payloadType
      exact UInt8.toNat_inj.mp (decimal_injective hdecimal)
  · intro hknown c hc
    obtain ⟨b, hb, hname, hpayloadType, hclockRate⟩ := hknown c hc
    obtain ⟨value, m, hfilter, hvalue, hmeans⟩ := builtin_rtpmap b hb
    refine ⟨value, m, List.mem_flatMap.mpr ⟨c, hc, ?_⟩, hvalue, ?_⟩
    · rw [attributes_of_name hb hname]
      exact (List.mem_filter.mp (hfilter ▸ List.mem_singleton_self _)).1
    · exact ⟨by rw [hmeans.payloadType, hpayloadType], by rw [hmeans.encName, hname],
        by rw [hmeans.clockRate, hclockRate]⟩

/-- What an offer adds to its last stream means no codec. -/
theorem mapped_append_iff {attributes : List Attribute} {direction : Direction} {c : Codec} :
    Mapped (attributes ++ lastAttributes direction) c ↔ Mapped attributes c := by
  have hlast : ∀ value, ⟨"rtpmap", value⟩ ∉ lastAttributes direction := by
    intro value hmem
    have hnames : "rtpmap" ∈ (lastAttributes direction).map Attribute.name :=
      List.mem_map_of_mem (f := Attribute.name) hmem
    revert hnames
    cases direction <;> decide
  constructor
  · rintro ⟨value, m, hmem, hrest⟩
    rcases List.mem_append.mp hmem with hmem | hmem
    · exact ⟨value, m, hmem, hrest⟩
    · exact absurd hmem (hlast _)
  · rintro ⟨value, m, hmem, hrest⟩
    exact ⟨value, m, List.mem_append_left _ hmem, hrest⟩

end Codec

namespace Negotiator

open Codec

/-- The stream description `m` lists the codecs of the stream, and says what they mean. -/
structure Described (stream : SdpMediaStream) (m : MediaDescription) : Prop where
  mediaFormats : m.mediaFormats = stream.codecs.map fun c => decimal c.payloadType.toNat
  mapped : ∀ c ∈ stream.codecs, Mapped m.attributes c

theorem described_description_iff {stream : SdpMediaStream}
    (hnames : ∀ c ∈ stream.codecs, c.name ≠ "") :
    Described stream stream.description ↔ ∀ c ∈ stream.codecs, c.Known :=
  ⟨fun h => (mapped_iff hnames).mp h.mapped, fun h => ⟨rfl, (mapped_iff hnames).mpr h⟩⟩

theorem described_lastDescription_iff {stream : SdpMediaStream} (direction : Direction) :
    Described stream (lastDescription direction stream) ↔ Described stream stream.description :=
  ⟨fun h => ⟨rfl, fun c hc => mapped_append_iff.mp (h.mapped c hc)⟩,
    fun h => ⟨rfl, fun c hc => mapped_append_iff.mpr (h.mapped c hc)⟩⟩

/-- **The codecs of an offer.** The `rtpmap` attributes of a stream are read back as its codecs
    exactly when each of them has the name, the payload type and the clock rate of a codec of the
    crate. -/
theorem createOffer_described_iff {n : Negotiator} {params : SdpOfferParams}
    {sessionId sessionVersion : UInt64} {offer : SessionDescription}
    (h : n.createOffer params sessionId sessionVersion = .ok offer)
    (hnames : ∀ stream ∈ params.mediaStreams, ∀ c ∈ stream.codecs, c.name ≠ "") :
    List.Forall₂ (fun stream m => Described stream m ↔ ∀ c ∈ stream.codecs, c.Known)
      params.mediaStreams offer.media := by
  obtain ⟨-, ⟨hstreams, hmedia⟩ | ⟨streams, stream, hstreams, hmedia⟩⟩ := createOffer_ok h
  · rw [hstreams, hmedia]
    exact .nil
  · rw [hstreams] at hnames ⊢
    rw [hmedia]
    refine List.rel_append ?_ (.cons ?_ .nil)
    · rw [List.forall₂_map_right_iff, List.forall₂_same]
      intro own hown
      exact described_description_iff (hnames own (List.mem_append_left _ hown))
    · rw [described_lastDescription_iff]
      exact described_description_iff
        (hnames stream (List.mem_append_right _ (List.mem_singleton_self _)))

theorem createOffer_described_iff_asking :
    ∃ offer m, new.createOffer (asking .sendRecv [[.opus, .ulaw]]) 1 1 = .ok offer ∧
      offer.media = [m] ∧ m.mediaFormats = ["96", "0"] ∧ Mapped m.attributes .opus := by
  have hoffer : ∃ offer, new.createOffer (asking .sendRecv [[.opus, .ulaw]]) 1 1 = .ok offer :=
    ⟨_, rfl⟩
  obtain ⟨offer, hoffer⟩ := hoffer
  have hstreams := createOffer_described_iff hoffer (by decide)
  obtain ⟨m, rest, hstream, hrest, hmedia⟩ := List.forall₂_cons_left_iff.mp hstreams
  obtain rfl := List.forall₂_nil_left_iff.mp hrest
  have hdescribed := hstream.mpr (by decide)
  exact ⟨offer, m, hoffer, hmedia, hdescribed.mediaFormats.trans (by decide),
    hdescribed.mapped _ List.mem_cons_self⟩

/-- A codec of its own: the slash in front of its name keeps the name from being read. -/
theorem not_described_asking :
    let stream : SdpMediaStream :=
      { transport := .rtpAvp, mediaType := .audio, codecs := [⟨"G722", 8000, 9, 1⟩], port := 4000 }
    ∃ offer m,
      new.createOffer ⟨.v4 ⟨127, 0, 0, 1⟩, .sendRecv, [stream]⟩ 1 1 = .ok offer ∧
        offer.media = [m] ∧ ¬ Described stream m := by
  refine ⟨_, _, rfl, rfl, fun hdescribed => ?_⟩
  have hdescription := (described_lastDescription_iff .sendRecv).mp hdescribed
  exact absurd ((described_description_iff (by decide)).mp hdescription) (by decide)

end Negotiator

end Rssip.Media
