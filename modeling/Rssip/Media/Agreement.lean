import Rssip.Media.Matching
import Rssip.Media.Rtpmap
import Rssip.Media.SdpOwnLines

namespace Rssip.Media

open Lib

/-!
# Agreement about the media

An offer and its answer as texts: each side reads the text of the other one.

* `parse_encode_legible_iff` — a description is read back when each of its streams has a format;
* `SdpOfferParams.Plain` — streams whose texts fit their lines;
* `Agrees` — a stream that can answer an offered one, with a format in common;
* `createAnswer_parse_iff` — an answer is made, and read, exactly when the streams agree;
* `processAnswer_answered` — the side that offers then accepts it.
-/

/-! ### Descriptions whose streams may have no formats -/

/-- A media description that is well-formed if it has a format. -/
structure MediaDescription.Legible (m : MediaDescription) : Prop where
  mediaType : m.mediaType ≠ .application
  numberOfPorts : m.numberOfPorts = none
  formats : ∀ fmt ∈ m.mediaFormats, Token fmt
  title : m.title = none
  connectionInformation : ∀ c ∈ m.connectionInformation, c.WellFormed
  bandwidthInformation : m.bandwidthInformation = []
  attributes : ∀ a ∈ m.attributes, a.WellFormed

/-- A description without bandwidths that is well-formed if each of its streams has a format. -/
structure SessionDescription.Legible (s : SessionDescription) : Prop where
  session : { s with media := [] }.WellFormed
  bandwidthInformation : s.bandwidthInformation = []
  media : ∀ m ∈ s.media, m.Legible

/-- A legible media description with a format is read back. -/
theorem MediaDescription.Legible.wellFormed {m : MediaDescription} (h : m.Legible)
    (hformats : m.mediaFormats ≠ []) : m.WellFormed :=
  { h with mediaFormats := hformats }

/-- A legible description whose streams have formats is read back. -/
theorem SessionDescription.Legible.wellFormed {s : SessionDescription} (h : s.Legible)
    (hformats : ∀ m ∈ s.media, m.mediaFormats ≠ []) : s.WellFormed :=
  { h.session with media := fun m hm => (h.media m hm).wellFormed (hformats m hm) }

/-- An empty list prints nothing. -/
theorem texts_nil {α : Type} (toText : α → String) : texts toText [] = "" := rfl

/-- Two lists are printed one after the other. -/
theorem texts_append {α : Type} (toText : α → String) (as as' : List α) :
    texts toText (as ++ as') = texts toText as ++ texts toText as' := by
  induction as with
  | nil => simp [texts]
  | cons a as ih =>
    show toText a ++ texts toText (as ++ as') = toText a ++ texts toText as ++ _
    rw [ih, String.append_assoc]

namespace SdpParser

/-- No transport has a line end in its name. -/
theorem sdpTransport_eq_none {bytes : Bytes} (h : 13 ∈ bytes) : sdpTransport bytes = none := by
  have hne : ∀ name : String, 13 ∉ asBytes name → bytes ≠ asBytes name := by
    rintro name hname rfl
    exact hname h
  unfold sdpTransport
  rw [if_neg (not_or.mpr ⟨hne _ (by decide), hne _ (by decide)⟩), if_neg (hne _ (by decide)),
    if_neg (hne _ (by decide)), if_neg (hne _ (by decide)), if_neg (hne _ (by decide))]

/-- **A media description without formats** is not read: the line end, and more, is taken for a
    part of the transport. -/
theorem fails_parseMediaDescription {m : MediaDescription} (h : m.Legible)
    (hformats : m.mediaFormats = []) (rest : Bytes) :
    Fails parseMediaDescription (asBytes m.head ++ 13 :: rest) := by
  have htext : asBytes m.head ++ 13 :: rest = asBytes m.mediaType.toText ++ ([32] ++
      (asBytes (decimal m.port.toNat) ++ ([32] ++ (asBytes m.proto.toText ++ 13 :: rest)))) := by
    simp [MediaDescription.head, h.numberOfPorts, hformats, asBytes_blank, texts]
  have hproto : ∀ b ∈ asBytes m.proto.toText, (!isSpace b) = true := by
    simpa using (solid_sdpTransport m.proto).2
  -- all up to the next blank is read as the transport
  let bytes := asBytes m.proto.toText ++ 13 :: rest
  have hscan : Reads (modifyGet (Scanner.scanWhile fun b => !isSpace b) : Parse Bytes)
      (bytes.takeWhile fun b => !isSpace b) (bytes.dropWhile fun b => !isSpace b)
      (bytes.takeWhile fun b => !isSpace b) :=
    reads_scanWhile (fun _ => of_mem_takeWhile) (stops_dropWhile _ _)
  have hmem : 13 ∈ bytes.takeWhile fun b => !isSpace b := by
    show 13 ∈ (asBytes m.proto.toText ++ 13 :: rest).takeWhile fun b => !isSpace b
    rw [List.takeWhile_append_of_pos hproto, List.takeWhile_cons_of_pos (by decide)]
    simp
  have hread : asBytes m.proto.toText ++ 13 :: rest =
      (bytes.takeWhile fun b => !isSpace b) ++ bytes.dropWhile fun b => !isSpace b :=
    List.takeWhile_append_dropWhile.symm
  rw [htext, hread]
  apply Fails.reads_bind (reads_readToken (token_mediaType _) (stops_cons.mpr (by decide)))
  rw [mediaType_toText h.mediaType]
  apply Fails.nil_bind (Reads.pure _ _)
  apply Fails.reads_bind (reads_blank (by simpa using (solid_decimal _).stops _))
  apply Fails.reads_bind (reads_ofScan (Scan.reads_scanU16 (stops_cons.mpr rfl)))
  rw [← hread]
  apply Fails.reads_bind (reads_blank (by simpa using (solid_sdpTransport _).stops _))
  rw [hread]
  apply Fails.reads_bind hscan
  rw [sdpTransport_eq_none hmem]
  apply Fails.bind
  exact fun s _ => ⟨_, s, rfl⟩

/-- A media line without formats is not read: something has to stand behind the transport. -/
theorem fails_parseLine_formatless {m : MediaDescription} (h : m.Legible)
    (hformats : m.mediaFormats = []) (sdp : SessionDescription) (rest : Bytes) :
    Fails (parseLine sdp) ([109, 61] ++ (asBytes m.head ++ 13 :: rest)) := by
  apply Fails.get_bind
  intro s hs
  rw [isEof_eq_false hs]
  apply Fails.reads_bind reads_readField
  apply Fails.bind
  exact Fails.bind (fails_parseMediaDescription h hformats rest)

/-- The parser gets to the first stream without formats, and no further. -/
theorem parse_encode_formatless {s : SessionDescription} (h : s.Legible) (localIp : IpAddr)
    (hformatless : ∃ m ∈ s.media, m.mediaFormats = []) :
    ∃ failure, parse localIp s.encode = .error failure := by
  obtain ⟨m, hfind⟩ : ∃ m, s.media.find? (fun m => m.mediaFormats.isEmpty) = some m := by
    obtain ⟨m, hm, hformats⟩ := hformatless
    exact Option.isSome_iff_exists.mp (List.find?_isSome.mpr ⟨m, hm, by simp [hformats]⟩)
  obtain ⟨hempty, before, after, hmedia, hbefore⟩ := List.find?_eq_some_iff_append.mp hfind
  have hformats : m.mediaFormats = [] := by simpa using hempty
  have hlegible : m.Legible := h.media m (by simp [hmedia])
  -- the description up to that stream is read
  let s' : SessionDescription := { s with media := before }
  have hreadable : s'.Readable := by
    have hwf : s'.WellFormed :=
      { h.session with
        media := fun m hm => (h.media m (by simp [hmedia, show m ∈ before from hm])).wellFormed
          (by simpa using hbefore m hm) }
    exact hwf.readable
  have hbuilds : Builds (headText s' ++ tailText s') (SessionDescription.default localIp) s' :=
    (builds_head hreadable localIp).append (builds_tail hreadable h.bandwidthInformation)
  obtain ⟨text, htext⟩ : ∃ text, s.encode =
      asBytes (headText s' ++ tailText s') ++ ([109, 61] ++ (asBytes m.head ++ 13 :: text)) := by
    refine ⟨10 :: asBytes (lineOf "t" id m.title ++ (lineOf "c" ConnectionInformation.toText
      m.connectionInformation ++ (texts (fun b => line "b" b.toText) m.bandwidthInformation ++
        (texts (fun a => line "a" a.toText) m.attributes ++
          texts MediaDescription.toText after)))), ?_⟩
    have hm : asBytes "m=" = [109, 61] := by decide
    have hend : asBytes "\r\n" = [13, 10] := by decide
    have hmedias : texts MediaDescription.toText s.media =
        texts MediaDescription.toText before ++
          (m.toText ++ texts MediaDescription.toText after) := by
      rw [hmedia, texts_append]
      rfl
    simp [SessionDescription.encode, toText_eq, tailText, hmedias, h.bandwidthInformation,
      MediaDescription.toText, line, hm, hend, s', texts_nil]
    rfl
  have hsteps := hbuilds.steps ([109, 61] ++ (asBytes m.head ++ 13 :: text))
    (stops_cons.mpr (by decide))
  obtain ⟨fuel, hrun⟩ :=
    hsteps.run_loop Failure.stuck (s := Scanner.new s.encode) htext
  have hfails : Fails (loopN Failure.stuck parseLine (fuel + 1) s')
      ([109, 61] ++ (asBytes m.head ++ 13 :: text)) :=
    (fails_parseLine_formatless hlegible hformats s' text).loopN (fuel + 1)
  obtain ⟨failure, s₁, herror⟩ := hfails _ (remaining_advance (s := Scanner.new s.encode) htext)
  refine ⟨failure, ?_⟩
  rw [parse, parseSdp, hrun, herror]

/-- **When a description is read back**: each of its streams has a format. -/
theorem parse_encode_legible_iff {s s' : SessionDescription} (h : s.Legible) (localIp : IpAddr) :
    parse localIp s.encode = .ok s' ↔ s' = s ∧ ∀ m ∈ s.media, m.mediaFormats ≠ [] := by
  by_cases hformats : ∀ m ∈ s.media, m.mediaFormats ≠ []
  · rw [parse_encode (h.wellFormed hformats) localIp h.bandwidthInformation, Except.ok.injEq]
    exact ⟨fun heq => ⟨heq.symm, hformats⟩, fun heq => heq.1.symm⟩
  · obtain ⟨failure, herror⟩ := parse_encode_formatless h localIp (by simpa using hformats)
    rw [herror]
    exact iff_of_false (by simp) fun heq => hformats heq.2

end SdpParser

/-! ### The text of an offer -/

/-- A stream whose texts fit their lines, and that is not rejected. -/
structure SdpMediaStream.Plain (stream : SdpMediaStream) : Prop where
  mediaType : stream.mediaType ≠ .application
  port : stream.port ≠ 0
  names : ∀ c ∈ stream.codecs, OneLine c.name

/-- All streams are plain. -/
def SdpOfferParams.Plain (params : SdpOfferParams) : Prop :=
  ∀ stream ∈ params.mediaStreams, stream.Plain

/-- The media description of a stream in an offer. -/
structure OfferedAs (stream : SdpMediaStream) (m : MediaDescription) : Prop where
  mediaType : m.mediaType = stream.mediaType
  proto : m.proto = stream.transport
  port : m.port = stream.port
  accepted : m.port ≠ 0
  mediaFormats : m.mediaFormats = stream.codecs.map fun c => decimal c.payloadType.toNat
  legible : m.Legible

/-- Two texts without line ends make one without. -/
theorem OneLine.append {s t : String} (hs : OneLine s) (ht : OneLine t) : OneLine (s ++ t) := by
  simpa only [OneLine, asBytes_append] using List.forall_mem_append.mpr ⟨hs, ht⟩

/-- The attributes of a codec are read back, if its name has no line end. -/
theorem Codec.wellFormed_attributes {c : Codec} (h : OneLine c.name) :
    ∀ a ∈ c.attributes, a.WellFormed := by
  rcases c.attributes_cases with ⟨b, hb, hattributes⟩ | hattributes
  · have hall : ∀ b ∈ builtin, ∀ a ∈ b.attributes, Token a.name ∧ ∀ v ∈ a.value, OneLine v := by
      decide +kernel
    rw [hattributes]
    exact fun a ha => ⟨(hall b hb a ha).1, (hall b hb a ha).2⟩
  · have hdecimal : ∀ n, OneLine (decimal n) := fun n =>
      SdpParser.oneLine_token (SdpParser.token_decimal n)
    have hslash : OneLine "/" := by decide
    have hname : Token "rtpmap" := by decide
    have hvalue : OneLine c.rtpmapValue :=
      (((((hdecimal _).append hslash).append h).append hslash).append
        (hdecimal _)).append hslash |>.append (hdecimal _) |>.append hslash
    rw [hattributes]
    exact List.forall_mem_singleton.mpr ⟨hname, by simpa using hvalue⟩

/-- The attributes that the last stream of an offer gets in addition are read back. -/
theorem wellFormed_lastAttributes (direction : Direction) :
    ∀ a ∈ lastAttributes direction, a.WellFormed := by
  have hall : ∀ a ∈ lastAttributes direction, Token a.name ∧ ∀ v ∈ a.value, OneLine v := by
    cases direction <;> decide
  exact fun a ha => ⟨(hall a ha).1, (hall a ha).2⟩

/-- The media description of a plain stream is legible. -/
theorem SdpMediaStream.Plain.legible {stream : SdpMediaStream} (h : stream.Plain) :
    stream.description.Legible where
  mediaType := h.mediaType
  numberOfPorts := rfl
  formats := List.forall_mem_map.mpr fun _ _ => SdpParser.token_decimal _
  title := rfl
  connectionInformation := fun _ hc => absurd hc (Option.not_mem_none _)
  bandwidthInformation := rfl
  attributes := List.forall_mem_flatMap.mpr fun c hc => Codec.wellFormed_attributes (h.names c hc)

namespace Negotiator

/-- The media description that a stream is turned into is one of the stream in an offer. -/
theorem offeredAs_description {stream : SdpMediaStream} (h : stream.Plain) :
    OfferedAs stream stream.description :=
  ⟨rfl, rfl, rfl, h.port, rfl, h.legible⟩

/-- So is that of the last stream, which gets some attributes more. -/
theorem offeredAs_lastDescription {stream : SdpMediaStream} (h : stream.Plain)
    (direction : Direction) : OfferedAs stream (lastDescription direction stream) := by
  refine ⟨rfl, rfl, rfl, h.port, rfl, { h.legible with attributes := ?_ }⟩
  exact List.forall_mem_append.mpr ⟨h.legible.attributes, wellFormed_lastAttributes direction⟩

/-- **The streams of an offer.** -/
theorem createOffer_offeredAs {n : Negotiator} {params : SdpOfferParams} (hplain : params.Plain)
    {sessionId sessionVersion : UInt64} {offer : SessionDescription}
    (h : n.createOffer params sessionId sessionVersion = .ok offer) :
    List.Forall₂ OfferedAs params.mediaStreams offer.media := by
  unfold SdpOfferParams.Plain at hplain
  obtain ⟨-, ⟨hstreams, hmedia⟩ | ⟨streams, stream, hstreams, hmedia⟩⟩ := createOffer_ok h
  · rw [hstreams, hmedia]
    exact .nil
  · rw [hstreams, List.forall_mem_append, List.forall_mem_singleton] at hplain
    rw [hstreams, hmedia]
    refine List.rel_append ?_ (.cons (offeredAs_lastDescription hplain.2 _) .nil)
    rw [List.forall₂_map_right_iff, List.forall₂_same]
    exact fun own hown => offeredAs_description (hplain.1 own hown)

/-- The media of an offer of plain streams are legible. -/
theorem legible_of_offeredAs {streams : List SdpMediaStream} {medias : List MediaDescription}
    (h : List.Forall₂ OfferedAs streams medias) : ∀ m ∈ medias, m.Legible := by
  induction h with
  | nil => exact List.forall_mem_nil _
  | cons h _ ih => exact List.forall_mem_cons.mpr ⟨h.legible, ih⟩

/-- An offer of plain streams is legible. -/
theorem legible_createOffer {n : Negotiator} {params : SdpOfferParams} (hplain : params.Plain)
    {sessionId sessionVersion : UInt64} {offer : SessionDescription}
    (h : n.createOffer params sessionId sessionVersion = .ok offer) : offer.Legible := by
  have hstreams := createOffer_offeredAs hplain h
  unfold createOffer at h
  split at h
  · obtain rfl := Except.ok.inj h
    have hdash : ∀ b ∈ asBytes "-", SdpParser.isAsciiWhitespace b = false := by decide
    have hname : OneLine "-" := by decide
    refine ⟨?_, rfl, legible_of_offeredAs hstreams⟩
    · constructor
      case origin => exact ⟨hdash, trivial⟩
      case sessionName => exact hname
      case connectionInformation =>
        intro c hc
        obtain rfl := Option.some.inj hc
        rfl
      case time => exact List.forall_mem_singleton.mpr (List.forall_mem_nil _)
      case attributes => exact List.forall_mem_nil _
      all_goals simp
  · cases h

/-! ### The text of an answer -/

/-- The own stream answers the offered one, with a payload type in common. -/
structure Agrees (own offered : SdpMediaStream) : Prop where
  mediaType : own.mediaType = offered.mediaType
  transport : own.transport = offered.transport
  /-- The answer panics at a dynamic payload type. -/
  static : ∀ c ∈ own.codecs, c.payloadType < 96
  common : ∃ c ∈ own.codecs, c.payloadType ∈ offered.codecs.map Codec.payloadType

/-- A payload type is read back from its format. -/
theorem parseU8_decimal (payloadType : UInt8) :
    parseU8 (decimal payloadType.toNat) = .ok payloadType.toNat := by
  have hall : ∀ n < 256, parseU8 (decimal n) = .ok n := by decide +kernel
  exact hall _ payloadType.toNat_lt

/-- The formats of an offer are gone through when no payload type is dynamic. -/
theorem okIff_answerFormats_codecs (remoteFormats : List String) (codecs : List Codec) :
    OkIff (∀ c ∈ codecs, c.payloadType < 96)
      (answerFormats remoteFormats (codecs.map fun c => decimal c.payloadType.toNat)) := by
  induction codecs with
  | nil => exact .inl ⟨List.forall_mem_nil _, [], rfl⟩
  | cons c codecs ih =>
    rw [List.forall_mem_cons, List.map_cons, answerFormats, parseU8_decimal]
    dsimp only
    by_cases hlt : c.payloadType.toNat < 96
    · rw [if_pos hlt, and_iff_right (UInt8.lt_iff_toNat_lt.mpr hlt)]
      exact (ih.bind fun _ => .of_ok ⟨_, rfl⟩).congr (and_iff_left trivial)
    · rw [if_neg hlt]
      exact .inr ⟨fun hall => hlt (UInt8.lt_iff_toNat_lt.mp hall.1), _, rfl⟩

section

variable {own offered : SdpMediaStream} {l r m : MediaDescription}

/-- A payload type is among the formats of an offered stream exactly if it is one of a codec. -/
theorem mem_formats_iff (h : OfferedAs own m) {payloadType : UInt8} :
    decimal payloadType.toNat ∈ m.mediaFormats ↔
      payloadType ∈ own.codecs.map Codec.payloadType := by
  simp [h.mediaFormats, decimal_injective.eq_iff, UInt8.toNat_inj]

/-- There is a common format in the answer. -/
theorem Adds.formats_ne_nil_iff (hown : OfferedAs own l) (hoffered : OfferedAs offered r)
    {direction : Option String} {formats : List String} (h : Adds l r m direction formats) :
    m.mediaFormats ≠ [] ↔
      ∃ c ∈ own.codecs, c.payloadType ∈ offered.codecs.map Codec.payloadType := by
  rw [h.stream.mediaFormats, ne_eq, List.filter_eq_nil_iff, hown.mediaFormats]
  simp [-List.mem_map, List.forall_mem_map, mem_formats_iff hoffered]

/-- **One pass of the loop** adds a stream with a format exactly for a pair that agrees. -/
theorem agrees_iff (hown : OfferedAs own l) (hoffered : OfferedAs offered r) :
    Agrees own offered ↔ ∃ m, answerMedia l r = .ok (some m) ∧ m.mediaFormats ≠ [] := by
  constructor
  · intro h
    have htype : l.mediaType = r.mediaType := by
      rw [hown.mediaType, hoffered.mediaType, h.mediaType]
    have hproto : l.proto = r.proto := by rw [hown.proto, hoffered.proto, h.transport]
    have hport : ¬ (r.port = 0 ∨ l.port = 0) := not_or.mpr ⟨hoffered.accepted, hown.accepted⟩
    obtain ⟨direction, hdirection⟩ :=
      ((okIff_answerDir r.attributes (directionOf l.attributes)).resolve_right (by simp)).2
    have hok := okIff_answerFormats_codecs r.mediaFormats own.codecs
    rw [← hown.mediaFormats] at hok
    obtain ⟨formats, hformats⟩ := (hok.resolve_right fun hnot => hnot.1 h.static).2
    let m : MediaDescription :=
      { l with mediaFormats := formats, attributes := answerAttributes l.attributes direction }
    have hadds : Adds l r m direction formats :=
      ⟨⟨hown.accepted, hoffered.accepted⟩, htype, hproto, hdirection, hformats, rfl⟩
    refine ⟨m, ?_, (hadds.formats_ne_nil_iff hown hoffered).mpr h.common⟩
    rw [answerMedia, if_neg (not_not_intro htype), if_neg (not_not_intro hproto), if_neg hport,
      hdirection]
    show (answerFormats r.mediaFormats l.mediaFormats >>= fun formats => _) = _
    rw [hformats]
    rfl
  · rintro ⟨m, hm, hne⟩
    rcases answerMedia_ok hm with ⟨hnone, -⟩ | ⟨m', direction, formats, hsome, hadds⟩
    · cases hnone
    · obtain rfl := Option.some.inj hsome
      have hok := okIff_answerFormats_codecs r.mediaFormats own.codecs
      rw [← hown.mediaFormats, hadds.answerFormats] at hok
      have hstatic : ∀ c ∈ own.codecs, c.payloadType < 96 :=
        (hok.resolve_right fun ⟨_, p, hp⟩ => by cases hp).1
      refine ⟨?_, ?_, hstatic, (hadds.formats_ne_nil_iff hown hoffered).mp hne⟩
      · rw [← hown.mediaType, ← hoffered.mediaType, hadds.mediaType]
      · rw [← hown.proto, ← hoffered.proto, hadds.proto]

/-- No stream of an offer is skipped. -/
theorem answerMedia_ne_none (hown : OfferedAs own l) (hoffered : OfferedAs offered r) :
    answerMedia l r ≠ .ok none := by
  intro hnone
  rcases answerMedia_ok hnone with ⟨-, hnot⟩ | ⟨m, direction, formats, hsome, -⟩
  · exact hnot ⟨hown.accepted, hoffered.accepted⟩
  · cases hsome

end

/-- **The loop over the pairs.** -/
theorem answerMedias_agrees_iff {owns offereds : List SdpMediaStream}
    {ls rs : List MediaDescription} (hown : List.Forall₂ OfferedAs owns ls)
    (hoffered : List.Forall₂ OfferedAs offereds rs) :
    (∃ medias, answerMedias (ls.zip rs) = .ok medias ∧ ∀ m ∈ medias, m.mediaFormats ≠ []) ↔
      ∀ pair ∈ owns.zip offereds, Agrees pair.1 pair.2 := by
  induction hown generalizing offereds rs with
  | nil => exact iff_of_true ⟨[], rfl, List.forall_mem_nil _⟩ (List.forall_mem_nil _)
  | @cons own l owns ls hown _ ih =>
    cases hoffered with
    | nil => exact iff_of_true ⟨[], rfl, List.forall_mem_nil _⟩ (List.forall_mem_nil _)
    | @cons offered r offereds rs hoffered hoffereds =>
      rw [List.zip_cons_cons, List.zip_cons_cons, List.forall_mem_cons, ← ih hoffereds,
        agrees_iff hown hoffered, answerMedias]
      constructor
      · rintro ⟨medias, hmedias, hformats⟩
        obtain ⟨media, hmedia, hmedias⟩ := except_bind_eq_ok_iff.mp hmedias
        obtain ⟨rest, hrest, hmedias⟩ := except_bind_eq_ok_iff.mp hmedias
        obtain rfl := Except.ok.inj hmedias
        cases media with
        | none => exact absurd hmedia (answerMedia_ne_none hown hoffered)
        | some m =>
          obtain ⟨hm, hrests⟩ := List.forall_mem_cons.mp hformats
          exact ⟨⟨m, hmedia, hm⟩, rest, hrest, hrests⟩
      · rintro ⟨⟨m, hmedia, hm⟩, rest, hrest, hrests⟩
        refine ⟨m :: rest, ?_, List.forall_mem_cons.mpr ⟨hm, hrests⟩⟩
        rw [hmedia]
        show (answerMedias (ls.zip rs) >>= fun rest => _) = _
        rw [hrest]
        rfl

/-- The attributes of an answer are read back if those of the own stream are. -/
theorem wellFormed_answerAttributes {remoteDir localDir direction : Option String}
    (hdirection : answerDir remoteDir localDir = .ok direction) {attributes : List Attribute}
    (h : ∀ a ∈ attributes, a.WellFormed) :
    ∀ a ∈ answerAttributes attributes direction, a.WellFormed := by
  cases direction with
  | none => exact h
  | some direction =>
    have hmem : direction ∈ ["recvonly", "sendrecv", "sendonly", "inactive"] :=
      of_decide_eq_true (isDirection_of_answerDir hdirection none)
    have htoken : ∀ name ∈ ["recvonly", "sendrecv", "sendonly", "inactive"], Token name := by decide
    refine List.forall_mem_append.mpr ⟨fun a ha => h a (List.mem_filter.mp ha).1, ?_⟩
    exact List.forall_mem_singleton.mpr ⟨htoken direction hmem, by simp⟩

/-- A stream of an answer is legible if the own stream is. -/
theorem Adds.legible {l r m : MediaDescription} {direction : Option String} {formats : List String}
    (h : Adds l r m direction formats) (hl : l.Legible) : m.Legible := by
  obtain ⟨-, -, -, hdirection, hformats, rfl⟩ := h
  refine { hl with
    formats := ?_
    attributes := wellFormed_answerAttributes hdirection hl.attributes }
  rw [answerFormats_ok hformats]
  exact fun fmt hfmt => hl.formats fmt (List.mem_filter.mp hfmt).1

/-- All streams of an answer are legible if the own ones are. -/
theorem legible_of_adds {pairs : List (MediaDescription × MediaDescription)}
    {medias : List MediaDescription}
    (h : List.Forall₂ (fun pair m => ∃ direction formats, Adds pair.1 pair.2 m direction formats)
      pairs medias) (hl : ∀ pair ∈ pairs, pair.1.Legible) : ∀ m ∈ medias, m.Legible := by
  induction h with
  | nil => exact List.forall_mem_nil _
  | cons hadds _ ih =>
    obtain ⟨direction, formats, hadds⟩ := hadds
    obtain ⟨hpair, hpairs⟩ := List.forall_mem_cons.mp hl
    exact List.forall_mem_cons.mpr ⟨hadds.legible hpair, ih hpairs⟩

/-- The description is an offer of the plain streams of `params`. -/
structure Offers (params : SdpOfferParams) (offer : SessionDescription) : Prop where
  legible : offer.Legible
  streams : List.Forall₂ OfferedAs params.mediaStreams offer.media

/-- What is created from plain streams is an offer of them. -/
theorem createOffer_offers {n : Negotiator} {params : SdpOfferParams} (hplain : params.Plain)
    {sessionId sessionVersion : UInt64} {offer : SessionDescription}
    (h : n.createOffer params sessionId sessionVersion = .ok offer) : Offers params offer :=
  ⟨legible_createOffer hplain h, createOffer_offeredAs hplain h⟩

/-- **The text of an offer** is read back exactly when each of its streams has a codec. -/
theorem Offers.parse_iff {params : SdpOfferParams} {offer sdp : SessionDescription}
    (h : Offers params offer) (localIp : IpAddr) :
    SdpParser.parse localIp offer.encode = .ok sdp ↔
      sdp = offer ∧ ∀ stream ∈ params.mediaStreams, stream.codecs ≠ [] := by
  rw [SdpParser.parse_encode_legible_iff h.legible]
  refine and_congr_right fun _ => ?_
  have hstreams := h.streams
  generalize params.mediaStreams = streams, offer.media = medias at hstreams
  induction hstreams with
  | nil => exact iff_of_true (List.forall_mem_nil _) (List.forall_mem_nil _)
  | cons h _ ih => simp [ih, h.mediaFormats]

section

variable {own offered : SdpOfferParams} {l r answer : SessionDescription} {n : Negotiator}

/-- An answer has, for each pair of streams, the one that the pair adds. -/
theorem answer_streams (hl : Offers own l) (hr : Offers offered r) (hlocal : n.localOffer = some l)
    (hremote : n.remoteOffer = some r) (h : n.createAnswer.1 = .ok answer) :
    List.Forall₂ (fun pair m => ∃ direction formats, Adds pair.1 pair.2 m direction formats)
      (l.media.zip r.media) answer.media := by
  have hports : ∀ {streams : List SdpMediaStream} {medias : List MediaDescription},
      List.Forall₂ OfferedAs streams medias → ∀ m ∈ medias, m.port ≠ 0 := by
    intro streams medias hstreams
    induction hstreams with
    | nil => exact List.forall_mem_nil _
    | cons h _ ih => exact List.forall_mem_cons.mpr ⟨h.accepted, ih⟩
  have hall : (l.media.zip r.media).filter Accepted = l.media.zip r.media := by
    refine List.filter_eq_self.mpr fun pair hpair => decide_eq_true ?_
    obtain ⟨hmeml, hmemr⟩ := List.of_mem_zip (a := pair.1) (b := pair.2) hpair
    exact ⟨hports hl.streams _ hmeml, hports hr.streams _ hmemr⟩
  rw [← hall]
  exact answerMedias_ok (createAnswer_ok hlocal hremote h)

/-- An answer to an offer of plain streams, by one with plain streams, is legible. -/
theorem legible_createAnswer (hl : Offers own l) (hr : Offers offered r)
    (hlocal : n.localOffer = some l) (hremote : n.remoteOffer = some r)
    (h : n.createAnswer.1 = .ok answer) : answer.Legible := by
  have hmedia : ∀ m ∈ answer.media, m.Legible := by
    refine legible_of_adds (answer_streams hl hr hlocal hremote h) fun pair hpair => ?_
    exact hl.legible.media _ (List.of_mem_zip (a := pair.1) (b := pair.2) hpair).1
  rw [createAnswer_session hlocal hremote h]
  exact ⟨{ hl.legible.session with time := hr.legible.session.time },
    hl.legible.bandwidthInformation, hmedia⟩

/-- **The text of an answer.** It is made, and read back, exactly when the streams agree. -/
theorem createAnswer_parse_iff (hl : Offers own l) (hr : Offers offered r)
    (hstate : n.state = .ready) (hlocal : n.localOffer = some l) (hremote : n.remoteOffer = some r)
    (localIp : IpAddr) :
    (∃ answer, n.createAnswer.1 = .ok answer ∧
        SdpParser.parse localIp answer.encode = .ok answer) ↔
      ∀ pair ∈ own.mediaStreams.zip offered.mediaStreams, Agrees pair.1 pair.2 := by
  rw [← answerMedias_agrees_iff hl.streams hr.streams]
  constructor
  · rintro ⟨answer, hanswer, hparse⟩
    have hlegible := legible_createAnswer hl hr hlocal hremote hanswer
    refine ⟨answer.media, createAnswer_ok hlocal hremote hanswer, ?_⟩
    exact ((SdpParser.parse_encode_legible_iff hlegible localIp).mp hparse).2
  · rintro ⟨medias, hmedias, hformats⟩
    have hanswer : n.createAnswer.1 = .ok { l with media := medias, time := r.time } := by
      rw [createAnswer, if_neg (not_not_intro hstate), hremote, hlocal]
      dsimp only
      rw [hmedias]
    have hlegible := legible_createAnswer hl hr hlocal hremote hanswer
    exact ⟨_, hanswer, (SdpParser.parse_encode_legible_iff hlegible localIp).mpr ⟨rfl, hformats⟩⟩

/-- Each stream of an answer is of the kind of the offered one. -/
theorem sameKind_of_adds {ls rs medias : List MediaDescription}
    (h : List.Forall₂ (fun pair m => ∃ direction formats, Adds pair.1 pair.2 m direction formats)
      (ls.zip rs) medias) : ∀ pair ∈ rs.zip medias, SameKind pair := by
  induction ls generalizing rs medias with
  | nil =>
    obtain rfl := List.forall₂_nil_left_iff.mp h
    simp
  | cons l ls ih =>
    cases rs with
    | nil => simp
    | cons r rs =>
      obtain ⟨m, rest, ⟨direction, formats, hadds⟩, hrest, rfl⟩ := List.forall₂_cons_left_iff.mp h
      refine List.forall_mem_cons.mpr ⟨?_, ih hrest⟩
      rw [SameKind, hadds.eq]
      exact ⟨hadds.mediaType.symm, hadds.proto.symm⟩

/-- The stream `m` of an answer is the own one, with the codecs in common. -/
structure Answered (own offered : SdpMediaStream) (m : MediaDescription) : Prop where
  mediaType : m.mediaType = own.mediaType
  proto : m.proto = own.transport
  port : m.port = own.port
  mediaFormats : m.mediaFormats =
    (own.codecs.filter fun c => c.payloadType ∈ offered.codecs.map Codec.payloadType).map
      fun c => decimal c.payloadType.toNat

/-- A stream that a pair adds to an answer is the own one with the codecs in common. -/
theorem Adds.answered {own offered : SdpMediaStream} {l r m : MediaDescription}
    {direction : Option String} {formats : List String} (hown : OfferedAs own l)
    (hoffered : OfferedAs offered r) (h : Adds l r m direction formats) :
    Answered own offered m := by
  refine ⟨h.stream.mediaType.trans hown.mediaType, h.stream.proto.trans hown.proto,
    h.stream.port.trans hown.port, ?_⟩
  rw [h.stream.mediaFormats, hown.mediaFormats, List.filter_map]
  simp [-List.mem_map, Function.comp_def, mem_formats_iff hoffered]

/-- The same for all pairs of streams. -/
theorem answered_of_adds {owns offereds : List SdpMediaStream}
    {ls rs medias : List MediaDescription} (hown : List.Forall₂ OfferedAs owns ls)
    (hoffered : List.Forall₂ OfferedAs offereds rs)
    (h : List.Forall₂ (fun pair m => ∃ direction formats, Adds pair.1 pair.2 m direction formats)
      (ls.zip rs) medias) :
    List.Forall₂ (fun pair m => Answered pair.1 pair.2 m) (owns.zip offereds) medias := by
  induction hown generalizing offereds rs medias with
  | nil =>
    obtain rfl := List.forall₂_nil_left_iff.mp h
    exact .nil
  | cons hown _ ih =>
    cases hoffered with
    | nil =>
      obtain rfl := List.forall₂_nil_left_iff.mp h
      exact .nil
    | cons hoffered hoffereds =>
      obtain ⟨m, rest, ⟨direction, formats, hadds⟩, hrest, rfl⟩ := List.forall₂_cons_left_iff.mp h
      exact .cons (hadds.answered hown hoffered) (ih hoffereds hrest)

/-- **The side that offers accepts the answer**. -/
theorem processAnswer_answered (hl : Offers own l) (hr : Offers offered r)
    (hlocal : n.localOffer = some l) (hremote : n.remoteOffer = some r)
    (h : n.createAnswer.1 = .ok answer) :
    (withLocal r).processAnswer answer =
      (.ok (), { withLocal r with answer := some answer, state := .done }) := by
  rw [processAnswer_eq rfl rfl, if_pos]
  exact sameKind_of_adds (answer_streams hl hr hlocal hremote h)

end

end Negotiator

end Rssip.Media
