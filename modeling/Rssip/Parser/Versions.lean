import Rssip.Parser.Spelling

namespace Rssip

open Lib

/-!
# Protocol versions

`must_scan_slice` compares what remains with the expected slice pair by pair, and so it does not
notice that the input ends within the slice.

* `scansWhole_iff` — the slice is matched as a whole unless the input ends within it;
* `versionsWhole_iff` — of the parsers of a version, only `parse_sip_version` and
  `parse_request_line` take a part of it at the end of the input;
* `parse_version` — in a message headers follow, so that its version is whole.
-/

/-- The input ends within `expected`. -/
def Scanner.EndsWithin (expected : Bytes) (c : Scanner) : Prop :=
  c.remaining <+: expected ∧ c.remaining ≠ expected

theorem Scanner.EndsWithin.not_prefix {expected : Bytes} {c : Scanner} (h : c.EndsWithin expected) :
    ¬ expected <+: c.remaining := by
  intro hpre
  exact h.2 (h.1.eq_of_length_le hpre.length_le)

namespace SipParser

/-! ### Slices -/

/-- `must_scan_slice` succeeds if `expected` comes next and only then, and consumes exactly that. -/
structure ScansWhole (expected : Bytes) (c : Scanner) : Prop where
  succeeds_iff : (∃ c', Scan.mustScanSlice expected c = .ok () c') ↔ expected <+: c.remaining
  consumes : ∀ c', Scan.mustScanSlice expected c = .ok () c' → c'.index = c.index + expected.length

theorem scansWhole_iff (expected : Bytes) (c : Scanner) :
    ScansWhole expected c ↔ ¬ c.EndsWithin expected := by
  constructor
  · intro h hend
    have hscan : Scan.mustScanSlice expected c = .ok () (Lib.advance c c.remaining) :=
      mustScanSlice_eq_ok_iff.mpr (.inr ⟨hend.1, rfl⟩)
    exact hend.not_prefix (h.succeeds_iff.mp ⟨_, hscan⟩)
  · intro h
    have hwhole : ∀ c', Scan.mustScanSlice expected c = .ok () c' →
        expected <+: c.remaining ∧ c' = Lib.advance c expected := by
      intro c' hscan
      rcases mustScanSlice_eq_ok_iff.mp hscan with hwhole | ⟨hpre, hc'⟩
      · exact hwhole
      · have heq : c.remaining = expected := by_contra fun hne => h ⟨hpre, hne⟩
        rw [heq] at hc'
        exact ⟨heq ▸ List.prefix_refl _, hc'⟩
    refine ⟨⟨fun ⟨c', hscan⟩ => (hwhole c' hscan).1, fun hpre => ?_⟩, fun c' hscan => ?_⟩
    · exact ⟨_, mustScanSlice_eq_ok_iff.mpr (.inl ⟨hpre, rfl⟩)⟩
    · rw [(hwhole c' hscan).2, Scanner.index_advance]

/-! ### Parsers of a version -/

/-- Every parser of a version that succeeds at `c` has a whole version in front of it. -/
structure VersionsWhole (c : Scanner) : Prop where
  version : ∀ c', parseSipVersion c = .ok () c' → asBytes sipV2 <+: c.remaining
  statusLine : ∀ line c', parseStatusLine c = .ok line c' → asBytes sipV2 <+: c.remaining
  via : ∀ via c', Via.parse c = .ok via c' → asBytes sipV2 <+: c.remaining
  /-- The version of a request stands behind its method and its URI. -/
  requestLine : ∀ line c', parseRequestLine c = .ok line c' →
    ∃ line c₁, requestLineStart c = .ok line c₁ ∧ asBytes sipV2 <+: c₁.remaining

theorem parseSipVersion_whole_iff (c : Scanner) :
    (∀ c', parseSipVersion c = .ok () c' → asBytes sipV2 <+: c.remaining) ↔
      ¬ c.EndsWithin (asBytes sipV2) := by
  constructor
  · intro h hend
    exact hend.not_prefix (h _ (parseSipVersion_eq_ok_iff.mpr (.inr ⟨hend.1, rfl⟩)))
  · intro h c' hversion
    rcases parseSipVersion_eq_ok_iff.mp hversion with ⟨hpre, -⟩ | ⟨hpre, -⟩
    · exact hpre
    · have heq : c.remaining = asBytes sipV2 := by_contra fun hne => h ⟨hpre, hne⟩
      exact heq ▸ List.prefix_refl _

/-- Without digits there is no status code. -/
theorem statusLineEnd_nil {c c' : Scanner} {line : StatusLine} (hc : c.remaining = []) :
    statusLineEnd c ≠ .ok line c' := by
  intro h
  obtain ⟨code, c₁, hcode, -⟩ := bind_eq_ok_iff.mp h
  obtain ⟨_, c₂, hskip, hcode⟩ := bind_eq_ok_iff.mp hcode
  obtain ⟨digits, c₃, hdigits, hcode⟩ := bind_eq_ok_iff.mp hcode
  obtain ⟨_, c₄, -, hcode⟩ := bind_eq_ok_iff.mp hcode
  have hc₂ : c₂.remaining = [] := by
    have hsuffix : c₂.remaining <:+ c.remaining := ends_skipWs.suffix hskip
    rwa [hc, List.suffix_nil] at hsuffix
  obtain ⟨hnil, -⟩ := scanWhile_eq_ok_iff.mp hdigits
  rw [hc₂] at hnil
  rw [← hnil] at hcode
  cases hcode

/-- A status line goes on behind its version. -/
theorem parseStatusLine_whole {c c' : Scanner} {line : StatusLine}
    (h : parseStatusLine c = .ok line c') : asBytes sipV2 <+: c.remaining := by
  rw [parseStatusLine_eq] at h
  obtain ⟨_, c₁, hversion, h⟩ := bind_eq_ok_iff.mp h
  obtain ⟨line', c₂, hend, -⟩ := bind_eq_ok_iff.mp h
  rcases remaining_parseSipVersion hversion with hrem | hnil
  · exact ⟨_, hrem.symm⟩
  · exact absurd hend (statusLineEnd_nil hnil)

/-- A `Via` goes on behind its version. -/
theorem via_whole {c c' : Scanner} {via : Via} (h : Via.parse c = .ok via c') :
    asBytes sipV2 <+: c.remaining := by
  obtain ⟨_, c₁, hversion, h⟩ := bind_eq_ok_iff.mp h
  obtain ⟨b, c₂, hadvance, -⟩ := bind_eq_ok_iff.mp h
  have hgives : Gives (parseSipVersion >>= fun _ => advance) c b c₂.remaining :=
    ⟨c₂, bind_eq_ok_iff.mpr ⟨(), c₁, hversion, hadvance⟩, rfl⟩
  rw [gives_version.mp hgives, List.append_assoc]
  exact List.prefix_append _ _

/-- **Which versions are whole.** Versions are cut off only where nothing is read behind them: by
    themselves, and at the end of a request line. -/
theorem versionsWhole_iff (c : Scanner) :
    VersionsWhole c ↔ ¬ c.EndsWithin (asBytes sipV2) ∧
      ∀ line c₁, requestLineStart c = .ok line c₁ → ¬ c₁.EndsWithin (asBytes sipV2) := by
  constructor
  · intro h
    refine ⟨(parseSipVersion_whole_iff c).mp h.version, fun line c₁ hstart hend => ?_⟩
    have hversion := parseSipVersion_eq_ok_iff.mpr (.inr ⟨hend.1, rfl⟩)
    have hline : ∃ c', parseRequestLine c = .ok line c' := by
      rw [parseRequestLine_eq]
      exact ⟨_, bind_eq_ok_iff.mpr ⟨line, c₁, hstart, bind_eq_ok_iff.mpr ⟨(), _, hversion,
        bind_eq_ok_iff.mpr ⟨(), _, skipNewline_eq _, rfl⟩⟩⟩⟩
    obtain ⟨c', hline⟩ := hline
    obtain ⟨line', c₂, hstart', hpre⟩ := h.requestLine line c' hline
    rw [hstart] at hstart'
    injection hstart' with _ hc
    exact hend.not_prefix (hc ▸ hpre)
  · rintro ⟨hversion, hrequest⟩
    refine
      { version := (parseSipVersion_whole_iff c).mpr hversion
        statusLine := fun _ _ => parseStatusLine_whole
        via := fun _ _ => via_whole
        requestLine := fun line c' h => ?_ }
    rw [parseRequestLine_eq] at h
    obtain ⟨line', c₁, hstart, h⟩ := bind_eq_ok_iff.mp h
    obtain ⟨_, c₂, hscan, -⟩ := bind_eq_ok_iff.mp h
    have hwhole := (parseSipVersion_whole_iff c₁).mpr (hrequest line' c₁ hstart)
    exact ⟨line', c₁, hstart, hwhole c₂ hscan⟩

/-- **When slices and versions are matched as a whole**: exactly when the input does not end within
    them. -/
theorem matchesWhole_iff (expected : Bytes) (c : Scanner) :
    ScansWhole expected c ∧ VersionsWhole c ↔
      ¬ c.EndsWithin expected ∧ ¬ c.EndsWithin (asBytes sipV2) ∧
        ∀ line c₁, requestLineStart c = .ok line c₁ → ¬ c₁.EndsWithin (asBytes sipV2) := by
  rw [scansWhole_iff, versionsWhole_iff]

/-- `SIP/2` is taken for `SIP/2.0` at the end of the input, by itself and in a request line. -/
theorem not_matchesWhole_sip2 :
    ¬ ScansWhole (asBytes "SIP/2.0") (Scanner.new (asBytes "SIP/2")) ∧
      ¬ VersionsWhole (Scanner.new (asBytes "INVITE sip:a SIP/2")) := by
  constructor
  · intro h
    have hscan : ∃ c', Scan.mustScanSlice (asBytes "SIP/2.0") (Scanner.new (asBytes "SIP/2")) =
        .ok () c' := ⟨_, rfl⟩
    exact absurd (h.succeeds_iff.mp hscan) (by decide)
  · intro h
    let line : RequestLine :=
      ⟨.invite, { scheme := .sip, user := none, hostPort := ⟨.hostName "a", none⟩ }⟩
    have hline : Gives parseRequestLine (Scanner.new (asBytes "INVITE sip:a SIP/2")) line [] := by
      decide +kernel
    have hstart : Gives requestLineStart (Scanner.new (asBytes "INVITE sip:a SIP/2")) line
        (asBytes "SIP/2") := by
      decide +kernel
    obtain ⟨c', hrun, -⟩ := hline
    obtain ⟨line', c₁, hstart', hpre⟩ := h.requestLine line c' hrun
    have hrem := (hstart.unique ⟨c₁, hstart', rfl⟩).2
    rw [show c₁.remaining = asBytes "SIP/2" from hrem.symm] at hpre
    exact absurd hpre (by decide)

/-! ### Messages -/

/-- **The version of a message is whole**, since headers follow its start line. -/
theorem parse_version {buf : Bytes} {m : SipMessage} (h : parse buf = .ok m) :
    asBytes sipV2 <+: buf ∨ ∃ line c₁, requestLineStart (Scanner.new buf) = .ok line c₁ ∧
      asBytes sipV2 <+: c₁.remaining := by
  obtain ⟨bare, c, texts, c', hstart, hruns, -⟩ := parse_eq_ok h
  have hne := remaining_ne_nil hruns
  have hstart := get_bind_eq_ok_iff.mp hstart
  split at hstart
  · obtain ⟨line, c₁, hline, -⟩ := bind_eq_ok_iff.mp hstart
    exact .inl (parseStatusLine_whole hline)
  · obtain ⟨line, c₁, hline, hbare⟩ := bind_eq_ok_iff.mp hstart
    injection hbare with _ hc
    rw [parseRequestLine_eq] at hline
    obtain ⟨line', c₂, hhead, hline⟩ := bind_eq_ok_iff.mp hline
    obtain ⟨_, c₃, hversion, hline⟩ := bind_eq_ok_iff.mp hline
    obtain ⟨_, c₄, hnewline, hline⟩ := bind_eq_ok_iff.mp hline
    injection hline with _ hc₄
    rw [← hc, ← hc₄] at hne
    rcases remaining_parseSipVersion hversion with hrem | hnil
    · exact .inr ⟨line', c₂, hhead, _, hrem.symm⟩
    · -- nothing would be left for the headers
      have hsuffix : c₄.remaining <:+ c₃.remaining := ends_skipNewline.suffix hnewline
      rw [show c₃.remaining = [] from hnil, List.suffix_nil] at hsuffix
      exact absurd hsuffix hne

end SipParser

end Rssip
