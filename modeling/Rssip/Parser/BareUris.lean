import Rssip.Parser.Contacts

namespace Rssip

open Lib

/-!
# What follows a bare URI

A URI without brackets ends with its host or its port.  Whether it has a user part is decided by a
look for an at sign that goes on behind that end, up to a blank, a line end or a bracket.

* `readsAuthority_parseHostPort` — the bytes of a host and its port;
* `gives_bareUri` — what a URI without brackets is read from;
* `unchanged_iff` — what may follow such a URI without changing it.
-/

namespace SipParser

/-! ### The bytes of a host -/

/-- A parser that reads nothing but bytes of a host and its port. -/
abbrev ReadsAuthority {ε α : Type} (r : EStateM ε Scanner α) : Prop :=
  ReadsOver (fun text : Bytes => ∀ b ∈ text, inAuthority b) r

/-- A parser all whose consumed texts are bytes of an authority reads nothing else. -/
theorem readsAuthority_of_text {ε α : Type} {r : EStateM ε Scanner α}
    (h : ∀ {c a c'}, r c = .ok a c' →
      ∃ text, Cursor.remaining c = text ++ Cursor.remaining c' ∧ ∀ b ∈ text, inAuthority b) :
    ReadsAuthority r :=
  ReadsOver.of_text (fun hx hy => List.forall_mem_append.mpr ⟨hx, hy⟩) h

/-- A parser that fails reads nothing. -/
theorem readsAuthority_error {α : Type} (kind : ParseErrorKind) :
    ReadsAuthority (error kind : Parse α) :=
  fun _ => Yields.get_bind fun _ => Yields.throw _

/-- The bytes of a host name are bytes of an authority. -/
theorem inAuthority_of_isHost {b : UInt8} (hb : isHost b) : inAuthority b := by
  simp [inAuthority, inHostPort, hb]

/-- Digits, hexadecimal ones too, are bytes of an authority. -/
theorem inAuthority_of_hexDigit {b : UInt8} (hb : isDigitOf 16 b ∨ isAsciiDigit b) :
    inAuthority b := inAuthority_of_isHost (isHost_alphanumeric b (mem_alphanumeric hb))

/-- The bytes of an address are bytes of an authority. -/
theorem inAuthority_of_inIpAddr {b : UInt8} (hb : inIpAddr b) : inAuthority b := by
  have hdot : inAuthority 46 ∧ inAuthority 58 := by decide
  simp only [inIpAddr, Bool.or_eq_true, beq_iff_eq] at hb
  rcases hb with (hdigit | rfl) | rfl
  · exact inAuthority_of_hexDigit (.inl hdigit)
  · exact hdot.1
  · exact hdot.2

/-- A port is a colon and digits. -/
theorem readsAuthority_parsePort : ReadsAuthority parsePort := by
  have hcolon : ReadsAuthority (takeIfEq 58) := by
    apply readsAuthority_of_text
    intro c o c' hscan
    rcases gives_scanIfEq.mp ⟨c', hscan, rfl⟩ with ⟨-, hrem⟩ | ⟨-, -, hrem⟩
    · exact ⟨[58], hrem, by decide⟩
    · exact ⟨[], hrem.symm, by simp⟩
  have hscan : ReadsAuthority (orError (ofScan Scan.scanU16) .host) := by
    apply readsAuthority_of_text
    intro c port c' h
    have h := ofScan_eq_ok_iff.mp (orError_eq_ok_iff.mp h)
    obtain ⟨n, -, hn⟩ := gives_map.mp ⟨c', h, rfl⟩
    obtain ⟨-, hrem⟩ := gives_scanUnsigned.mp hn
    refine ⟨c.remaining.takeWhile isAsciiDigit, ?_, fun b hb => ?_⟩
    · rw [hrem]
      exact List.takeWhile_append_dropWhile.symm
    · exact inAuthority_of_hexDigit (.inr (of_mem_takeWhile hb))
  apply ReadsOver.bind hcolon
  intro colon
  apply ReadsOver.ite _ (ReadsOver.pure _)
  apply ReadsOver.bind hscan
  intro port
  exact (ReadsOver.pure _).ite (readsAuthority_error _)

/-- A host is a name, or an address with or without brackets. -/
theorem readsAuthority_parseHost : ReadsAuthority parseHost := by
  apply readsAuthority_of_text
  intro c host c' h
  obtain ⟨next, c₁, hpeek, h⟩ := bind_eq_ok_iff.mp h
  obtain ⟨hnext, hc₁⟩ : c.peek = next ∧ c = c₁ := by
    injection hpeek with hnext hc₁
    exact ⟨hnext, hc₁⟩
  rw [← hc₁, ← hnext] at h
  split at h
  · -- an address in brackets
    rename_i hopen
    obtain ⟨b, c₂, hadvance, h⟩ := bind_eq_ok_iff.mp h
    have hb := gives_nextByte.mp ⟨c₂, ofScan_eq_ok_iff.mp hadvance, rfl⟩
    rw [Scanner.peek_eq_head?, hb, List.head?_cons, Option.some.injEq] at hopen
    obtain ⟨text, c₃, htext, h⟩ := bind_eq_ok_iff.mp h
    obtain ⟨d, c₄, hclose, h⟩ := bind_eq_ok_iff.mp h
    have hbracketed : bracketed c₂ = .ok text c₄ :=
      bind_eq_ok_iff.mpr ⟨text, c₃, htext, bind_eq_ok_iff.mpr ⟨d, c₄, hclose, rfl⟩⟩
    obtain ⟨-, hrem⟩ := gives_bracketed.mp ⟨c₄, hbracketed, rfl⟩
    cases hparse : IpAddr.parse text with
    | none =>
      rw [hparse] at h
      injection h
    | some ip =>
      rw [hparse] at h
      injection h with _ hc'
      refine ⟨91 :: (asBytes text ++ [93]), ?_, ?_⟩
      · rw [show Cursor.remaining c = c.remaining from rfl, hb, hopen,
          show Cursor.remaining c₂ = c₂.remaining from rfl, hrem, hc']
        rfl
      · intro d hd
        simp only [List.mem_cons, List.mem_append, List.not_mem_nil, or_false] at hd
        rcases hd with rfl | hd | rfl
        · decide
        · exact inAuthority_of_inIpAddr (IpAddr.mem_of_parse hparse d hd)
        · decide
  · -- a name
    have hread : ReadsAuthority readHost := by
      apply readsAuthority_of_text
      intro c name c' hscan
      rw [readHost, readWhileAsStrUnchecked, scanWhileAsStrUnchecked_eq] at hscan
      obtain ⟨text, -, htext⟩ := gives_map.mp ⟨c', hscan, rfl⟩
      obtain ⟨rfl, hrem⟩ := gives_scanWhile.mp htext
      refine ⟨c.remaining.takeWhile isHost, ?_, fun b hb => ?_⟩
      · rw [hrem]
        exact List.takeWhile_append_dropWhile.symm
      · exact inAuthority_of_isHost (of_mem_takeWhile hb)
    have hhost : ReadsAuthority (do
        let host ← readHost
        if host = "" then error .host
        else return Host.fromStr host) := by
      apply ReadsOver.bind hread
      intro host
      exact (readsAuthority_error _).ite (ReadsOver.pure _)
    exact hhost.exists_text (by simp) h

/-- A host and its port are an authority. -/
theorem readsAuthority_parseHostPort : ReadsAuthority parseHostPort := by
  apply ReadsOver.bind readsAuthority_parseHost
  intro host
  exact readsAuthority_parsePort.bind fun _ => ReadsOver.pure _

/-! ### URIs without brackets -/

/-- A URI behind its user part. -/
def hostUri (scheme : Scheme) (user : Option UserInfo) : Parse Uri := do
  let hostPort ← parseHostPort
  return { scheme := scheme, user := user, hostPort := hostPort }

/-- A URI behind its scheme. -/
def uriAfterScheme (scheme : Scheme) : Parse Uri := do
  let user ← parseUserInfo
  hostUri scheme user

/-- A URI behind its scheme does not depend on what follows its line. -/
theorem staysInLine_uriAfterScheme (scheme : Scheme) : StaysInLine (uriAfterScheme scheme) :=
  (staysIn_parseUserInfo rfl).bind fun _ => staysIn_parseHostPort.bind fun _ => Confined.pure _

/-- A URI without the parameters behind it starts with a scheme and a colon. -/
theorem gives_parseUri_false {c : Scanner} {u : Uri} {left : Bytes} :
    Gives (parseUri false) c u left ↔ ∃ scheme w, c.remaining = asBytes scheme.toText ++ 58 :: w ∧
      ReadsElement (uriAfterScheme scheme) w u left := by
  have hsplit : parseUri false = (parseScheme >>= uriAfterScheme) := by
    simp only [parseUri, Bool.not_false, if_true]
    rfl
  rw [hsplit, gives_bind]
  constructor
  · rintro ⟨scheme, c₁, hscheme, hgives⟩
    have hrem := gives_parseScheme.mp ⟨c₁, hscheme, rfl⟩
    rw [List.append_assoc] at hrem
    exact ⟨scheme, _, hrem, (readsElement_iff (staysInLine_uriAfterScheme scheme)).mpr hgives⟩
  · rintro ⟨scheme, w, hrem, hgives⟩
    obtain ⟨c₁, hscheme, hw⟩ := gives_parseScheme.mpr (hrem.trans (List.append_assoc _ [58] w).symm)
    rw [← hw] at hgives
    exact ⟨scheme, c₁, hscheme, (readsElement_iff (staysInLine_uriAfterScheme scheme)).mp hgives⟩

/-- **What a URI without brackets is read from.** -/
theorem gives_bareUri {s : Bytes} {u : Uri} {left : Bytes} :
    ReadsElement (parseSipUri false) s (.uri u) left ↔
      ∃ scheme w, s.dropWhile isSpace = asBytes scheme.toText ++ 58 :: w ∧
        ReadsElement (uriAfterScheme scheme) w u left := by
  have hrun := addressBehindBlanks_run (Scanner.new (s.dropWhile isSpace))
  have hnew : (Scanner.new (s.dropWhile isSpace)).remaining = s.dropWhile isSpace := rfl
  rw [parseSipUri_eq, readsElement_skipWs (staysInLine_addressBehindBlanks false), ReadsElement,
    Gives, hrun, hnew]
  by_cases hscheme : (s.dropWhile isSpace).takeWhile inSchemeOrDisplay = sip ∨
      (s.dropWhile isSpace).takeWhile inSchemeOrDisplay = sips
  · rw [if_pos hscheme]
    have huri : (∃ c', (do return SipUri.uri (← parseUri false) : Parse SipUri)
        (Scanner.new (s.dropWhile isSpace)) = .ok (.uri u) c' ∧ Cursor.remaining c' = left) ↔
        Gives (parseUri false) (Scanner.new (s.dropWhile isSpace)) u left := by
      constructor
      · rintro ⟨c', h, hleft⟩
        obtain ⟨u', c₁, hread, h⟩ := bind_eq_ok_iff.mp h
        injection h with hu hc
        rw [SipUri.uri.inj hu, hc] at hread
        exact ⟨c', hread, hleft⟩
      · rintro ⟨c', hread, hleft⟩
        exact ⟨c', bind_eq_ok_iff.mpr ⟨u, c', hread, rfl⟩, hleft⟩
    rw [huri, gives_parseUri_false, hnew]
  · -- what is read between brackets is no URI without them
    rw [if_neg hscheme]
    refine iff_of_false ?_ ?_
    · rintro ⟨c', h, -⟩
      obtain ⟨addr, c₁, -, h⟩ := bind_eq_ok_iff.mp h
      injection h with hu
      cases hu
    · rintro ⟨scheme, w, hw, -⟩
      rw [hw, takeWhile_scheme] at hscheme
      exact hscheme (scheme_bytes scheme)

/-- Without a user part, the look for an at sign finds none. -/
theorem gives_uriAfterScheme {scheme : Scheme} {w : Bytes} {u : Uri} {left : Bytes}
    (huser : u.user = none) : ReadsElement (uriAfterScheme scheme) w u left ↔
      NoUserPart w ∧ ReadsElement (hostUri scheme none) w u left := by
  have hnew : (Scanner.new w).remaining = w := rfl
  have hhost : ∀ user, StaysInLine (hostUri scheme user) :=
    fun _ => staysIn_parseHostPort.bind fun _ => Confined.pure _
  rw [ReadsElement, uriAfterScheme, gives_bind]
  constructor
  · rintro ⟨user, c₁, hread, hgives⟩
    -- the URI has the user that has been read
    obtain ⟨hostPort, c₂, -, hpure⟩ := gives_bind.mp hgives
    obtain ⟨hu, -⟩ := gives_pure.mp hpure
    rw [hu] at huser
    rw [show user = none from huser] at hread hgives
    rcases gives_parseUserInfo.mp ⟨c₁, hread, rfl⟩ with ⟨hno, -, hrem⟩ | ⟨-, c₂, hpart, -⟩
    · exact ⟨hno, (gives_congr (hhost none) hrem).mp hgives⟩
    · exact absurd rfl (user_of_userPart hpart)
  · rintro ⟨hno, hgives⟩
    obtain ⟨c₁, hread, hrem⟩ := gives_parseUserInfo (c := Scanner.new w) |>.mpr (Or.inl ⟨hno, rfl, rfl⟩)
    exact ⟨none, c₁, hread, (gives_congr (hhost none) hrem).mpr hgives⟩

/-! ### What follows -/

/-- `s` is the text of the URI `u`, which has no user part. -/
structure BareUri (s : Bytes) (u : Uri) : Prop where
  read : ReadsElement (parseSipUri false) s (.uri u) []
  user : u.user = none

/-- A text that does not go on with the host or the port in front of it: the parameters of a header,
    a comma and further addresses, a blank or a line end with all that is behind it. -/
def Follows (f : Bytes) : Prop := ∀ b ∈ f.head?, inAuthority b = false

instance (f : Bytes) : Decidable (Follows f) :=
  inferInstanceAs (Decidable (∀ b ∈ f.head?, inAuthority b = false))

/-- In front of `f` the parser reads the same URI, and stops at the same place. -/
def Unchanged (s f : Bytes) (u : Uri) : Prop :=
  ∃ c c', parseSipUri false (Scanner.new s) = .ok (.uri u) c ∧
    parseSipUri false (Scanner.new (s ++ f)) = .ok (.uri u) c' ∧
      c'.index = c.index ∧ c'.position = c.position

/-- A bare URI takes up the whole of its text. -/
theorem BareUri.end_eq {s : Bytes} {u : Uri} {c : Scanner} (hs : BareUri s u)
    (h : parseSipUri false (Scanner.new s) = .ok (.uri u) c) : c = Lib.advance (Scanner.new s) s := by
  obtain ⟨text, htext, rfl⟩ := (staysInLine_parseSipUri false).advances h
  obtain ⟨c', hread, hleft⟩ := hs.read
  rw [h] at hread
  injection hread with _ hc
  rw [hc, hleft, List.append_nil] at htext
  rw [show text = s from htext.symm]

/-- The places are those behind the text of the URI. -/
theorem unchanged_iff_readsElement {s f : Bytes} {u : Uri} (hs : BareUri s u) :
    Unchanged s f u ↔ ReadsElement (parseSipUri false) (s ++ f) (.uri u) f := by
  constructor
  · rintro ⟨c, c', hc, hc', hindex, -⟩
    obtain ⟨text, htext, rfl⟩ := (staysInLine_parseSipUri false).advances hc'
    have htext : s ++ f = text ++ Cursor.remaining (Lib.advance (Scanner.new (s ++ f)) text) := htext
    rw [hs.end_eq hc, Scanner.index_advance, Scanner.index_advance] at hindex
    have hlength : s.length = text.length := (Nat.add_left_cancel hindex).symm
    exact ⟨_, hc', ((List.append_inj htext hlength).2).symm⟩
  · rintro ⟨c', hc', hleft⟩
    obtain ⟨c, hc, -⟩ := hs.read
    obtain ⟨text, htext, rfl⟩ := (staysInLine_parseSipUri false).advances hc'
    rw [hleft] at htext
    have htext : text = s := (List.append_cancel_right (show s ++ f = text ++ f from htext)).symm
    refine ⟨c, _, hc, hc', ?_, ?_⟩ <;> rw [hs.end_eq hc, htext]
    · rw [Scanner.index_advance, Scanner.index_advance]
      rfl
    · have hstart : (Scanner.new (s ++ f)).position = (Scanner.new s).position := rfl
      exact Scanner.position_advance_congr hstart s

/-- The look for an at sign goes through all of a host. -/
theorem noUserPart_host {w f : Bytes} (hw : ∀ b ∈ w, inAuthority b) :
    NoUserPart (w ++ f) ↔ NoUserPart f := by
  have hin : ∀ b ∈ w, inUri b := by
    intro b hb
    by_contra hout
    have hends : b = 32 ∨ b = 9 ∨ b = 13 ∨ b = 10 ∨ b = 62 := by
      simp only [inUri, isSpace, isNewline, Bool.and_eq_true, Bool.not_eq_true', Bool.or_eq_false_iff,
        beq_eq_false_iff_ne, bne_iff_ne] at hout
      tauto
    have hauthority := hw b hb
    rcases hends with rfl | rfl | rfl | rfl | rfl <;> exact absurd hauthority (by decide)
  have hat : (64 : UInt8) ∉ w := fun hmem => absurd (hw 64 hmem) (by decide)
  rw [NoUserPart, NoUserPart, List.takeWhile_append_of_pos hin, List.mem_append, or_iff_right hat]

/-- **What may follow a URI without brackets.** For every such URI without user part, and every text
    that may stand behind it: the parser reads the same URI, and stops at the same place, if and only
    if no at sign stands in front of the first blank, line end or closing bracket of that text. -/
theorem unchanged_iff {s f : Bytes} {u : Uri} (hs : BareUri s u) (hf : Follows f) :
    Unchanged s f u ↔ NoUserPart f := by
  obtain ⟨scheme, w, hw, hread⟩ := gives_bareUri.mp hs.read
  obtain ⟨hno, hhost⟩ := (gives_uriAfterScheme hs.user).mp hread
  have hauthority : ∀ b ∈ w, inAuthority b := by
    obtain ⟨hostPort, c, hrun, hpure⟩ := gives_bind.mp hhost
    obtain ⟨-, hleft⟩ := gives_pure.mp hpure
    obtain ⟨text, htext, hall⟩ :=
      readsAuthority_parseHostPort.exists_text (List.forall_mem_nil _) hrun
    rw [← hleft, List.append_nil] at htext
    rwa [show w = text from htext]
  have hsplit : (s ++ f).dropWhile isSpace = asBytes scheme.toText ++ 58 :: (w ++ f) := by
    rw [dropWhile_append_of_ne_nil (by rw [hw]; simp), hw]
    simp
  rw [unchanged_iff_readsElement hs, gives_bareUri]
  constructor
  · rintro ⟨scheme', w', hw', hread'⟩
    -- the same scheme is in front
    have hbare := bareUri_eq hw'
    rw [bareUri_eq hsplit] at hbare
    rw [← Option.some.inj hbare] at hread'
    obtain ⟨hno', -⟩ := (gives_uriAfterScheme hs.user).mp hread'
    exact (noUserPart_host hauthority).mp hno'
  · intro hno'
    refine ⟨scheme, w ++ f, hsplit, (gives_uriAfterScheme hs.user).mpr ?_⟩
    refine ⟨(noUserPart_host hauthority).mpr hno', ?_⟩
    have hexcludes : Excludes (fun b => !inAuthority b) inAuthority := fun b hb => by simpa using hb
    have hstays : StaysIn (fun b => !inAuthority b) (hostUri scheme none) :=
      (staysIn_parseHostPort_of hexcludes).bind fun _ => Confined.pure _
    have hline : InLine (fun b => !inAuthority b) (Scanner.new (w ++ f)) (Scanner.new w) f :=
      ⟨rfl, fun b hb => by simp [hf b hb]⟩
    exact (hstays.inLine hline u []).mp hhost

/-- The bare URI of the examples. -/
theorem bareUri_localhost : BareUri (asBytes "sip:localhost")
    { scheme := .sip, user := none, hostPort := ⟨.hostName "localhost", none⟩ } where
  read := by
    unfold ReadsElement
    decide +kernel
  user := rfl

/-- A tag leaves the URI as it is. -/
theorem unchanged_tag : Unchanged (asBytes "sip:localhost") (asBytes ";tag=a\r\n")
    { scheme := .sip, user := none, hostPort := ⟨.hostName "localhost", none⟩ } :=
  (unchanged_iff bareUri_localhost (by decide +kernel)).mpr (by unfold NoUserPart; decide +kernel)

/-- A quoted value with an at sign behind a bare URI: the look-ahead for a user part finds it, and
    another URI is read. -/
theorem not_unchanged_quoted : ¬ ∀ s f u, BareUri s u → Follows f → Unchanged s f u := by
  intro h
  have hread := (unchanged_iff_readsElement bareUri_localhost).mp
    (h _ (asBytes ";a=\"b@c\"") _ bareUri_localhost (by decide +kernel))
  unfold ReadsElement at hread
  exact absurd hread (by decide +kernel)

end SipParser

end Rssip
