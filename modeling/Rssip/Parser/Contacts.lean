import Rssip.Lib.Yields
import Rssip.Parser.Lists

namespace Rssip

open Lib

/-!
# Contacts in lists

A contact is read from a name-addr in brackets or from a URI without them.  In front of the
latter the parser looks for an at sign, and it does not stop looking at a comma.

* `readsElement_contact` — what a contact is read from;
* `extends_contact` — what it depends on that stands behind the comma.
-/

namespace SipParser

/-! ### Contacts -/

/-- The text behind the scheme, where a text is taken for a URI without brackets. -/
def bareUri (s : Bytes) : Option Bytes :=
  let text := s.dropWhile isSpace
  let scheme := text.takeWhile inSchemeOrDisplay
  if scheme = sip ∨ scheme = sips then some (text.drop (scheme.length + 1)) else none

/-- A user part with the at sign behind it. -/
def userPart : Parse (Option UserInfo) := do
  let user ← readUser
  let pass ← parsePass
  orError (mustRead 64) .uri
  return some ⟨user, pass⟩

/-- The parameters behind the address of a contact. -/
def contactParams (uri : SipUri) : Parse Contact := do
  let (h, param) ← parseParamsWith paramRef storeContactParam ⟨uri, none, none, {}⟩
  return { h with param := param }

/-- A contact behind the user part of its URI. -/
def bareContact (scheme : Scheme) (user : Option UserInfo) : Parse Contact := do
  let hostPort ← parseHostPort
  contactParams (.uri { scheme := scheme, user := user, hostPort := hostPort })

/-- A contact behind the scheme of its URI. -/
def contactAfterScheme (scheme : Scheme) : Parse Contact := do
  let user ← parseUserInfo
  bareContact scheme user

/-- A contact whose address is in angle brackets. -/
def bracketContact : Parse Contact := do
  let addr ← parseNameAddr
  contactParams (.nameAddr addr)

/-- The parameters of a contact do not depend on what follows their end. -/
theorem staysIn_contactParams {stop : UInt8 → Bool} [Delimits stop] (uri : SipUri) :
    StaysIn stop (contactParams uri) :=
  (staysIn_params staysIn_storeContactParam _).bind fun _ => Confined.pure _

/-- A contact behind its user part does not depend on what follows its end. -/
theorem staysIn_bareContact {stop : UInt8 → Bool} [Delimits stop] (scheme : Scheme)
    (user : Option UserInfo) : StaysIn stop (bareContact scheme user) :=
  staysIn_parseHostPort.bind fun _ => staysIn_contactParams _

/-- A contact in brackets does not depend on what follows its end. -/
theorem staysIn_bracketContact {stop : UInt8 → Bool} [Delimits stop] :
    StaysIn stop bracketContact :=
  staysIn_parseNameAddr.bind fun _ => staysIn_contactParams _

/-- A contact behind its scheme does not depend on what follows its line. -/
theorem staysInLine_contactAfterScheme (scheme : Scheme) :
    StaysInLine (contactAfterScheme scheme) :=
  (staysIn_parseUserInfo rfl).bind fun _ => staysIn_bareContact _ _

/-- The at sign ends a user part, whatever follows. -/
theorem staysIn_userPart {stop : UInt8 → Bool} : StaysIn stop userPart := by
  have hinner : StaysIn (· == 64) (do
      let user ← readUser
      let pass ← parsePass
      return some (UserInfo.mk user pass)) := by
    have hexcludes : ∀ {predicate : UInt8 → Bool}, predicate 64 = false →
        Excludes (· == 64) predicate := by
      intro predicate h b hb
      rw [beq_iff_eq.mp hb, h]
    apply Confined.bind (staysIn_readWhile (hexcludes (by decide)))
    intro user
    apply Confined.bind _ fun _ => Confined.pure _
    apply Confined.bind (staysIn_takeIfEq (by decide))
    intro colon
    apply Confined.ite _ (Confined.pure _)
    exact (staysIn_readWhile (hexcludes (by decide))).bind fun _ => Confined.pure _
  have hclose : ∀ {c : Scanner} {left : Bytes},
      Gives (orError (mustRead 64) .uri) c () left ↔ c.remaining = 64 :: left := by
    intro c left
    rw [← gives_mustRead]
    exact exists_congr fun c' => and_congr_left' (orError_eq_ok_iff.trans ofScan_eq_ok_iff)
  have h : StaysIn stop _ := staysIn_delimited hinner (ends_orError (ends_mustRead 64) _) hclose
  simp only [bind_assoc, pure_bind] at h
  exact h

/-- There is a user part exactly if the look-ahead finds an at sign. -/
theorem gives_parseUserInfo {c : Scanner} {user : Option UserInfo} {left : Bytes} :
    Gives parseUserInfo c user left ↔ (NoUserPart c.remaining ∧ user = none ∧ left = c.remaining) ∨
      (¬ NoUserPart c.remaining ∧ Gives userPart c user left) := by
  have hrun : ∀ c', parseUserInfo c = .ok user c' ↔
      (if (c.remaining.takeWhile inUri).any (· == 64) then userPart else return none) c =
        .ok user c' := fun _ => Iff.rfl
  have hat : (c.remaining.takeWhile inUri).any (· == 64) ↔ ¬ NoUserPart c.remaining := by
    rw [NoUserPart, not_not, List.any_eq_true]
    simp
  by_cases hno : NoUserPart c.remaining
  · have hif : ¬ (c.remaining.takeWhile inUri).any (· == 64) := by rwa [hat, not_not]
    simp only [Gives, hrun, if_neg hif, hno, true_and, not_true_eq_false, false_and, or_false]
    exact gives_pure
  · have hif : (c.remaining.takeWhile inUri).any (· == 64) := hat.mpr hno
    simp only [Gives, hrun, if_pos hif, hno, false_and, not_false_eq_true, true_and, false_or]

/-- Blanks are skipped without looking at what follows. -/
theorem gives_skipWs_bind {α : Type} {k : Parse α} {c : Scanner} {a : α} {left : Bytes} :
    Gives (skipWs >>= fun _ => k) c a left ↔
      Gives k (Lib.advance c (c.remaining.takeWhile isSpace)) a left := by
  have hskip : skipWs c = .ok () (Lib.advance c (c.remaining.takeWhile isSpace)) :=
    bind_eq_ok_iff.mpr ⟨_, _, scanWhile_run isSpace c, rfl⟩
  rw [gives_bind]
  constructor
  · rintro ⟨u, c₁, h, hgives⟩
    rw [hskip] at h
    injection h with _ hc
    rwa [hc]
  · exact fun h => ⟨(), _, hskip, h⟩

/-- What is read behind blanks. -/
theorem readsElement_skipWs {α : Type} {k : Parse α} (hk : StaysInLine k) {s : Bytes} {a : α}
    {left : Bytes} :
    ReadsElement (skipWs >>= fun _ => k) s a left ↔ ReadsElement k (s.dropWhile isSpace) a left := by
  rw [ReadsElement, gives_skipWs_bind]
  exact gives_congr hk (remaining_scanWhile isSpace (Scanner.new s))

/-- A contact is its address behind blanks, and its parameters. -/
theorem contact_eq : Contact.parse =
    (skipWs >>= fun _ => addressBehindBlanks false >>= contactParams) := rfl

/-- What a text is taken for. -/
theorem addressBehindBlanks_run (c : Scanner) : addressBehindBlanks false c =
    (if c.remaining.takeWhile inSchemeOrDisplay = sip ∨
        c.remaining.takeWhile inSchemeOrDisplay = sips then
      (do return .uri (← parseUri false) : Parse SipUri)
    else do return .nameAddr (← parseNameAddr)) c := by
  have hrun : addressBehindBlanks false c =
      (if c.peek = some 34 ∨ c.peek = some 60 then
        (do return .nameAddr (← parseNameAddr) : Parse SipUri)
      else if c.peekWhile inSchemeOrDisplay = sip ∨ c.peekWhile inSchemeOrDisplay = sips then
        (do return .uri (← parseUri false) : Parse SipUri)
      else do return .nameAddr (← parseNameAddr)) c := by
    show (if c.peek = some 34 ∨ c.peek = some 60 then _ else _ : Parse SipUri) c = _
    split <;> rfl
  rw [hrun, Scanner.peekWhile_eq, Scanner.peek_eq_head?]
  by_cases hquote : c.remaining.head? = some 34 ∨ c.remaining.head? = some 60
  · -- neither a quote nor a bracket starts a scheme
    have hne : ¬ (c.remaining.takeWhile inSchemeOrDisplay = sip ∨
        c.remaining.takeWhile inSchemeOrDisplay = sips) := by
      cases hrem : c.remaining with
      | nil => decide
      | cons b bs =>
        rw [hrem, List.head?_cons, Option.some.injEq, Option.some.injEq] at hquote
        rcases hquote with rfl | rfl
        · rw [List.takeWhile_cons_of_pos (by decide)]
          simp [sip, sips, show asBytes "sip" = [115, 105, 112] by decide,
            show asBytes "sips" = [115, 105, 112, 115] by decide]
        · rw [List.takeWhile_cons_of_neg (by decide)]
          decide
    rw [if_pos hquote, if_neg hne]
  · rw [if_neg hquote]

/-- A contact without brackets starts with a scheme and a colon. -/
theorem gives_bareAddress {c : Scanner} {a : Contact} {left : Bytes} :
    Gives ((do return .uri (← parseUri false)) >>= contactParams) c a left ↔
      ∃ scheme w, c.remaining = asBytes scheme.toText ++ 58 :: w ∧
        ReadsElement (contactAfterScheme scheme) w a left := by
  have hsplit : ((do return .uri (← parseUri false)) >>= contactParams) =
      (parseScheme >>= contactAfterScheme) := by
    simp only [parseUri, bind_assoc, pure_bind, Bool.not_false, if_true]
    rfl
  rw [hsplit, gives_bind]
  constructor
  · rintro ⟨scheme, c₁, hscheme, hgives⟩
    have hrem := gives_parseScheme.mp ⟨c₁, hscheme, rfl⟩
    rw [List.append_assoc] at hrem
    exact ⟨scheme, _, hrem, (readsElement_iff (staysInLine_contactAfterScheme scheme)).mpr hgives⟩
  · rintro ⟨scheme, w, hrem, hgives⟩
    obtain ⟨c₁, hscheme, hw⟩ := gives_parseScheme.mpr (hrem.trans (List.append_assoc _ [58] w).symm)
    rw [← hw] at hgives
    exact ⟨scheme, c₁, hscheme,
      (readsElement_iff (staysInLine_contactAfterScheme scheme)).mp hgives⟩

/-- A contact with brackets is a name-addr and its parameters. -/
theorem gives_bracketAddress {c : Scanner} {a : Contact} {left : Bytes} :
    Gives ((do return .nameAddr (← parseNameAddr)) >>= contactParams) c a left ↔
      Gives bracketContact c a left := by
  have hsplit : ((do return .nameAddr (← parseNameAddr)) >>= contactParams) = bracketContact := by
    simp only [bind_assoc, pure_bind]
    rfl
  rw [hsplit]

/-- The scheme ends at its colon. -/
theorem takeWhile_scheme (scheme : Scheme) (w : Bytes) :
    (asBytes scheme.toText ++ 58 :: w).takeWhile inSchemeOrDisplay = asBytes scheme.toText := by
  apply takeWhile_append_stops
  · cases scheme <;> decide
  · rw [stops_cons]
    decide

/-- **What a contact is read from.** -/
theorem readsElement_contact {s : Bytes} {a : Contact} {left : Bytes} :
    ReadsElement Contact.parse s a left ↔
      (∃ scheme w, s.dropWhile isSpace = asBytes scheme.toText ++ 58 :: w ∧
        ReadsElement (contactAfterScheme scheme) w a left) ∨
      (bareUri s = none ∧ ReadsElement bracketContact (s.dropWhile isSpace) a left) := by
  have hline : StaysInLine (addressBehindBlanks false >>= contactParams) :=
    (staysInLine_addressBehindBlanks false).bind fun _ => staysIn_contactParams _
  have hrun := addressBehindBlanks_run (Scanner.new (s.dropWhile isSpace))
  have hbind : ∀ {r : Parse SipUri} {c : Scanner}, addressBehindBlanks false c = r c →
      (Gives (addressBehindBlanks false >>= contactParams) c a left ↔
        Gives (r >>= contactParams) c a left) := by
    intro r c h
    rw [gives_bind, gives_bind, h]
  rw [contact_eq, readsElement_skipWs hline, ReadsElement, hbind hrun, bareUri]
  have hnew : (Scanner.new (s.dropWhile isSpace)).remaining = s.dropWhile isSpace := rfl
  rw [hnew]
  -- the look ahead decides which of the two is read
  by_cases hscheme : (s.dropWhile isSpace).takeWhile inSchemeOrDisplay = sip ∨
      (s.dropWhile isSpace).takeWhile inSchemeOrDisplay = sips
  · rw [if_pos hscheme, gives_bareAddress]
    simp only [if_pos hscheme]
    simp [hnew]
  · rw [if_neg hscheme, gives_bracketAddress]
    simp only [if_neg hscheme, true_and]
    rw [or_iff_right]
    · rfl
    · rintro ⟨scheme, w, hw, -⟩
      rw [hw, takeWhile_scheme] at hscheme
      exact hscheme (scheme_bytes scheme)

/-- Behind blanks and a scheme. -/
theorem bareUri_eq {s w : Bytes} {scheme : Scheme}
    (h : s.dropWhile isSpace = asBytes scheme.toText ++ 58 :: w) : bareUri s = some w := by
  unfold bareUri
  dsimp only
  rw [h, takeWhile_scheme, if_pos (scheme_bytes scheme)]
  simp

/-- Behind the scheme, the look-ahead for an at sign decides what is read. -/
theorem gives_contactAfterScheme {scheme : Scheme} {c : Scanner} {a : Contact} {left : Bytes} :
    Gives (contactAfterScheme scheme) c a left ↔
      (NoUserPart c.remaining ∧ Gives (bareContact scheme none) c a left) ∨
        (¬ NoUserPart c.remaining ∧ Gives (userPart >>= bareContact scheme) c a left) := by
  have hcongr : ∀ user {c d : Scanner}, c.remaining = d.remaining →
      (Gives (bareContact scheme user) c a left ↔ Gives (bareContact scheme user) d a left) :=
    fun user _ _ h => gives_congr (staysIn_bareContact scheme user) h
  rw [contactAfterScheme, gives_bind]
  constructor
  · rintro ⟨user, c₁, huser, hgives⟩
    rcases gives_parseUserInfo.mp ⟨c₁, huser, rfl⟩ with ⟨hno, rfl, hrem⟩ | ⟨hat, c₂, huser₂, hrem⟩
    · exact Or.inl ⟨hno, (hcongr none hrem).mp hgives⟩
    · exact Or.inr ⟨hat, gives_bind.mpr ⟨user, c₂, huser₂, (hcongr user hrem).mpr hgives⟩⟩
  · rintro (⟨hno, hgives⟩ | ⟨hat, hgives⟩)
    · obtain ⟨c₁, huser, hrem⟩ := gives_parseUserInfo.mpr (Or.inl ⟨hno, rfl, rfl⟩)
      exact ⟨none, c₁, huser, (hcongr none hrem).mpr hgives⟩
    · obtain ⟨user, c₂, huser₂, hgives⟩ := gives_bind.mp hgives
      obtain ⟨c₁, huser, hrem⟩ := gives_parseUserInfo.mpr (Or.inr ⟨hat, c₂, huser₂, rfl⟩)
      exact ⟨user, c₁, huser, (hcongr user hrem).mpr hgives⟩

/-- A name-addr has a bracket. -/
theorem mem_bracketContact {s : Bytes} {a : Contact} {left : Bytes}
    (h : ReadsElement bracketContact s a left) : 60 ∈ s := by
  obtain ⟨addr, c₁, haddr, -⟩ := gives_bind.mp h
  obtain ⟨_, c₂, hws, haddr⟩ := bind_eq_ok_iff.mp haddr
  obtain ⟨display, c₃, hdisplay, haddr⟩ := bind_eq_ok_iff.mp haddr
  obtain ⟨_, c₄, hws', haddr⟩ := bind_eq_ok_iff.mp haddr
  obtain ⟨_, c₅, hbracket, -⟩ := bind_eq_ok_iff.mp haddr
  have hnext := gives_mustRead.mp ⟨c₅, ofScan_eq_ok_iff.mp hbracket, rfl⟩
  have hdisplay_line : StaysInLine parseDisplayName := staysIn_parseDisplayName
  have hsuffix := (ends_skipWs.suffix hws').trans
    ((hdisplay_line.suffix hdisplay).trans (ends_skipWs.suffix hws))
  apply hsuffix.subset
  rw [show Cursor.remaining c₄ = c₄.remaining from rfl, hnext]
  exact List.mem_cons_self

/-- What the scans for a scheme and for blanks find in a text, they find when it goes on. -/
theorem takeWhile_append_of_mem {p : UInt8 → Bool} {b : UInt8} {s : Bytes} (hb : b ∈ s)
    (hp : p b = false) (f : Bytes) : (s ++ f).takeWhile p = s.takeWhile p := by
  rw [List.takeWhile_append, if_neg]
  intro hlen
  have hall := List.takeWhile_eq_self_iff.mp
    ((List.takeWhile_prefix p).eq_of_length hlen)
  rw [hall b hb] at hp
  exact Bool.noConfusion hp

/-- What stops skipping does so still when something follows. -/
theorem dropWhile_append_of_ne_nil {p : UInt8 → Bool} {s : Bytes} (hs : s.dropWhile p ≠ [])
    (f : Bytes) : (s ++ f).dropWhile p = s.dropWhile p ++ f := by
  rw [List.dropWhile_append, if_neg]
  simpa using hs

/-- Nothing that follows a contact gives the URI in it a user part. -/
def KeepsUser (s f : Bytes) : Prop := ∀ w, bareUri s = some w → NoUserPart w → NoUserPart (w ++ f)

/-- The user of a URI that is read behind its user part. -/
theorem yields_contactParams (uri : SipUri) :
    Yields (fun _ : Scanner => True) (fun a : Contact => a.uri = uri) (contactParams uri) := by
  have hany : ∀ {α : Type} (r : Parse α), Yields (fun _ : Scanner => True) (fun _ => True) r :=
    fun _ _ _ _ _ _ => ⟨trivial, trivial⟩
  have hparams : Yields (fun _ : Scanner => True) (fun r : Contact × Params => r.1.uri = uri)
      (parseParamsWith paramRef storeContactParam ⟨uri, none, none, {}⟩) := by
    rw [parseParamsWith_eq]
    refine Yields.bind (hany skipWs) fun _ _ => ?_
    refine Yields.loop (P := fun r : Contact × List Param => r.1.uri = uri) ?_ rfl
    rintro ⟨h, params⟩ huri
    refine Yields.bind (hany _) fun o _ => Yields.ite (Yields.pure huri) ?_
    refine Yields.bind (hany paramRef) fun p _ => ?_
    have hstore : Yields (fun _ : Scanner => True)
        (fun r : Contact × Option Param => r.1.uri = uri) (storeContactParam h p) := by
      unfold storeContactParam
      refine Yields.ite (Yields.bind (hany _) fun q _ => Yields.pure huri) ?_
      exact Yields.ite (Yields.bind (hany _) fun e _ => Yields.pure huri) (Yields.pure huri)
    refine Yields.bind hstore fun r hr => ?_
    exact Yields.bind (hany skipWs) fun _ _ => Yields.pure hr
  exact Yields.bind hparams fun r hr => Yields.pure hr

/-- A bare contact has the user part that was read for it. -/
theorem user_of_bareContact {scheme : Scheme} {user : Option UserInfo} {c : Scanner} {a : Contact}
    {left : Bytes} (h : Gives (bareContact scheme user) c a left) :
    ∃ uri : Uri, a.uri = .uri uri ∧ uri.user = user := by
  obtain ⟨hostPort, c₁, -, c₂, hparams, -⟩ := gives_bind.mp h
  exact ⟨_, (yields_contactParams _ _ _ _ trivial hparams).1, rfl⟩

/-- A user part that was read is one. -/
theorem user_of_userPart {c c' : Scanner} {user : Option UserInfo}
    (h : userPart c = .ok user c') : user ≠ none := by
  obtain ⟨name, c₁, -, h⟩ := bind_eq_ok_iff.mp h
  obtain ⟨pass, c₂, -, h⟩ := bind_eq_ok_iff.mp h
  obtain ⟨_, c₃, -, h⟩ := bind_eq_ok_iff.mp h
  injection h with huser
  rw [← huser]
  simp

/-- An at sign that is found is found still when something follows. -/
theorem not_noUserPart_append {w : Bytes} (h : ¬ NoUserPart w) (f : Bytes) :
    ¬ NoUserPart (w ++ f) := by
  rw [NoUserPart, not_not] at h ⊢
  rw [List.takeWhile_append]
  split
  · rename_i hlen
    rw [(List.takeWhile_prefix inUri).eq_of_length hlen] at h
    exact List.mem_append_left _ h
  · exact h

/-- A contact in front of a comma, where nothing gives its URI a user part. -/
theorem readsElement_contact_append {s : Bytes} {a : Contact} {left t : Bytes}
    (h : ReadsElement Contact.parse s a left) (hkeeps : KeepsUser s (44 :: t)) :
    ReadsElement Contact.parse (s ++ 44 :: t) a (left ++ 44 :: t) := by
  rw [readsElement_contact] at h ⊢
  rcases h with ⟨scheme, w, hw, hread⟩ | ⟨hnone, hread⟩
  · refine Or.inl ⟨scheme, w ++ 44 :: t, ?_, ?_⟩
    · rw [dropWhile_append_of_ne_nil (by rw [hw]; simp), hw]
      simp
    · apply gives_contactAfterScheme.mpr
      rcases gives_contactAfterScheme.mp hread with ⟨hno, hread⟩ | ⟨hat, hread⟩
      · exact Or.inl ⟨hkeeps w (bareUri_eq hw) hno,
          readsElement_append (staysIn_bareContact scheme none) hread t⟩
      · exact Or.inr ⟨not_noUserPart_append hat _,
          readsElement_append (staysIn_userPart.bind fun _ => staysIn_bareContact scheme _) hread t⟩
  · -- the bracket ends the scan for a scheme, whatever follows
    have hmem := mem_bracketContact hread
    have hne : s.dropWhile isSpace ≠ [] := List.ne_nil_of_mem hmem
    refine Or.inr ⟨?_, ?_⟩
    · unfold bareUri at hnone ⊢
      dsimp only at hnone ⊢
      rw [dropWhile_append_of_ne_nil hne, takeWhile_append_of_mem hmem (by decide)]
      split at hnone
      · exact absurd hnone (by simp)
      · rename_i hscheme
        rw [if_neg hscheme]
    · rw [dropWhile_append_of_ne_nil hne]
      exact readsElement_append staysIn_bracketContact hread t

/-- The URI of a contact has a user exactly if the look for an at sign finds one. -/
theorem readsElement_bareUri {s w : Bytes} (hw : bareUri s = some w) {a : Contact} {left : Bytes}
    (h : ReadsElement Contact.parse s a left) :
    ∃ uri : Uri, a.uri = .uri uri ∧ (NoUserPart w ↔ uri.user = none) := by
  rcases readsElement_contact.mp h with ⟨scheme, w₁, hw₁, hread⟩ | ⟨hnone, -⟩
  · have hsame : w₁ = w := Option.some.inj ((bareUri_eq hw₁).symm.trans hw)
    rw [hsame] at hread
    rcases gives_contactAfterScheme.mp hread with ⟨hno, hread⟩ | ⟨hat, hread⟩
    · obtain ⟨uri, huri, huser⟩ := user_of_bareContact hread
      exact ⟨uri, huri, iff_of_true hno huser⟩
    · obtain ⟨user, c₁, huser, hread⟩ := gives_bind.mp hread
      obtain ⟨uri, huri, hsome⟩ := user_of_bareContact hread
      exact ⟨uri, huri, iff_of_false hat (hsome ▸ user_of_userPart huser)⟩
  · rw [hw] at hnone
    exact absurd hnone (by simp)

/-- **A contact depends on whether an at sign follows the comma.** -/
theorem extends_contact : Extends (ReadsElement Contact.parse) 44 KeepsUser where
  functional := functional_readsElement _
  same hread _ hkeeps := readsElement_contact_append hread hkeeps
  other {s a left left' t} hread _ hnot hread' := by
    simp only [KeepsUser, not_forall] at hnot
    obtain ⟨w, hw, hno, hat⟩ := hnot
    have hbare : bareUri (s ++ 44 :: t) = some (w ++ 44 :: t) := by
      rcases readsElement_contact.mp hread with ⟨scheme, w₁, hw₁, -⟩ | ⟨hnone, -⟩
      · have hsame : w₁ = w := Option.some.inj ((bareUri_eq hw₁).symm.trans hw)
        have hdrop : (s ++ 44 :: t).dropWhile isSpace = asBytes scheme.toText ++ 58 :: (w ++ 44 :: t) := by
          rw [dropWhile_append_of_ne_nil (by rw [hw₁]; simp), hw₁, hsame]
          simp
        exact bareUri_eq hdrop
      · rw [hw] at hnone
        exact absurd hnone (by simp)
    -- alone the URI has no user, in front of the comma it has one
    obtain ⟨uri, huri, huser⟩ := readsElement_bareUri hw hread
    obtain ⟨uri', huri', huser'⟩ := readsElement_bareUri hbare hread'
    rw [huri] at huri'
    injection huri' with hequal
    rw [← hequal, ← huser] at huser'
    exact hat (huser'.mpr hno)

end SipParser

end Rssip
