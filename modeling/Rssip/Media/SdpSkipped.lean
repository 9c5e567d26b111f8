import Rssip.Media.SdpLineEnds
import Rssip.Media.SdpText

namespace Rssip.Media

open Lib

/-!
# Lines that are not read

A time zone, or a line of an unknown type, is passed by reading nothing behind its equals sign, so
that its value is read as the next lines.

* `lines_append_iff` — the lines of a text that is put together at a line end;
* `silent` — a value that is read as lines without effect;
* `skipped_iff` — these are the values whose lines can be put into a text without changing what it
  says.
-/

namespace SdpParser

/-! ### Texts that are put together -/

section

variable {field : SdpField} {c : Scanner} {line : SdpLine} {value rest : Bytes}

/-- A line is followed by what follows it. -/
theorem lines_cons_iff (h : Gives (parseValue field) (Scanner.new (value ++ rest)) line rest)
    {lines : List (Bytes × SdpLine)} :
    Lines (field :: 61 :: (value ++ rest)) lines ↔ ∃ more, Lines (rest.dropWhile isNewline) more ∧
      lines = (field :: 61 :: value, line) :: more := by
  constructor
  · intro hlines
    generalize htext : field :: 61 :: (value ++ rest) = text at hlines
    cases hlines with
    | nil => cases htext
    | @cons field' value' rest' line' lines hvalue hlines =>
      injection htext with hfield htext
      injection htext with _ htext
      subst hfield
      rw [← htext] at hvalue
      obtain ⟨rfl, rfl⟩ := h.unique hvalue
      rw [List.append_cancel_right htext]
      exact ⟨lines, hlines, rfl⟩
  · rintro ⟨more, hmore, rfl⟩
    exact .cons h hmore

/-- What follows a line end does not change how the line in front of it is read. -/
theorem gives_parseValue_append (h : Gives (parseValue field) (Scanner.new (value ++ rest)) line rest)
    (hrest : ∃ b ∈ rest, isNewline b) (behind : Bytes) :
    Gives (parseValue field) (Scanner.new (value ++ (rest ++ behind))) line (rest ++ behind) := by
  obtain ⟨ends, hsplit, hends⟩ := exists_leftInLine rest
  have hne : ends ≠ [] := by
    rintro rfl
    obtain ⟨b, hb, hnewline⟩ := hrest
    rw [hsplit, List.append_nil] at hb
    rw [not_isNewline_leftInLine rest b hb] at hnewline
    cases hnewline
  have hinLine : ∀ more : Bytes, (∀ b ∈ more.head?, isNewline b) →
      (Gives (valueInLine field) (Scanner.new (value ++ leftInLine rest)) line (leftInLine rest) ↔
        Gives (valueInLine field) (Scanner.new (value ++ (leftInLine rest ++ more))) line
          (leftInLine rest ++ more)) := by
    intro more hmore
    refine (staysInLine_valueInLine field).inLine ⟨?_, hmore⟩ line _
    exact (List.append_assoc value (leftInLine rest) more).symm
  have hends' : ∀ b ∈ (ends ++ behind).head?, isNewline b := by
    rwa [List.head?_append_of_ne_nil _ hne]
  have hread : Gives (valueInLine field) (Scanner.new (value ++ (rest ++ behind))) line
      (rest ++ behind) := by
    have hvalue := gives_valueInLine h
    rw [hsplit] at hvalue
    have hlonger := (hinLine _ hends').mp ((hinLine _ hends).mpr (by simpa using hvalue))
    have hrest' : leftInLine rest ++ (ends ++ behind) = rest ++ behind := by
      rw [← List.append_assoc, ← hsplit]
    rwa [hrest'] at hlonger
  by_cases hmedia : field = SdpField.mediaDescription
  · subst hmedia
    obtain ⟨m, rfl, hm⟩ := gives_map.mp
      (show Gives (SdpLine.media <$> mediaUpTo isTransport) _ line (rest ++ behind) from hread)
    obtain ⟨m', hm', hparse⟩ :=
      gives_map.mp (show Gives (SdpLine.media <$> parseMediaDescription) _ _ rest from h)
    have hformats : m.mediaFormats ≠ [] := by
      refine SdpLine.media.inj hm' ▸ mediaFormats_ne_nil hparse ?_
      rw [hsplit]
      exact List.append_ne_nil_of_right_ne_nil _ hne
    exact gives_map.mpr ⟨m, rfl, gives_parseMediaDescription_of_formats hm hformats⟩
  · rwa [valueInLine, if_neg hmedia] at hread

end

/-- An empty text has no lines. -/
theorem lines_nil {lines : List (Bytes × SdpLine)} (h : Lines [] lines) : lines = [] := by
  cases h
  rfl

/-- **The lines of two texts**, the first of which ends with a line end. -/
theorem lines_append_iff {before behind : Bytes} {lines lines' : List (Bytes × SdpLine)}
    (h : Lines before lines) (hne : before ≠ []) (hlast : ∀ b ∈ before.getLast?, isNewline b) :
    Lines (before ++ behind) lines' ↔
      ∃ more, Lines (behind.dropWhile isNewline) more ∧ lines' = lines ++ more := by
  induction h generalizing lines' with
  | nil => exact absurd rfl hne
  | @cons field value rest line lines hvalue hlines ih =>
    obtain ⟨hrest, hlast'⟩ := getLast?_rest hvalue hlast
    have hmem := List.getLast?_eq_some_getLast hrest
    have happend := gives_parseValue_append hvalue
      ⟨_, List.mem_of_mem_getLast? hmem, hlast' _ hmem⟩ behind
    have htext : field :: 61 :: (value ++ rest) ++ behind =
        field :: 61 :: (value ++ (rest ++ behind)) := by
      simp only [List.cons_append, List.append_assoc]
    rw [htext, lines_cons_iff happend, List.dropWhile_append]
    by_cases hdrop : rest.dropWhile isNewline = []
    · rw [hdrop] at hlines ⊢
      rw [lines_nil hlines]
      rfl
    · rw [if_neg (by simpa using hdrop)]
      have hdropLast : ∀ b ∈ (rest.dropWhile isNewline).getLast?, isNewline b := by
        have hsplit := List.takeWhile_append_dropWhile (p := isNewline) (l := rest)
        rwa [← hsplit, List.getLast?_append_of_ne_nil _ hdrop] at hlast'
      simp only [ih hdrop hdropLast]
      constructor
      · rintro ⟨_, ⟨more, hmore, rfl⟩, rfl⟩
        exact ⟨more, hmore, rfl⟩
      · rintro ⟨more, hmore, rfl⟩
        exact ⟨_, ⟨more, hmore, rfl⟩, rfl⟩

/-! ### Lines without effect -/

/-- The value says nothing, as more lines: protocol versions, and letters that are not interpreted
    with nothing behind the equals sign. -/
def silent : Bytes → Bool
  | [] => true
  | 118 :: 61 :: 48 :: rest => silent rest
  | field :: 61 :: rest => uninterpreted field && silent rest
  | _ => false

/-- A line says nothing if it is a protocol version, or not interpreted. -/
def SaysNothing (line : SdpLine) : Prop := line = .version ∨ line = .skipped

/-- **A line that says nothing** is read up to a fixed place. -/
theorem gives_saysNothing {field : SdpField} {c : Scanner} {line : SdpLine} {left : Bytes}
    (hline : SaysNothing line) (h : Gives (parseValue field) c line left) :
    (field = 118 ∧ c.remaining = 48 :: left) ∨ (uninterpreted field ∧ c.remaining = left) := by
  by_cases hfield : uninterpreted field
  · rw [parseValue_uninterpreted hfield, gives_pure] at h
    exact .inr ⟨hfield, h.2.symm⟩
  have hletter := letter_of_gives h
  rw [if_neg hfield] at hletter
  rcases hline with rfl | rfl
  · -- only the version has its letter
    obtain rfl : 118 = field := Option.some.inj hletter
    obtain ⟨_, c₁, hversion, h⟩ := gives_bind.mp
      (show Gives (parseVersion >>= fun _ => pure SdpLine.version) c .version left from h)
    obtain ⟨-, rfl⟩ := gives_pure.mp h
    have hread := (tryCatch_eq_ok_iff (E := fun _ => True) fun _ _ => ⟨_, rfl, trivial⟩).mp hversion
    exact .inl ⟨rfl, gives_mustRead.mp (gives_ofScan.mp ⟨c₁, hread, rfl⟩)⟩
  · cases hletter

/-! ### What lines do to a description -/

/-- A line that says nothing is stored without a change. -/
theorem store_saysNothing {line : SdpLine} (h : SaysNothing line) (sdp : SessionDescription) :
    line.store sdp = .ok sdp := by
  rcases h with rfl | rfl <;> rfl

/-- Lines are stored one text after the other. -/
theorem storeLines_append {lines more : List SdpLine} {sdp sdp' : SessionDescription}
    (h : storeLines lines sdp = .ok sdp') :
    storeLines (lines ++ more) sdp = storeLines more sdp' := by
  rw [storeLines, List.foldlM_append]
  exact congrArg (· >>= fun sdp => storeLines more sdp) h

/-- Lines that say nothing are stored without a change. -/
theorem storeLines_saysNothing {lines : List SdpLine} (h : ∀ line ∈ lines, SaysNothing line)
    (sdp : SessionDescription) : storeLines lines sdp = .ok sdp := by
  induction lines with
  | nil => rfl
  | cons line lines ih =>
    obtain ⟨hline, hlines⟩ := List.forall_mem_cons.mp h
    rw [storeLines, List.foldlM_cons, store_saysNothing hline]
    exact ih hlines

/-- A line that adds something to a description. -/
def grows : SdpLine → Bool
  | .attr _ | .bandwidth _ | .time _ | .repeatTimes _ | .media _ => true
  | _ => false

/-- How much lines have added. -/
def size (sdp : SessionDescription) : Nat :=
  sdp.attributes.length + (sdp.media.map fun m => m.attributes.length + 1).sum +
    sdp.bandwidthInformation.length + (sdp.time.map fun t => t.repeatTimes.length + 1).sum

/-- A change of the last element changes the sum by what it changes there. -/
theorem sum_modifyLast {α : Type} {f : α → α} {g : α → Nat} {k : Nat}
    (h : ∀ a, g (f a) = g a + k) {as : List α} (hne : as ≠ []) :
    ((modifyLast f as).map g).sum = (as.map g).sum + k := by
  induction as with
  | nil => exact absurd rfl hne
  | cons a as ih =>
    cases as with
    | nil => simp [modifyLast, h]
    | cons b as =>
      have hrest := ih (List.cons_ne_nil b as)
      simp only [modifyLast, List.map_cons, List.sum_cons] at hrest ⊢
      omega

/-- A line that adds something makes the description larger, and none makes it smaller. -/
theorem size_store {line : SdpLine} {sdp sdp' : SessionDescription}
    (h : line.store sdp = .ok sdp') : size sdp + (grows line).toNat ≤ size sdp' := by
  have honLast : ∀ (media : MediaDescription → MediaDescription)
      (session : SessionDescription → SessionDescription) (k : Nat),
      (∀ m, (media m).attributes.length + 1 = m.attributes.length + 1 + k) →
        size (session sdp) = size sdp + k → size (sdp.onLastMedia media session) = size sdp + k := by
    intro media session k hmedia hsession
    unfold SessionDescription.onLastMedia
    split
    · exact hsession
    · rename_i hempty
      have hne : sdp.media ≠ [] := by simpa using hempty
      have hsum := sum_modifyLast (g := fun m => m.attributes.length + 1) hmedia hne
      simp only [size, hsum]
      omega
  cases line with
  | attr a =>
    obtain rfl := Except.ok.inj h
    refine (honLast _ _ 1 (fun m => by simp) ?_).ge
    simp only [size, List.length_append, List.length_singleton]
    omega
  | connection c =>
    obtain rfl := Except.ok.inj h
    exact (honLast (fun m => { m with connectionInformation := some c })
      (fun s => { s with connectionInformation := some c }) 0 (fun _ => rfl) rfl).ge
  | information s =>
    obtain rfl := Except.ok.inj h
    exact (honLast (fun m => { m with title := some s })
      (fun sdp => { sdp with sessionInformation := some s }) 0 (fun _ => rfl) rfl).ge
  | repeatTimes r =>
    have h : sdp.setRepeatTimes r = .ok sdp' := h
    unfold SessionDescription.setRepeatTimes at h
    split at h
    · cases h
    · rename_i hempty
      obtain rfl := Except.ok.inj h
      have hne : sdp.time ≠ [] := by simpa using hempty
      have hsum := sum_modifyLast (g := fun t => t.repeatTimes.length + 1) (k := 1)
        (f := fun t : TimeDescription => { t with repeatTimes := t.repeatTimes ++ [r] })
        (fun t => by simp) hne
      simp only [size, hsum, grows, Bool.toNat_true]
      omega
  | bandwidth b =>
    obtain rfl := Except.ok.inj h
    simp only [size, SessionDescription.setBandwidthInformation, grows, List.length_append,
      List.length_singleton, Bool.toNat_true]
    omega
  | time t =>
    obtain rfl := Except.ok.inj h
    simp only [size, SessionDescription.setTimeDesc, grows, List.map_append, List.sum_append,
      List.map_singleton, List.sum_singleton, Bool.toNat_true]
    omega
  | media m =>
    obtain rfl := Except.ok.inj h
    simp only [size, SessionDescription.setMediaDescription, grows, List.map_append, List.sum_append,
      List.map_singleton, List.sum_singleton, Bool.toNat_true]
    omega
  | version | origin _ | sessionName _ | uri _ | emailAddress _ | phoneNumber _ | skipped =>
    obtain rfl := Except.ok.inj h
    exact Nat.le_refl _

/-- Some lines make the description no smaller. -/
theorem size_storeLines {lines : List SdpLine} {sdp sdp' : SessionDescription}
    (h : storeLines lines sdp = .ok sdp') : size sdp ≤ size sdp' := by
  induction lines generalizing sdp with
  | nil => exact Except.ok.inj h ▸ Nat.le_refl _
  | cons line lines ih =>
    obtain ⟨sdp₁, hstore, hrest⟩ := except_bind_eq_ok_iff.mp ((List.foldlM_cons ..).symm.trans h)
    exact (Nat.le_add_right _ _).trans ((size_store hstore).trans (ih hrest))

/-- Lines that leave the size of a description as it is add nothing. -/
theorem not_grows_of_storeLines {lines : List SdpLine} {sdp sdp' : SessionDescription}
    (h : storeLines lines sdp = .ok sdp') (hsize : size sdp' ≤ size sdp) :
    ∀ line ∈ lines, grows line = false := by
  induction lines generalizing sdp with
  | nil => exact List.forall_mem_nil _
  | cons line lines ih =>
    obtain ⟨sdp₁, hstore, hrest⟩ := except_bind_eq_ok_iff.mp ((List.foldlM_cons ..).symm.trans h)
    have hstep := size_store hstore
    have hlines := size_storeLines hrest
    refine List.forall_mem_cons.mpr ⟨?_, ih hrest (by omega)⟩
    cases hgrows : grows line with
    | false => rfl
    | true =>
      rw [hgrows, Bool.toNat_true] at hstep
      omega

section

variable {α : Type} {get : SessionDescription → α} {set? : SdpLine → Option α}
  {lines : List SdpLine} {sdp sdp' sdp₁ sdp₂ : SessionDescription}

/-- A field of a session without media is what the last line says that sets it. -/
theorem get_storeLines
    (hstore : ∀ line sdp sdp', grows line = false → sdp.media = [] → line.store sdp = .ok sdp' →
      sdp'.media = [] ∧ get sdp' = (set? line).getD (get sdp))
    (hlines : ∀ line ∈ lines, grows line = false) (hmedia : sdp.media = [])
    (h : storeLines lines sdp = .ok sdp') :
    get sdp' = (lines.filterMap set?).getLast?.getD (get sdp) := by
  induction lines generalizing sdp with
  | nil => exact Except.ok.inj h ▸ rfl
  | cons line lines ih =>
    obtain ⟨sdp₁, hline, hrest⟩ := except_bind_eq_ok_iff.mp ((List.foldlM_cons ..).symm.trans h)
    obtain ⟨hgrows, hlines⟩ := List.forall_mem_cons.mp hlines
    obtain ⟨hmedia₁, hget⟩ := hstore line sdp sdp₁ hgrows hmedia hline
    rw [ih hlines hmedia₁ hrest, hget]
    cases hset : set? line with
    | none => rw [List.filterMap_cons_none hset]; rfl
    | some a =>
      rw [List.filterMap_cons_some hset]
      cases lines.filterMap set? with
      | nil => rfl
      | cons b bs =>
        rw [List.getLast?_cons_cons, List.getLast?_eq_some_getLast (List.cons_ne_nil b bs)]
        rfl

/-- Lines that leave two descriptions as they are do not set what these differ in. -/
theorem set?_eq_none
    (hstore : ∀ line sdp sdp', grows line = false → sdp.media = [] → line.store sdp = .ok sdp' →
      sdp'.media = [] ∧ get sdp' = (set? line).getD (get sdp))
    (hlines : ∀ line ∈ lines, grows line = false) (hmedia₁ : sdp₁.media = [])
    (hmedia₂ : sdp₂.media = []) (h₁ : storeLines lines sdp₁ = .ok sdp₁)
    (h₂ : storeLines lines sdp₂ = .ok sdp₂) (hne : get sdp₁ ≠ get sdp₂) :
    ∀ line ∈ lines, set? line = none := by
  have hget₁ := get_storeLines hstore hlines hmedia₁ h₁
  have hget₂ := get_storeLines hstore hlines hmedia₂ h₂
  cases hlast : (lines.filterMap set?).getLast? with
  | some a =>
    rw [hlast] at hget₁ hget₂
    exact absurd (hget₁.trans hget₂.symm) hne
  | none => exact List.filterMap_eq_nil_iff.mp (List.getLast?_eq_none_iff.mp hlast)

end

/-- What a line does to a session without media, unless it adds something. -/
def setting : SdpLine → SessionDescription → SessionDescription
  | .origin o, sdp => { sdp with origin := o }
  | .sessionName s, sdp => { sdp with sessionName := s }
  | .connection c, sdp => { sdp with connectionInformation := some c }
  | .information s, sdp => { sdp with sessionInformation := some s }
  | .uri s, sdp => { sdp with uri := some s }
  | .emailAddress s, sdp => { sdp with emailAddress := some s }
  | .phoneNumber s, sdp => { sdp with phoneNumber := some s }
  | _, sdp => sdp

/-- In a session without media, a line that adds nothing sets one of its fields at most. -/
theorem store_eq_setting {line : SdpLine} {sdp sdp' : SessionDescription} (hline : grows line = false)
    (hmedia : sdp.media = []) (h : line.store sdp = .ok sdp') : sdp' = setting line sdp := by
  have honLast : ∀ media session, sdp.onLastMedia media session = session sdp := by
    intro media session
    rw [SessionDescription.onLastMedia, hmedia]
    rfl
  cases line with
  | attr _ | bandwidth _ | time _ | repeatTimes _ | media _ => cases hline
  | connection c => exact (Except.ok.inj h).symm.trans (honLast _ _)
  | information s => exact (Except.ok.inj h).symm.trans (honLast _ _)
  | version | origin _ | sessionName _ | uri _ | emailAddress _ | phoneNumber _ | skipped =>
    exact (Except.ok.inj h).symm

/-! What a line sets each of the fields to. -/

/-- What the line stores as the origin, if anything. -/
def origin? : SdpLine → Option Origin
  | .origin o => some o
  | _ => none

/-- What the line stores as the name, if anything. -/
def sessionName? : SdpLine → Option String
  | .sessionName s => some s
  | _ => none

/-- What the line stores as the address of the session, if anything. -/
def connectionInformation? : SdpLine → Option (Option ConnectionInformation)
  | .connection c => some (some c)
  | _ => none

/-- What the line stores as the information, if anything. -/
def sessionInformation? : SdpLine → Option (Option String)
  | .information s => some (some s)
  | _ => none

/-- What the line stores as the URI, if anything. -/
def uri? : SdpLine → Option (Option String)
  | .uri s => some (some s)
  | _ => none

/-- What the line stores as the e-mail address, if anything. -/
def emailAddress? : SdpLine → Option (Option String)
  | .emailAddress s => some (some s)
  | _ => none

/-- What the line stores as the phone number, if anything. -/
def phoneNumber? : SdpLine → Option (Option String)
  | .phoneNumber s => some (some s)
  | _ => none

/-- **Lines without effect** on two descriptions that differ in all they can set say nothing. -/
theorem saysNothing_of_storeLines {lines : List SdpLine} {sdp₁ sdp₂ : SessionDescription}
    (h₁ : storeLines lines sdp₁ = .ok sdp₁) (h₂ : storeLines lines sdp₂ = .ok sdp₂)
    (hmedia₁ : sdp₁.media = []) (hmedia₂ : sdp₂.media = []) (horigin : sdp₁.origin ≠ sdp₂.origin)
    (hname : sdp₁.sessionName ≠ sdp₂.sessionName)
    (hinfo : sdp₁.sessionInformation ≠ sdp₂.sessionInformation) (huri : sdp₁.uri ≠ sdp₂.uri)
    (hemail : sdp₁.emailAddress ≠ sdp₂.emailAddress) (hphone : sdp₁.phoneNumber ≠ sdp₂.phoneNumber)
    (hconn : sdp₁.connectionInformation ≠ sdp₂.connectionInformation) :
    ∀ line ∈ lines, SaysNothing line := by
  have hgrows := not_grows_of_storeLines h₁ (Nat.le_refl _)
  have hslot : ∀ {α : Type} (get : SessionDescription → α) (set? : SdpLine → Option α),
      (∀ line sdp, get (setting line sdp) = (set? line).getD (get sdp)) → get sdp₁ ≠ get sdp₂ →
        ∀ line ∈ lines, set? line = none := by
    intro α get set? hset hne
    refine set?_eq_none (fun line sdp sdp' hline hmedia h => ?_) hgrows hmedia₁ hmedia₂ h₁ h₂ hne
    rw [store_eq_setting hline hmedia h]
    refine ⟨?_, hset line sdp⟩
    cases line <;> exact hmedia
  intro line hline
  cases line with
  | attr _ | bandwidth _ | time _ | repeatTimes _ | media _ => cases hgrows _ hline
  | version => exact .inl rfl
  | skipped => exact .inr rfl
  | origin o =>
    have hnone := hslot (·.origin) origin? (by rintro (_ | _) _ <;> rfl) horigin _ hline
    cases hnone
  | sessionName s =>
    have hnone := hslot (·.sessionName) sessionName? (by rintro (_ | _) _ <;> rfl) hname _ hline
    cases hnone
  | connection c =>
    have hnone := hslot (·.connectionInformation) connectionInformation?
      (by rintro (_ | _) _ <;> rfl) hconn _ hline
    cases hnone
  | information s =>
    have hnone := hslot (·.sessionInformation) sessionInformation?
      (by rintro (_ | _) _ <;> rfl) hinfo _ hline
    cases hnone
  | uri s =>
    have hnone := hslot (·.uri) uri? (by rintro (_ | _) _ <;> rfl) huri _ hline
    cases hnone
  | emailAddress s =>
    have hnone := hslot (·.emailAddress) emailAddress? (by rintro (_ | _) _ <;> rfl) hemail _ hline
    cases hnone
  | phoneNumber s =>
    have hnone := hslot (·.phoneNumber) phoneNumber? (by rintro (_ | _) _ <;> rfl) hphone _ hline
    cases hnone

/-! ### Values that say nothing -/

/-- An uninterpreted line is skipped wherever its value is empty. -/
theorem gives_uninterpreted {field : SdpField} (h : uninterpreted field) (rest : Bytes) :
    Gives (parseValue field) (Scanner.new ([] ++ rest)) .skipped rest := by
  rw [parseValue_uninterpreted h]
  exact gives_pure.mpr ⟨rfl, rfl⟩

/-- The version is read and nothing is kept of it. -/
theorem gives_parseVersion (rest : Bytes) :
    Gives (parseValue SdpField.protocolVersion) (Scanner.new ([48] ++ rest)) .version rest := by
  have hread : Reads (parseValue SdpField.protocolVersion) [48] rest .version :=
    Reads.bind_nil (reads_ofScan Scan.reads_mustRead).tryCatch (Reads.pure _ _)
  exact ⟨_, hread _ rfl, remaining_advance (σ := Scanner) rfl⟩

/-- The start of a line stops the skipping of line ends. -/
theorem stops_line {b : UInt8} {value : Bytes} (h : ∀ x ∈ b :: value, isNewline x = false)
    (rest : Bytes) : (b :: value ++ rest).dropWhile isNewline = b :: (value ++ rest) := by
  rw [List.cons_append, List.dropWhile_cons_of_neg (by simp [h b List.mem_cons_self])]

/-- What a silent value is read as. -/
theorem lines_of_silent {value : Bytes} (hsilent : silent value)
    (hvalue : ∀ b ∈ value, isNewline b = false) {behind : Bytes} {more : List (Bytes × SdpLine)}
    (hmore : Lines (behind.dropWhile isNewline) more) :
    ∃ lines : List (Bytes × SdpLine), (∀ line ∈ lines, SaysNothing line.2) ∧
      Lines ((value ++ 13 :: 10 :: behind).dropWhile isNewline) (lines ++ more) := by
  induction value using silent.induct with
  | case1 => exact ⟨[], List.forall_mem_nil _, hmore⟩
  | case2 rest ih =>
    obtain ⟨lines, hlines, hread⟩ := ih hsilent fun b hb => hvalue b (by simp [hb])
    refine ⟨([118, 61, 48], .version) :: lines, List.forall_mem_cons.mpr ⟨.inl rfl, hlines⟩, ?_⟩
    rw [stops_line hvalue]
    exact .cons (gives_parseVersion _) hread
  | case3 field rest hversion ih =>
    rw [silent, Bool.and_eq_true] at hsilent
    · obtain ⟨lines, hlines, hread⟩ := ih hsilent.2 fun b hb => hvalue b (by simp [hb])
      refine ⟨([field, 61], .skipped) :: lines, List.forall_mem_cons.mpr ⟨.inr rfl, hlines⟩, ?_⟩
      rw [stops_line hvalue]
      exact .cons (gives_uninterpreted hsilent.1 _) hread
    · exact hversion
  | case4 value hnil hversion hfield =>
    rw [silent] at hsilent
    · cases hsilent
    · exact hnil
    · exact hversion
    · exact hfield

/-- The first of some lines that say nothing. -/
theorem exists_left_of_lines {field : SdpField} {text : Bytes} {lines : List (Bytes × SdpLine)}
    (h : Lines (field :: 61 :: text) lines) (hlines : ∀ line ∈ lines, SaysNothing line.2) :
    ∃ left more, ((field = 118 ∧ text = 48 :: left) ∨ (uninterpreted field ∧ text = left)) ∧
      Lines (left.dropWhile isNewline) more ∧ ∀ line ∈ more, SaysNothing line.2 := by
  generalize htext : field :: 61 :: text = whole at h
  cases h with
  | nil => cases htext
  | @cons field' value rest line more hvalue hmore =>
    injection htext with hfield htext
    injection htext with _ htext
    subst hfield htext
    obtain ⟨hline, hlines⟩ := List.forall_mem_cons.mp hlines
    exact ⟨rest, more, gives_saysNothing hline hvalue, hmore, hlines⟩

/-- A value whose lines say nothing is silent. -/
theorem silent_of_lines {value : Bytes} (hvalue : ∀ b ∈ value, isNewline b = false)
    {lines : List (Bytes × SdpLine)}
    (h : Lines ((value ++ [13, 10]).dropWhile isNewline) lines)
    (hlines : ∀ line ∈ lines, SaysNothing line.2) : silent value := by
  induction value using silent.induct generalizing lines with
  | case1 => rfl
  | case2 rest ih =>
    rw [stops_line hvalue] at h
    obtain ⟨left, more, ⟨-, htext⟩ | ⟨hfield, -⟩, hmore, hsilent⟩ := exists_left_of_lines h hlines
    · rw [← (List.cons.inj htext).2] at hmore
      exact ih (fun b hb => hvalue b (by simp [hb])) hmore hsilent
    · exact absurd hfield (by decide)
  | case3 field rest hversion ih =>
    rw [stops_line hvalue] at h
    obtain ⟨left, more, ⟨rfl, htext⟩ | ⟨hfield, rfl⟩, hmore, hsilent⟩ :=
      exists_left_of_lines h hlines
    · -- a version would be read
      cases rest with
      | nil => cases htext
      | cons b rest => exact absurd (by rw [(List.cons.inj htext).1]) (hversion rest rfl)
    · rw [silent, hfield, Bool.true_and]
      · exact ih (fun b hb => hvalue b (by simp [hb])) hmore hsilent
      · exact hversion
  | case4 value hnil hversion hfield =>
    exfalso
    cases value with
    | nil => exact hnil rfl
    | cons b value =>
      rw [stops_line hvalue] at h
      -- no equals sign follows the letter
      generalize htext : b :: (value ++ [13, 10]) = whole at h
      cases h with
      | nil => cases htext
      | @cons field' value' rest line more _ _ =>
        injection htext with _ htext
        cases value with
        | nil => cases htext
        | cons d value => exact hfield b value (by rw [(List.cons.inj htext).1])

/-! ### Lines that can be put into a text -/

/-- A line can start behind `before`: there is a line end, or nothing at all. -/
def LineStart (before behind : Bytes) : Prop :=
  if before = [] then ∀ b ∈ behind.head?, isNewline b = false
  else ∀ b ∈ before.getLast?, isNewline b

/-- Wherever the line is put into a text that is accepted, it changes nothing.  A time zone is put
    behind the times. -/
def CanBeInserted (field : SdpField) (value : Bytes) : Prop :=
  ∀ (localIp : IpAddr) (before behind : Bytes) (sdp₀ sdp : SessionDescription),
    LineStart before behind → parse localIp before = .ok sdp₀ →
      (field = SdpField.timeZoneOffset → sdp₀.time ≠ []) →
        parse localIp (before ++ behind) = .ok sdp →
          parse localIp (before ++ field :: 61 :: (value ++ 13 :: 10 :: behind)) = .ok sdp

/-- The lines of a text, from where a line can start. -/
theorem lines_lineStart_iff {before behind : Bytes} {lines₀ lines : List (Bytes × SdpLine)}
    (hstart : LineStart before behind) (h : Lines before lines₀) :
    Lines (before ++ behind) lines ↔
      ∃ more, Lines (behind.dropWhile isNewline) more ∧ lines = lines₀ ++ more := by
  by_cases hbefore : before = []
  · subst hbefore
    have hdrop : behind.dropWhile isNewline = behind :=
      Stops.dropWhile_eq (show Stops isNewline behind by simpa [LineStart, Stops] using hstart)
    rw [lines_nil h, hdrop]
    simp
  · rw [LineStart, if_neg hbefore] at hstart
    exact lines_append_iff h hbefore hstart

/-- What the lines from there on do. -/
theorem storeLines_lineStart {lines₀ more : List (Bytes × SdpLine)}
    {sdp sdp₀ : SessionDescription} (h : storeLines (lines₀.map Prod.snd) sdp = .ok sdp₀) :
    storeLines ((lines₀ ++ more).map Prod.snd) sdp = storeLines (more.map Prod.snd) sdp₀ := by
  rw [List.map_append, storeLines_append h]

section

variable {field : SdpField} {value : Bytes} (hfield : uninterpreted field)
  (hletter : isNewline field = false)

include hfield hletter

/-- A line with a silent value can be put anywhere. -/
theorem canBeInserted_of_silent (hvalue : ∀ b ∈ value, isNewline b = false)
    (hsilent : silent value) : CanBeInserted field value := by
  intro localIp before behind sdp₀ sdp hstart hbefore _ hparse
  obtain ⟨lines₀, hlines₀, hstore₀⟩ := parse_eq_ok_iff.mp hbefore
  obtain ⟨lines, hlines, hstore⟩ := parse_eq_ok_iff.mp hparse
  obtain ⟨more, hmore, rfl⟩ := (lines_lineStart_iff hstart hlines₀).mp hlines
  rw [storeLines_lineStart hstore₀] at hstore
  obtain ⟨inserted, hinserted, hread⟩ := lines_of_silent hsilent hvalue hmore
  -- the line is read in front of what was there
  have hline : Lines (field :: 61 :: (value ++ 13 :: 10 :: behind))
      (([field, 61], .skipped) :: (inserted ++ more)) := .cons (gives_uninterpreted hfield _) hread
  have hstart' : LineStart before (field :: 61 :: (value ++ 13 :: 10 :: behind)) := by
    unfold LineStart at hstart ⊢
    split
    · rintro b ⟨⟩
      exact hletter
    · rename_i hne
      rwa [if_neg hne] at hstart
  have hdrop : (field :: 61 :: (value ++ 13 :: 10 :: behind)).dropWhile isNewline =
      field :: 61 :: (value ++ 13 :: 10 :: behind) :=
    List.dropWhile_cons_of_neg (by simp [hletter])
  have hlines' := (lines_lineStart_iff hstart' hlines₀).mpr ⟨_, hdrop.symm ▸ hline, rfl⟩
  refine parse_eq_ok_iff.mpr ⟨_, hlines', ?_⟩
  have hsilent' : ∀ line ∈ SdpLine.skipped :: inserted.map Prod.snd, SaysNothing line := by
    refine List.forall_mem_cons.mpr ⟨.inr rfl, fun line hline => ?_⟩
    obtain ⟨read, hread, rfl⟩ := List.mem_map.mp hline
    exact hinserted read hread
  rw [storeLines_lineStart hstore₀, ← List.cons_append, List.map_append, List.map_cons,
    storeLines_append (storeLines_saysNothing hsilent' sdp₀)]
  exact hstore

/-- A line that can be inserted leaves a description as it is. -/
theorem storeLines_of_canBeInserted (h : CanBeInserted field value) {localIp : IpAddr}
    {before : Bytes} {sdp : SessionDescription} (hbefore : parse localIp before = .ok sdp)
    (hne : before ≠ []) (hlast : ∀ b ∈ before.getLast?, isNewline b) (htime : sdp.time ≠ []) :
    ∃ lines : List (Bytes × SdpLine), Lines ((value ++ [13, 10]).dropWhile isNewline) lines ∧
      storeLines (lines.map Prod.snd) sdp = .ok sdp := by
  obtain ⟨lines₀, hlines₀, hstore₀⟩ := parse_eq_ok_iff.mp hbefore
  have hparse := h localIp before [] sdp sdp (by rwa [LineStart, if_neg hne]) hbefore
    (fun _ => htime) (by rwa [List.append_nil])
  obtain ⟨lines, hlines, hstore⟩ := parse_eq_ok_iff.mp hparse
  obtain ⟨more, hmore, rfl⟩ := (lines_append_iff hlines₀ hne hlast).mp hlines
  rw [storeLines_lineStart hstore₀] at hstore
  rw [List.dropWhile_cons_of_neg (by simp [hletter])] at hmore
  obtain ⟨read, hread, rfl⟩ := (lines_cons_iff (gives_uninterpreted hfield _)).mp hmore
  refine ⟨read, hread, ?_⟩
  rw [List.map_cons, storeLines, List.foldlM_cons] at hstore
  exact hstore

end

/-- A session that has been given little. -/
def littleSession : Bytes := asBytes "s=x\r\nt=0 0\r\n"

/-- A session that has been given everything but media. -/
def fullSession : Bytes :=
  asBytes "s=y\r\ni=y\r\nu=y\r\ne=y\r\np=y\r\nc=IN IP4 10.0.0.1\r\nt=0 0\r\n"

/-- What the session with little in it is parsed as. -/
theorem parse_littleSession : parse (.v4 ⟨10, 0, 0, 1⟩) littleSession =
    .ok { origin := { unicastAddress := .v4 ⟨10, 0, 0, 1⟩ },
          sessionName := "x",
          time := [{ timeActive := ⟨0, 0⟩ }] } := by
  decide +kernel

/-- What the session with everything but media is parsed as. -/
theorem parse_fullSession : parse (.v4 ⟨10, 0, 0, 2⟩) fullSession =
    .ok { origin := { unicastAddress := .v4 ⟨10, 0, 0, 2⟩ },
          sessionName := "y",
          sessionInformation := some "y",
          uri := some "y",
          emailAddress := some "y",
          phoneNumber := some "y",
          connectionInformation := some ⟨.internet, .ip4, .v4 ⟨10, 0, 0, 1⟩⟩,
          time := [{ timeActive := ⟨0, 0⟩ }] } := by
  decide +kernel

/-- **A line that is not interpreted** can be put into every text if and only if its value says
    nothing. -/
theorem skipped_iff {field : SdpField} {value : Bytes} (hfield : uninterpreted field)
    (hletter : isNewline field = false) (hvalue : ∀ b ∈ value, isNewline b = false) :
    CanBeInserted field value ↔ silent value := by
  refine ⟨fun h => ?_, canBeInserted_of_silent hfield hletter hvalue⟩
  obtain ⟨lines, hlines, hlittle⟩ := storeLines_of_canBeInserted hfield hletter h
    parse_littleSession (by decide) (by decide) (List.cons_ne_nil _ _)
  obtain ⟨lines', hlines', hfull⟩ := storeLines_of_canBeInserted hfield hletter h
    parse_fullSession (by decide) (by decide) (List.cons_ne_nil _ _)
  have heq : lines = lines' := by
    have hread := readLines_eq_some_iff.mpr hlines
    rw [readLines_eq_some_iff.mpr hlines'] at hread
    exact (Option.some.inj hread).symm
  subst heq
  have hnothing := saysNothing_of_storeLines hlittle hfull rfl rfl (by decide) (by decide)
    (by decide) (by decide) (by decide) (by decide) (by decide)
  exact silent_of_lines hvalue hlines fun line hline => hnothing _ (List.mem_map_of_mem hline)

/-- A time zone that is read as a protocol version. -/
theorem skipped_iff_version : CanBeInserted SdpField.timeZoneOffset (asBytes "v=0") ↔
    silent (asBytes "v=0") :=
  skipped_iff (by decide) (by decide) (by decide)

/-- The times of a time zone are read as a line of their own, and the text that was accepted is
    turned down. -/
theorem not_skipped : ¬ ∀ (field : SdpField) (value : Bytes), uninterpreted field →
    isNewline field = false → (∀ b ∈ value, isNewline b = false) → CanBeInserted field value := by
  intro h
  have hzone := h SdpField.timeZoneOffset (asBytes "0 -1h") (by decide) (by decide) (by decide)
  have hparse := hzone (.v4 ⟨10, 0, 0, 1⟩) littleSession [] _ _ (by unfold LineStart; decide)
    parse_littleSession (fun _ => List.cons_ne_nil _ _)
    ((List.append_nil littleSession).symm ▸ parse_littleSession)
  have herror : parse (.v4 ⟨10, 0, 0, 1⟩) (littleSession ++
      SdpField.timeZoneOffset :: 61 :: (asBytes "0 -1h" ++ [13, 10])) ≠ parse (.v4 ⟨10, 0, 0, 1⟩) littleSession := by
    decide +kernel
  exact herror (hparse.trans parse_littleSession.symm)

end SdpParser

end Rssip.Media
