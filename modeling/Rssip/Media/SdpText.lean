import Rssip.Media.SdpConfined

namespace Rssip.Media

open Lib

/-!
# A text and its lines

What a text says is said by its lines, one after the other.

* `Lines` — the lines that a text is read as, with the bytes of each;
* `parse_eq_ok_iff` — the parser stores the lines of its text, one after the other.
-/

namespace SdpParser

/-! ### The lines of a text -/

/-- The lines that a text is read as, each with its bytes up to the line end. -/
inductive Lines : Bytes → List (Bytes × SdpLine) → Prop where
  | nil : Lines [] []
  | cons {field : SdpField} {value rest : Bytes} {line : SdpLine} {lines : List (Bytes × SdpLine)}
      (hvalue : Gives (parseValue field) (Scanner.new (value ++ rest)) line rest)
      (hlines : Lines (rest.dropWhile isNewline) lines) :
      Lines (field :: 61 :: (value ++ rest)) ((field :: 61 :: value, line) :: lines)

/-- One line of the loop; `step` says what becomes of `a` by it. -/
def lineBody {γ : Type} (step : γ → Bytes × SdpLine → Except Error γ) (a : γ) : Parse (γ ⊕ γ) := do
  if (← get).isEof then return .inr a
  let before ← get
  let field ← readField
  let line ← parseValue field
  let behind ← get
  match step a (before.remaining.take (before.remaining.length - behind.remaining.length), line) with
  | .ok a =>
    handleNewLine
    return .inl a
  | .error e => fail e

/-- The loop over the lines. -/
def foldLines {γ : Type} (step : γ → Bytes × SdpLine → Except Error γ) (a : γ) : Parse γ :=
  loop .stuck (lineBody step) a

theorem parseLine_eq (sdp : SessionDescription) :
    parseLine sdp = lineBody (fun sdp line => line.2.store sdp) sdp := by
  refine congrArg (MonadState.get >>= ·) (funext fun c => ite_congr rfl (fun _ => rfl) fun _ => ?_)
  have hget : ∀ {γ : Type} (r : Parse γ), (MonadState.get >>= fun _ : Scanner => r) = r :=
    fun _ => rfl
  simp only [hget, parseField_eq, bind_assoc]
  refine congrArg (readField >>= ·) (funext fun field => ?_)
  refine congrArg (parseValue field >>= ·) (funext fun line => ?_)
  rw [storeLine]
  cases line.store sdp with
  | ok sdp => rfl
  | error e => rfl

theorem readField_eq_ok_iff {field : SdpField} {c c' : Scanner} :
    readField c = .ok field c' ↔ ∃ rest, c.remaining = field :: 61 :: rest ∧
      c' = Lib.advance c [field, 61] := by
  constructor
  · intro h
    obtain ⟨b, c₁, hnext, h'⟩ := bind_eq_ok_iff.mp h
    obtain ⟨_, c₂, hequals, h'⟩ := bind_eq_ok_iff.mp h'
    injection h' with hb hc
    have h₁ := gives_nextByte.mp ⟨c₁, ofScan_eq_ok_iff.mp hnext, rfl⟩
    have h₂ := gives_mustRead.mp ⟨c₂, ofScan_eq_ok_iff.mp hequals, rfl⟩
    have hrem : c.remaining = [field, 61] ++ Cursor.remaining c₂ := by
      rw [h₁, hb, show Cursor.remaining c₁ = _ from h₂]
      rfl
    rw [reads_readField c hrem] at h
    injection h with _ hc'
    exact ⟨_, hrem, hc'.symm⟩
  · rintro ⟨rest, hrest, rfl⟩
    exact reads_readField c hrest

/-- The scanner is not behind the end of its buffer. -/
abbrev InText : Scanner → Prop := InBuffer fun _ => True

theorem handleNewLine_run (c : Scanner) :
    handleNewLine c = .ok () (Lib.advance c (c.remaining.takeWhile isNewline)) :=
  bind_eq_ok_iff.mpr ⟨_, _, scanWhile_run isNewline c, rfl⟩

/-- The bytes of a line, from what remains in front of it and behind it. -/
theorem take_line {text value rest : Bytes} (h : text = value ++ rest) :
    text.take (text.length - rest.length) = value := by
  rw [h, List.length_append, Nat.add_sub_cancel, List.take_left]

variable {γ : Type} {step : γ → Bytes × SdpLine → Except Error γ} {a a' : γ}

/-- An iteration that is not the last one reads a line. -/
theorem lineBody_eq_ok {c c' : Scanner} (hc : InText c)
    (h : lineBody step a c = .ok (.inl a') c') : ∃ field value rest line,
      c.remaining = field :: 61 :: (value ++ rest) ∧
        Gives (parseValue field) (Scanner.new (value ++ rest)) line rest ∧
          step a (field :: 61 :: value, line) = .ok a' ∧
            c'.remaining = rest.dropWhile isNewline ∧ InText c' := by
  have h := get_bind_eq_ok_iff.mp h
  split at h
  · injection h with h
    cases h
  · obtain ⟨field, c₁, hfield, h⟩ := bind_eq_ok_iff.mp (get_bind_eq_ok_iff.mp h)
    obtain ⟨line, c₂, hvalue, h⟩ := bind_eq_ok_iff.mp h
    have h := get_bind_eq_ok_iff.mp h
    obtain ⟨rest₁, hrem, -⟩ := readField_eq_ok_iff.mp hfield
    obtain ⟨-, hc₁⟩ := scans_readField _ _ _ hc hfield
    obtain ⟨-, hc₂⟩ := scans_parseValue _ _ _ _ hc₁ hvalue
    have hrem₁ : Cursor.remaining c₁ = rest₁ := by
      obtain ⟨rest, hrest, rfl⟩ := readField_eq_ok_iff.mp hfield
      rw [remaining_advance (σ := Scanner) (show Cursor.remaining c = [field, 61] ++ rest from hrest)]
      rw [hrem] at hrest
      exact ((List.cons.inj (List.cons.inj hrest).2).2).symm
    obtain ⟨value, hsplit⟩ := suffix_of_gives ⟨c₂, hvalue, rfl⟩
    rw [show c₁.remaining = rest₁ from hrem₁] at hsplit
    have hline : c.remaining = field :: 61 :: value ++ Cursor.remaining c₂ := by
      rw [hrem, ← hsplit]
      rfl
    have htake := take_line hline
    rw [show c₂.remaining = Cursor.remaining c₂ from rfl, htake] at h
    refine ⟨field, value, Cursor.remaining c₂, line, by rw [hrem, hsplit], ?_, ?_⟩
    · refine placeless_parseValue field c₁ _ ?_ line _ ⟨c₂, hvalue, rfl⟩
      rw [hrem₁, ← hsplit]
      rfl
    · cases hstep : step a (field :: 61 :: value, line) with
      | error e =>
        rw [hstep] at h
        cases h
      | ok a₁ =>
        rw [hstep] at h
        obtain ⟨_, c₃, hnewline, h⟩ := bind_eq_ok_iff.mp h
        obtain ⟨-, hc₃⟩ := scans_handleNewLine _ _ _ hc₂ hnewline
        rw [handleNewLine_run] at hnewline
        injection hnewline with _ hc₃'
        injection h with ha hc'
        rw [← Sum.inl.inj ha, ← hc']
        refine ⟨rfl, ?_, hc₃⟩
        rw [← hc₃']
        exact remaining_scanWhile isNewline c₂

/-- The last iteration is at the end. -/
theorem lineBody_eq_ok_inr {b : γ} {c c' : Scanner} (h : lineBody step a c = .ok (.inr b) c') :
    c.isEof ∧ a = b := by
  have h := get_bind_eq_ok_iff.mp h
  split at h
  · rename_i heof
    injection h with h
    exact ⟨heof, Sum.inr.inj h⟩
  · obtain ⟨field, c₁, -, h⟩ := bind_eq_ok_iff.mp (get_bind_eq_ok_iff.mp h)
    obtain ⟨line, c₂, -, h⟩ := bind_eq_ok_iff.mp h
    have h := get_bind_eq_ok_iff.mp h
    generalize step a _ = out at h
    cases out with
    | error e => cases h
    | ok a' =>
      obtain ⟨_, c₃, -, h⟩ := bind_eq_ok_iff.mp h
      injection h with h
      cases h

/-- Where a line stands, an iteration reads it. -/
theorem lineBody_ok {c : Scanner} (hc : InText c) {field : SdpField} {value rest : Bytes}
    {line : SdpLine} (hrem : c.remaining = field :: 61 :: (value ++ rest))
    (hvalue : Gives (parseValue field) (Scanner.new (value ++ rest)) line rest)
    (hstep : step a (field :: 61 :: value, line) = .ok a') :
    ∃ c', lineBody step a c = .ok (.inl a') c' ∧ c'.remaining = rest.dropWhile isNewline ∧
      InText c' := by
  have hfield : readField c = .ok field (Lib.advance c [field, 61]) :=
    readField_eq_ok_iff.mpr ⟨_, hrem, rfl⟩
  obtain ⟨-, hc₁⟩ := scans_readField _ _ _ hc hfield
  have hrem₁ : Cursor.remaining (Lib.advance c [field, 61]) = value ++ rest :=
    remaining_advance (σ := Scanner) (show Cursor.remaining c = [field, 61] ++ (value ++ rest) from hrem)
  obtain ⟨c₂, hrun, hrem₂⟩ := placeless_parseValue field _ (Lib.advance c [field, 61])
    hrem₁.symm line rest hvalue
  obtain ⟨-, hc₂⟩ := scans_parseValue _ _ _ _ hc₁ hrun
  obtain ⟨-, hc₃⟩ := scans_handleNewLine _ _ _ hc₂ (handleNewLine_run c₂)
  refine ⟨Lib.advance c₂ (c₂.remaining.takeWhile isNewline), ?_, ?_, hc₃⟩
  · have heof : ¬ c.isEof := by
      rw [hc.isEof_iff, hrem]
      exact List.cons_ne_nil _ _
    have htake : c.remaining.take (c.remaining.length - c₂.remaining.length) =
        field :: 61 :: value :=
      take_line (by rw [hrem, show c₂.remaining = rest from hrem₂]; rfl)
    refine get_bind_eq_ok_iff.mpr ?_
    rw [if_neg heof]
    refine get_bind_eq_ok_iff.mpr (bind_eq_ok_iff.mpr ⟨field, _, hfield, ?_⟩)
    refine bind_eq_ok_iff.mpr ⟨line, c₂, hrun, get_bind_eq_ok_iff.mpr ?_⟩
    rw [htake, hstep]
    exact bind_eq_ok_iff.mpr ⟨(), _, handleNewLine_run c₂, rfl⟩
  · rw [← show c₂.remaining = rest from hrem₂]
    exact remaining_scanWhile isNewline c₂

/-- **The loop over the lines** of a text folds them. -/
theorem foldLines_eq_ok_iff {b : γ} {text : Bytes} :
    (∃ c, foldLines step a (Scanner.new text) = .ok b c) ↔
      ∃ lines, Lines text lines ∧ lines.foldlM step a = .ok b := by
  have hnew : InText (Scanner.new text) := InBuffer.new fun _ _ => trivial
  constructor
  · rintro ⟨c, h⟩
    have hlines : InText (Scanner.new text) →
        ∃ lines, Lines (Scanner.new text).remaining lines ∧ lines.foldlM step a = .ok b := by
      apply loop_ok (P := fun a c b _ => InText c →
        ∃ lines, Lines c.remaining lines ∧ lines.foldlM step a = .ok b) _ _ h
      · -- at the end of the text
        intro a c b c' hbody hc
        obtain ⟨heof, rfl⟩ := lineBody_eq_ok_inr hbody
        rw [hc.isEof_iff.mp heof]
        exact ⟨[], .nil, rfl⟩
      · -- behind a line
        intro a c a' c₁ b c' hbody ih hc
        obtain ⟨field, value, rest, line, hrem, hvalue, hstep, hrest, hc₁⟩ := lineBody_eq_ok hc hbody
        obtain ⟨lines, hlines, hfold⟩ := ih hc₁
        rw [hrest] at hlines
        refine ⟨(field :: 61 :: value, line) :: lines, hrem ▸ .cons hvalue hlines, ?_⟩
        rw [List.foldlM_cons, hstep]
        exact hfold
    exact hlines hnew
  · rintro ⟨lines, hlines, hfold⟩
    have hloop : ∀ fuel, text.length < fuel → ∀ c : Scanner, InText c → c.remaining = text →
        ∃ c', loopN .stuck (lineBody step) fuel a c = .ok b c' := by
      clear hnew
      induction hlines generalizing a with
      | nil =>
        intro fuel hfuel c hc hrem
        obtain ⟨fuel, rfl⟩ : ∃ n, fuel = n + 1 := ⟨fuel - 1, by omega⟩
        obtain rfl := Except.ok.inj hfold
        refine ⟨c, loopN_of_inr ?_ fuel⟩
        refine get_bind_eq_ok_iff.mpr ?_
        rw [if_pos (hc.isEof_iff.mpr hrem)]
        rfl
      | @cons field value rest line lines hvalue hlines ih =>
        intro fuel hfuel c hc hrem
        obtain ⟨fuel, rfl⟩ : ∃ n, fuel = n + 1 := ⟨fuel - 1, by omega⟩
        rw [List.foldlM_cons] at hfold
        obtain ⟨a', hstep, hfold⟩ := except_bind_eq_ok_iff.mp hfold
        obtain ⟨c₁, hbody, hrem₁, hc₁⟩ := lineBody_ok hc hrem hvalue hstep
        have hle := (List.dropWhile_suffix isNewline (l := rest)).length_le
        simp only [List.length_cons, List.length_append] at hfuel
        obtain ⟨c', hrun⟩ := ih hfold fuel (by omega) c₁ hc₁ hrem₁
        exact ⟨c', bind_eq_ok_iff.mpr ⟨_, c₁, hbody, hrun⟩⟩
    exact hloop _ (Nat.lt_succ_self _) _ hnew rfl

/-- **The parser** stores the lines of its text, one after the other. -/
theorem parse_eq_ok_iff {localIp : IpAddr} {text : Bytes} {sdp : SessionDescription} :
    parse localIp text = .ok sdp ↔ ∃ lines, Lines text lines ∧
      storeLines (lines.map Prod.snd) (SessionDescription.default localIp) = .ok sdp := by
  have hparse : parseSdp localIp =
      foldLines (fun sdp line => line.2.store sdp) (SessionDescription.default localIp) := by
    rw [parseSdp, show parseLine = _ from funext parseLine_eq, foldLines]
  have hfold : ∀ lines : List (Bytes × SdpLine),
      storeLines (lines.map Prod.snd) (SessionDescription.default localIp) =
        lines.foldlM (fun sdp line => line.2.store sdp) (SessionDescription.default localIp) :=
    fun lines => List.foldlM_map
  simp only [hfold, ← foldLines_eq_ok_iff, ← hparse, parse]
  cases parseSdp localIp (Scanner.new text) with
  | ok sdp' c => simp
  | error e c => simp

/-- The lines of a text. -/
def readLines (text : Bytes) : Option (List (Bytes × SdpLine)) :=
  match foldLines (fun lines line => .ok (lines ++ [line])) [] (Scanner.new text) with
  | .ok lines _ => some lines
  | .error _ _ => none

theorem readLines_eq_some_iff {text : Bytes} {lines : List (Bytes × SdpLine)} :
    readLines text = some lines ↔ Lines text lines := by
  have hfold : ∀ lines done : List (Bytes × SdpLine),
      lines.foldlM (fun lines line => (.ok (lines ++ [line]) : Except Error _)) done =
        .ok (done ++ lines) := by
    intro lines
    induction lines with
    | nil => exact fun done => congrArg Except.ok (List.append_nil done).symm
    | cons line lines ih =>
      intro done
      rw [List.foldlM_cons]
      exact (ih _).trans (by rw [List.append_assoc]; rfl)
  have hiff :
      (∃ c, foldLines (fun lines line => .ok (lines ++ [line])) [] (Scanner.new text) = .ok lines c) ↔ _ :=
    foldLines_eq_ok_iff
  simp only [hfold, List.nil_append, Except.ok.injEq, exists_eq_right] at hiff
  rw [← hiff, readLines]
  cases foldLines _ _ _ with
  | ok lines' c => simp
  | error e c => simp

end SdpParser

end Rssip.Media
