import Rssip.Lib.Yields
import Rssip.Media.SdpConfined

namespace Rssip.Media

open Lib

/-!
# Lines that are read across their ends

A network type is looked for up to the next blank, and the end of the line does not stop that.

* `ReadsInLine` — a parser that reads no line end, with one lemma for each parser but two;
* `gives_parseOrigin`, `gives_parseConnectionInfo` — what these two read;
* `closedValue` — a blank ends the network type in front of the line end;
* `closedValue_iff` — this is what it takes to read no line end.
-/

namespace SdpParser

/-! ### What is read of a line -/

/-- A parser that reads no line end. -/
abbrev ReadsInLine {ε α : Type} (r : EStateM ε Scanner α) : Prop :=
  ReadsOver (fun text : Bytes => ∀ b ∈ text, isNewline b = false) r

variable {α : Type}

/-- What a parser without line ends has consumed is a text without line ends. -/
theorem ReadsInLine.exists_text {ε : Type} {r : EStateM ε Scanner α} (h : ReadsInLine r)
    {c c' : Scanner} {a : α} (hr : r c = .ok a c') :
    ∃ text, c.remaining = text ++ c'.remaining ∧ ∀ b ∈ text, isNewline b = false :=
  ReadsOver.exists_text (List.forall_mem_nil _) h hr

/-- Conversely, a parser all whose consumed texts are without line ends reads none. -/
theorem readsInLine_of_text {ε : Type} {r : EStateM ε Scanner α}
    (h : ∀ {c a c'}, r c = .ok a c' →
      ∃ text, Cursor.remaining c = text ++ Cursor.remaining c' ∧ ∀ b ∈ text, isNewline b = false) :
    ReadsInLine r :=
  ReadsOver.of_text (fun hx hy => List.forall_mem_append.mpr ⟨hx, hy⟩) h

/-- A byte that an excluding predicate admits ends no line. -/
theorem not_isNewline {predicate : UInt8 → Bool} (h : Excludes isNewline predicate) {b : UInt8}
    (hb : predicate b) : isNewline b = false := by
  by_contra hnewline
  rw [h b (by simpa using hnewline)] at hb
  cases hb

/-- A scan whose predicate admits no line end reads none. -/
theorem readsInLine_scanWhile {ε : Type} {predicate : UInt8 → Bool}
    (h : Excludes isNewline predicate) :
    ReadsInLine (modifyGet (Scanner.scanWhile predicate) : EStateM ε Scanner Bytes) := by
  apply readsInLine_of_text
  intro c text c' hscan
  obtain ⟨htext, hrem⟩ := gives_scanWhile.mp ⟨c', hscan, rfl⟩
  refine ⟨text, ?_, fun b hb => not_isNewline h (of_mem_takeWhile (htext ▸ hb))⟩
  rw [hrem, htext]
  exact List.takeWhile_append_dropWhile.symm

/-- A single byte under such a predicate is no line end. -/
theorem readsInLine_scanIf {ε : Type} {predicate : UInt8 → Bool} (h : Excludes isNewline predicate) :
    ReadsInLine (modifyGet (Scanner.scanIf predicate) : EStateM ε Scanner (Option UInt8)) := by
  apply readsInLine_of_text
  intro c o c' hscan
  rcases gives_scanIf.mp ⟨c', hscan, rfl⟩ with ⟨b, -, hb, hrem⟩ | ⟨-, -, hrem⟩
  · exact ⟨[b], hrem, List.forall_mem_singleton.mpr (not_isNewline h hb)⟩
  · exact ⟨[], hrem.symm, List.forall_mem_nil _⟩

/-- A string scanned under such a predicate has no line end in it. -/
theorem readsInLine_scanStr {ε : Type} {predicate : UInt8 → Bool} (h : Excludes isNewline predicate) :
    ReadsInLine (modifyGet (Scanner.scanWhileAsStrUnchecked predicate) :
      EStateM ε Scanner String) := by
  rw [scanWhileAsStrUnchecked_eq]
  exact (readsInLine_scanWhile h).map

/-- A scan that fails reads nothing. -/
theorem readsInLine_scanError (kind : ScannerErrorKind) :
    ReadsInLine (Scan.scanError kind : Scan α) := fun _ => Yields.get_bind fun _ => Yields.throw _

/-- A number is digits only. -/
theorem readsInLine_scanUnsigned (bound : Nat) : ReadsInLine (Scan.scanUnsigned bound) := by
  apply ReadsOver.bind (readsInLine_scanStr (excludes_isNewline (by decide)))
  intro digits
  split
  · exact ReadsOver.pure _
  · exact readsInLine_scanError _

/-- To require a byte other than a line end reads no line end. -/
theorem readsInLine_mustRead {b : UInt8} (hb : isNewline b = false) :
    ReadsInLine (Scan.mustRead b) := by
  apply readsInLine_of_text
  intro c _ c' h
  exact ⟨[b], gives_mustRead.mp ⟨c', h, rfl⟩, List.forall_mem_singleton.mpr hb⟩

/-- The checked decoding of a scan reads what the scan reads. -/
theorem readsInLine_scanWhileAsStr {predicate : UInt8 → Bool} (h : Excludes isNewline predicate) :
    ReadsInLine (Scan.scanWhileAsStr predicate) := by
  apply ReadsOver.bind (readsInLine_scanWhile h)
  intro bytes
  split
  · exact ReadsOver.pure _
  · exact readsInLine_scanError _

/-- The parser's use of a scan reads what the scan reads. -/
theorem readsInLine_ofScan {scan : Scan α} (h : ReadsInLine scan) : ReadsInLine (ofScan scan) :=
  fun s c a c' hc hr => h s c a c' hc (ofScan_eq_ok_iff.mp hr)

/-- A parser that fails reads nothing. -/
theorem readsInLine_fail (e : Error) : ReadsInLine (fail e : Parse α) := ReadsOver.throw _

/-- Blanks are blanks and tabs, not line ends. -/
theorem readsInLine_handleWs : ReadsInLine handleWs :=
  (readsInLine_scanWhile (excludes_isNewline (by decide))).bind fun _ => ReadsOver.pure _

/-- A token has no line end in it. -/
theorem readsInLine_readToken : ReadsInLine readToken :=
  readsInLine_scanStr (excludes_isNewline (by decide))

/-- The rest of a line is read up to its end, which stays unread. -/
theorem readsInLine_readLine : ReadsInLine readLine :=
  readsInLine_ofScan (readsInLine_scanWhileAsStr (excludes_isNewline (by decide)))

/-- A 16-bit number is digits only. -/
theorem readsInLine_scanU16 : ReadsInLine (ofScan Scan.scanU16) :=
  readsInLine_ofScan (readsInLine_scanUnsigned _).map

/-- A 64-bit number is digits only. -/
theorem readsInLine_scanU64 : ReadsInLine (ofScan Scan.scanU64) :=
  readsInLine_ofScan (readsInLine_scanUnsigned _).map

/-- A signed number is digits only, since no sign is read. -/
theorem readsInLine_scanI64 : ReadsInLine (ofScan Scan.scanI64) :=
  readsInLine_ofScan (readsInLine_scanUnsigned _).map

/-- To make an address of a text that was read reads nothing more. -/
theorem readsInLine_ipAddr (context text : String) : ReadsInLine (ipAddr context text) := by
  unfold ipAddr
  split
  · exact ReadsOver.pure _
  · exact readsInLine_fail _

/-- A list of elements reads no line end if an element reads none. -/
theorem readsInLine_parseElements {elem : Parse α} (h : ReadsInLine elem) :
    ReadsInLine (parseElements elem) := by
  rw [parseElements_eq]
  apply ReadsOver.loop
  intro elems
  apply ReadsOver.bind (readsInLine_scanIf (excludes_isNewline (by decide)))
  intro blank
  apply ReadsOver.ite (ReadsOver.pure _)
  apply ReadsOver.bind h
  intro e
  have hpeek : ReadsInLine peek := fun _ => Yields.get_bind fun _ => Yields.pure trivial
  apply ReadsOver.bind hpeek
  intro next
  exact (ReadsOver.pure _).ite (ReadsOver.pure _)

/-- The version stays in its line. -/
theorem readsInLine_parseVersion : ReadsInLine parseVersion := by
  intro s c a c' hc h
  have hrun := (tryCatch_eq_ok_iff (E := fun _ => True) fun _ _ => ⟨_, rfl, trivial⟩).mp h
  exact readsInLine_ofScan (readsInLine_mustRead (by decide)) s c a c' hc hrun

/-- An attribute stays in its line, and so does its value. -/
theorem readsInLine_parseAttribute : ReadsInLine parseAttribute := by
  apply ReadsOver.bind readsInLine_readToken
  intro name
  apply ReadsOver.bind (readsInLine_scanIf (excludes_isNewline (by decide)))
  intro colon
  exact (readsInLine_readLine.bind fun _ => ReadsOver.pure _).ite (ReadsOver.pure _)

/-- The two times of a `t` line stay in their line. -/
theorem readsInLine_parseTime : ReadsInLine parseTime := by
  apply ReadsOver.bind readsInLine_scanU64
  intro startTime
  apply ReadsOver.bind (readsInLine_ofScan (readsInLine_mustRead (by decide)))
  intro _
  exact readsInLine_scanU64.bind fun _ => ReadsOver.pure _

/-- The numbers of an `r` line stay in their line. -/
theorem readsInLine_parseRepeatTimes : ReadsInLine parseRepeatTimes := by
  apply ReadsOver.bind readsInLine_scanI64
  intro repeatInterval
  apply ReadsOver.bind readsInLine_handleWs
  intro _
  apply ReadsOver.bind readsInLine_scanI64
  intro activeDuration
  exact (readsInLine_parseElements readsInLine_scanI64).bind fun _ => ReadsOver.pure _

/-- A media line stays in its line if its transport ends there, as the predicate asks here. -/
theorem readsInLine_mediaUpTo : ReadsInLine (mediaUpTo isTransport) := by
  apply ReadsOver.bind readsInLine_readToken
  intro name
  split
  · apply ReadsOver.bind readsInLine_handleWs
    intro _
    apply ReadsOver.bind readsInLine_scanU16
    intro port
    apply ReadsOver.bind readsInLine_handleWs
    intro _
    apply ReadsOver.bind (readsInLine_scanWhile (excludes_isNewline (by decide)))
    intro bytes
    split
    · exact (readsInLine_parseElements readsInLine_readToken).bind fun _ => ReadsOver.pure _
    · exact readsInLine_fail _
  · exact readsInLine_fail _

/-- A bandwidth stays in its line. -/
theorem readsInLine_parseBandwidth : ReadsInLine parseBandwidth := by
  intro s c b c' _ h
  -- no bandwidth is read
  obtain ⟨e, c'', he⟩ := fails_parseBandwidth _ c rfl
  rw [he] at h
  cases h

/-- **Most lines** are read up to their end at most. -/
theorem readsInLine_valueInLine {field : SdpField} (horigin : field ≠ SdpField.origin)
    (hconn : field ≠ SdpField.connectionInformation) : ReadsInLine (valueInLine field) := by
  by_cases hmedia : field = SdpField.mediaDescription
  · rw [valueInLine, if_pos hmedia]
    exact readsInLine_mediaUpTo.map
  rw [valueInLine, if_neg hmedia]
  unfold parseValue
  apply ReadsOver.ite readsInLine_parseAttribute.map
  apply ReadsOver.ite (readsInLine_parseVersion.bind fun _ => ReadsOver.pure _)
  rw [if_neg horigin]
  apply ReadsOver.ite readsInLine_readLine.map
  rw [if_neg hconn]
  apply ReadsOver.ite readsInLine_readLine.map
  apply ReadsOver.ite readsInLine_readLine.map
  apply ReadsOver.ite readsInLine_readLine.map
  apply ReadsOver.ite readsInLine_readLine.map
  apply ReadsOver.ite readsInLine_parseBandwidth.map
  apply ReadsOver.ite readsInLine_parseTime.map
  apply ReadsOver.ite readsInLine_parseRepeatTimes.map
  apply ReadsOver.ite (ReadsOver.pure _)
  rw [if_neg hmedia]
  exact ReadsOver.pure _

/-! ### What stands behind some scans -/

/-- What is left of a text by one scan after the other. -/
def dropAll (tables : List (UInt8 → Bool)) (text : Bytes) : Bytes :=
  tables.foldl (fun text predicate => text.dropWhile predicate) text

/-- Scans leave no more than there was. -/
theorem length_dropAll_le (tables : List (UInt8 → Bool)) (text : Bytes) :
    (dropAll tables text).length ≤ text.length := by
  induction tables generalizing text with
  | nil => exact Nat.le_refl _
  | cons predicate tables ih =>
    exact (ih _).trans (List.dropWhile_suffix predicate).length_le

/-- As long as something of `text` is left, what follows it does not matter. -/
theorem dropAll_append {tables : List (UInt8 → Bool)} {text left : Bytes}
    (h : left.length < (dropAll tables (text ++ left)).length) :
    dropAll tables (text ++ left) = dropAll tables text ++ left := by
  induction tables generalizing text with
  | nil => rfl
  | cons predicate tables ih =>
    have hlength : left.length < ((text ++ left).dropWhile predicate).length :=
      h.trans_le (length_dropAll_le tables _)
    have hdrop : (text ++ left).dropWhile predicate = text.dropWhile predicate ++ left := by
      rw [List.dropWhile_append] at hlength ⊢
      split at hlength
      · have hle := (List.dropWhile_suffix predicate (l := left)).length_le
        omega
      · rename_i hempty
        rw [if_neg hempty]
    have hstep : dropAll (predicate :: tables) (text ++ left) =
        dropAll tables (text.dropWhile predicate ++ left) := by
      rw [← hdrop]
      rfl
    rw [hstep] at h ⊢
    exact ih h

/-- Tables without line ends drop none. -/
theorem exists_dropAll {tables : List (UInt8 → Bool)}
    (h : ∀ predicate ∈ tables, Excludes isNewline predicate) (text : Bytes) :
    ∃ before, text = before ++ dropAll tables text ∧ ∀ b ∈ before, isNewline b = false := by
  induction tables generalizing text with
  | nil => exact ⟨[], rfl, List.forall_mem_nil _⟩
  | cons predicate tables ih =>
    obtain ⟨hpredicate, htables⟩ := List.forall_mem_cons.mp h
    obtain ⟨before, htext, hbefore⟩ := ih htables (text.dropWhile predicate)
    refine ⟨text.takeWhile predicate ++ before, ?_, List.forall_mem_append.mpr ⟨?_, hbefore⟩⟩
    · rw [List.append_assoc]
      exact List.takeWhile_append_dropWhile.symm.trans (congrArg (_ ++ ·) htext)
    · exact fun b hb => not_isNewline hpredicate (of_mem_takeWhile hb)

/-- A parser that leaves what some scans do. -/
def Leaves (tables : List (UInt8 → Bool)) (r : Parse α) : Prop :=
  ∀ c a left, Gives r c a left → left = dropAll tables c.remaining

/-- Two parsers in a row leave what the scans of the first and then those of the second leave. -/
theorem Leaves.bind {β : Type} {tables tables' : List (UInt8 → Bool)} {r : Parse α}
    {f : α → Parse β} (h : Leaves tables r) (hf : ∀ a, Leaves tables' (f a)) :
    Leaves (tables ++ tables') (r >>= f) := by
  intro c b left hgives
  obtain ⟨a, c', hr, hf'⟩ := gives_bind.mp hgives
  rw [hf a c' b left hf', show c'.remaining = dropAll tables c.remaining from h c a _ ⟨c', hr, rfl⟩]
  exact List.foldl_append.symm

/-- To return a value leaves everything. -/
theorem leaves_pure (a : α) : Leaves [] (pure a : Parse α) := fun _ _ _ h => (gives_pure.mp h).2

/-- A decoded scan leaves what comes behind its longest stretch. -/
theorem leaves_scanWhileAsStr (predicate : UInt8 → Bool) :
    Leaves [predicate] (ofScan (Scan.scanWhileAsStr predicate)) :=
  fun _ _ _ h => (gives_scanWhile.mp (gives_scanWhileAsStr.mp (gives_ofScan.mp h))).2

/-- A plain scan leaves what comes behind its longest stretch. -/
theorem leaves_scanWhile (predicate : UInt8 → Bool) :
    Leaves [predicate] (modifyGet (Scanner.scanWhile predicate) : Parse Bytes) :=
  fun _ _ _ h => (gives_scanWhile.mp h).2

/-- To skip blanks leaves what comes behind them. -/
theorem leaves_handleWs : Leaves [isSpace] handleWs :=
  (leaves_scanWhile isSpace).bind fun _ => leaves_pure ()

/-- To read a token leaves what comes behind it. -/
theorem leaves_readToken : Leaves [isToken] readToken := by
  intro c s left h
  rw [readToken, scanWhileAsStrUnchecked_eq, gives_map] at h
  obtain ⟨bytes, -, h⟩ := h
  exact leaves_scanWhile isToken c bytes left h

/-- What skipping blanks has gone over is blanks. -/
theorem gives_handleWs {c : Scanner} {left : Bytes} (h : Gives handleWs c () left) :
    ∃ ws, c.remaining = ws ++ left ∧ ∀ b ∈ ws, isSpace b := by
  refine ⟨c.remaining.takeWhile isSpace, ?_, fun _ => of_mem_takeWhile⟩
  rw [leaves_handleWs c _ _ h]
  exact List.takeWhile_append_dropWhile.symm

/-- A number leaves what comes behind its digits, whatever type it is made of. -/
theorem leaves_scanNumber {f : Nat → α} (bound : Nat) :
    Leaves [isAsciiDigit] (ofScan (f <$> Scan.scanUnsigned bound)) := by
  intro c n left h
  obtain ⟨n', -, h⟩ := gives_map.mp (gives_ofScan.mp h)
  exact (gives_scanUnsigned.mp h).2

/-- The 64-bit numbers of an origin leave what comes behind their digits. -/
theorem leaves_scanU64 : Leaves [isAsciiDigit] (ofScan Scan.scanU64) := leaves_scanNumber _

/-- The 16-bit numbers of a media line leave what comes behind their digits. -/
theorem leaves_scanU16 : Leaves [isAsciiDigit] (ofScan Scan.scanU16) := leaves_scanNumber _

/-! ### Origins and connections -/

/-- The first blank comes in front of the first line end. -/
def blankFirst (blank : UInt8 → Bool) (text : Bytes) : Bool :=
  (text.dropWhile fun b => !(blank b || isNewline b)).head?.any blank

/-- A name up to its first blank has no line end in it exactly when the blank comes in front of
    every line end. -/
theorem blankFirst_iff {blank : UInt8 → Bool} {name rest : Bytes} {b : UInt8}
    (hname : ∀ x ∈ name, blank x = false) (hb : blank b) :
    blankFirst blank (name ++ b :: rest) ↔ ∀ x ∈ name, isNewline x = false := by
  induction name with
  | nil =>
    refine iff_of_true ?_ (List.forall_mem_nil _)
    rw [blankFirst, List.nil_append, List.dropWhile_cons_of_neg (by simp [hb])]
    exact hb
  | cons x name ih =>
    obtain ⟨hx, hname⟩ := List.forall_mem_cons.mp hname
    rw [List.forall_mem_cons, ← ih hname]
    cases hnewline : isNewline x with
    | false =>
      rw [blankFirst, List.cons_append, List.dropWhile_cons_of_pos (by simp [hx, hnewline])]
      exact (and_iff_right rfl).symm
    | true =>
      -- the line end comes first
      refine iff_of_false ?_ (fun h => Bool.noConfusion h.1)
      rw [blankFirst, List.cons_append, List.dropWhile_cons_of_neg (by simp [hnewline]), List.head?_cons,
        Option.any_some, hx]
      exact Bool.false_ne_true

/-- What a name ends at is a blank, where what stands behind the blanks could go on with the name. -/
theorem exists_blank {name : UInt8 → Bool} {ws addr rest : Bytes}
    (hstops : Stops name (ws ++ (addr ++ rest))) (hne : addr ≠ []) (haddr : ∀ b ∈ addr, name b) :
    ∃ b ws', ws = b :: ws' ∧ name b = false := by
  cases ws with
  | cons b ws' => exact ⟨b, ws', rfl, stops_cons.mp hstops⟩
  | nil =>
    obtain ⟨b, bs, rfl⟩ := List.exists_cons_of_ne_nil hne
    have hstop : name b = false := stops_cons.mp hstops
    rw [haddr b List.mem_cons_self] at hstop
    cases hstop

/-- The scans up to the network type of an origin. -/
def upToVersion : List (UInt8 → Bool) :=
  [fun b => !isAsciiWhitespace b, isSpace, isAsciiDigit, isSpace, isAsciiDigit, isSpace]

/-- None of the scans in front of the network type goes over a line end. -/
theorem excludes_upToVersion : ∀ predicate ∈ upToVersion, Excludes isNewline predicate := by
  intro predicate h
  simp only [upToVersion, List.mem_cons, List.not_mem_nil, or_false] at h
  rcases h with rfl | rfl | rfl | rfl | rfl | rfl <;> exact excludes_isNewline (by decide)

/-- What stands behind an address type. -/
theorem readsInLine_address {k : IpAddr → α} : ReadsInLine (do
    handleWs
    let unicastAddress ← ipAddr "" (← ofScan (Scan.scanUntilAnyAsStr (asBytes " \t\r\n")))
    handleWs
    return k unicastAddress) := by
  apply ReadsOver.bind readsInLine_handleWs
  intro _
  apply ReadsOver.bind (readsInLine_ofScan (readsInLine_scanWhileAsStr (excludes_isNewline (by decide))))
  intro address
  apply ReadsOver.bind (readsInLine_ipAddr _ _)
  intro ip
  exact readsInLine_handleWs.bind fun _ => ReadsOver.pure _

/-- **An origin** has a blank behind its network type, and then stays in its line. -/
theorem gives_parseOrigin {c : Scanner} {o : Origin} {left : Bytes}
    (h : Gives parseOrigin c o left) : ∃ name more,
      dropAll upToVersion c.remaining = name ++ 32 :: (more ++ left) ∧
        32 ∉ name ∧ ∀ b ∈ more, isNewline b = false := by
  obtain ⟨user, c₁, huser, h⟩ := gives_bind.mp h
  obtain ⟨_, c₂, hws₁, h⟩ := gives_bind.mp h
  obtain ⟨sessionId, c₃, hid, h⟩ := gives_bind.mp h
  obtain ⟨_, c₄, hws₂, h⟩ := gives_bind.mp h
  obtain ⟨sessionVersion, c₅, hversion, h⟩ := gives_bind.mp h
  have h₁ : c₁.remaining = _ := leaves_scanWhileAsStr _ c _ _ ⟨c₁, huser, rfl⟩
  have h₂ : c₂.remaining = _ := leaves_handleWs c₁ _ _ ⟨c₂, hws₁, rfl⟩
  have h₃ : c₃.remaining = _ := leaves_scanU64 c₂ _ _ ⟨c₃, hid, rfl⟩
  have h₄ : c₄.remaining = _ := leaves_handleWs c₃ _ _ ⟨c₄, hws₂, rfl⟩
  have h₅ : c₅.remaining = _ := leaves_scanU64 c₄ _ _ ⟨c₅, hversion, rfl⟩
  obtain ⟨_, c₆, hws₃, h⟩ := gives_bind.mp h
  have h₆ : c₆.remaining = _ := leaves_handleWs c₅ _ _ ⟨c₆, hws₃, rfl⟩
  have hversion : dropAll upToVersion c.remaining = c₆.remaining := by
    rw [h₆, h₅, h₄, h₃, h₂, h₁]
    rfl
  obtain ⟨nettype, c₇, hnettype, h⟩ := gives_bind.mp h
  obtain ⟨name, -, hscan⟩ := gives_map.mp ⟨c₇, hnettype, rfl⟩
  obtain ⟨htake, hdrop⟩ := gives_scanWhile.mp (gives_scanWhileAsStr.mp (gives_ofScan.mp hscan))
  obtain ⟨_, c₈, hws₄, h⟩ := gives_bind.mp h
  obtain ⟨ws, hws, hspaces⟩ := gives_handleWs ⟨c₈, hws₄, rfl⟩
  obtain ⟨addr, c₉, haddr, h⟩ := gives_bind.mp h
  obtain ⟨haddrTake, haddrDrop⟩ :=
    gives_scanWhile.mp (gives_scanWhileAsStr.mp (gives_ofScan.mp ⟨c₉, haddr, rfl⟩))
  have hrem₈ : c₈.remaining = asBytes addr ++ c₉.remaining := by
    rw [haddrTake, show c₉.remaining = _ from haddrDrop, List.takeWhile_append_dropWhile]
  -- only a known address type is followed by an address
  have hknown : asBytes addr ≠ [] ∧ (∀ b ∈ asBytes addr, isNewline b = false) ∧
      ∃ text, c₉.remaining = text ++ left ∧ ∀ b ∈ text, isNewline b = false := by
    have hend : ∀ addrtype : AddrType, Gives (do
        handleWs
        let unicastAddress ←
          ipAddr "" (← ofScan (Scan.scanUntilAnyAsStr (asBytes " \t\r\n")))
        handleWs
        return (⟨user, sessionId, sessionVersion, nettype, addrtype, unicastAddress⟩ : Origin)) c₉ o
          left →
        ∃ text, c₉.remaining = text ++ left ∧ ∀ b ∈ text, isNewline b = false := by
      rintro addrtype ⟨c', hrun, rfl⟩
      exact readsInLine_address.exists_text hrun
    dsimp only at h
    split at h
    · exact ⟨by decide, by decide, hend _ h⟩
    · exact ⟨by decide, by decide, hend _ h⟩
    · obtain ⟨c', h, -⟩ := h
      cases h
  obtain ⟨hne, haddrLine, text, htext, htextLine⟩ := hknown
  -- the name ends at a blank, since it does not end with the text
  have hrem₇ : c₇.remaining = ws ++ (asBytes addr ++ (text ++ left)) := by
    rw [← htext, ← hrem₈]
    exact hws
  have hstops : Stops (· != 32) (ws ++ (asBytes addr ++ (text ++ left))) := by
    rw [← hrem₇, show c₇.remaining = _ from hdrop]
    exact stops_dropWhile _ _
  have haddrName : ∀ b ∈ asBytes addr, (b != 32) = true := by
    rw [haddrTake]
    exact fun _ => of_mem_takeWhile
  obtain ⟨b, ws', rfl, hb⟩ := exists_blank hstops hne haddrName
  have hblank : b = 32 := by simpa using hb
  subst hblank
  refine ⟨asBytes name, ws' ++ (asBytes addr ++ text), ?_, ?_, ?_⟩
  · have hrem₆ : c₆.remaining = asBytes name ++ c₇.remaining := by
      rw [htake, show c₇.remaining = _ from hdrop, List.takeWhile_append_dropWhile]
    rw [hversion, hrem₆, hrem₇]
    simp only [List.append_assoc, List.cons_append]
  · intro hmem
    rw [htake] at hmem
    exact absurd (of_mem_takeWhile hmem) (by decide)
  · simp only [List.forall_mem_append]
    refine ⟨fun b hb => ?_, haddrLine, htextLine⟩
    exact not_isNewline (excludes_isNewline (by decide)) (hspaces b (List.mem_cons_of_mem _ hb))

/-- What stands behind the network type of a connection. -/
theorem readsInLine_conectionAddress {k : IpAddr → α} : ReadsInLine (do
    handleWs
    let conectionAddress ← ipAddr "Invalid Connection Address: " (← readLine)
    handleWs
    return k conectionAddress) := by
  apply ReadsOver.bind readsInLine_handleWs
  intro _
  apply ReadsOver.bind readsInLine_readLine
  intro address
  apply ReadsOver.bind (readsInLine_ipAddr _ _)
  intro ip
  exact readsInLine_handleWs.bind fun _ => ReadsOver.pure _

/-- The network type of a connection is the two letters of the internet, or all bytes up to the next
    blank. -/
theorem gives_connectionNetType {nettype : NetType} {c : Scanner} {left : Bytes}
    (h : Gives connectionNetType c nettype left) :
    c.remaining = asBytes "IN" ++ left ∨
      ¬ asBytes "IN" <+: c.remaining ∧ left = c.remaining.dropWhile fun b => !isSpace b := by
  obtain ⟨c', hrun, rfl⟩ := h
  have hrun := get_bind_eq_ok_iff.mp hrun
  by_cases hin : c.matchesPrefix (asBytes "IN")
  · rw [if_pos hin] at hrun
    obtain ⟨rest, hrest⟩ := List.isPrefixOf_iff_prefix.mp hin
    have hgives : Gives (pure NetType.internet : Parse NetType) (Lib.advance c (asBytes "IN")) nettype
        (Cursor.remaining c') := (gives_advanceN hrest.symm).mp ⟨c', hrun, rfl⟩
    rw [(gives_pure.mp hgives).2, remaining_advance (σ := Scanner) hrest.symm]
    exact .inl hrest.symm
  · rw [if_neg hin] at hrun
    obtain ⟨name, c₁, hread, hpure⟩ := bind_eq_ok_iff.mp hrun
    injection hpure with _ hc
    refine .inr ⟨fun hpre => hin (List.isPrefixOf_iff_prefix.mpr hpre), ?_⟩
    rw [← hc]
    exact leaves_scanWhileAsStr _ c _ _ ⟨c₁, hread, rfl⟩

/-- **A connection** starts with `IN`, or has a blank behind its network type, and then stays in its
    line. -/
theorem gives_parseConnectionInfo {conn : ConnectionInformation} {c : Scanner} {left : Bytes}
    (h : Gives parseConnectionInfo c conn left) :
    ∃ more, (∀ b ∈ more, isNewline b = false) ∧
      (c.remaining = asBytes "IN" ++ (more ++ left) ∨
        ¬ asBytes "IN" <+: c.remaining ∧ ∃ name b, c.remaining = name ++ b :: (more ++ left) ∧
          (∀ x ∈ name, isSpace x = false) ∧ isSpace b) := by
  obtain ⟨nettype, c₁, hnettype, h⟩ := gives_bind.mp h
  obtain ⟨_, c₂, hws, h⟩ := gives_bind.mp h
  obtain ⟨ws, hws, hspaces⟩ := gives_handleWs ⟨c₂, hws, rfl⟩
  have hwsLine : ∀ b ∈ ws, isNewline b = false :=
    fun b hb => not_isNewline (excludes_isNewline (by decide)) (hspaces b hb)
  -- only a known address type is followed by an address
  have hknown : ∃ addr text, c₂.remaining = addr ++ (text ++ left) ∧
      (addr = asBytes "IP4" ∨ addr = asBytes "IP6") ∧ ∀ b ∈ text, isNewline b = false := by
    have hend : ∀ (addrtype : AddrType) (addr : Bytes), addr.length = 3 → addr <+: c₂.remaining →
        Gives (do
          modify (Scanner.advanceN 3)
          handleWs
          let conectionAddress ← ipAddr "Invalid Connection Address: " (← readLine)
          handleWs
          return (⟨nettype, addrtype, conectionAddress⟩ : ConnectionInformation)) c₂ conn left →
        ∃ text, c₂.remaining = addr ++ (text ++ left) ∧ ∀ b ∈ text, isNewline b = false := by
      rintro addrtype addr hlength ⟨more, hmore⟩ h
      rw [← hlength, gives_advanceN hmore.symm] at h
      obtain ⟨c', hrun, rfl⟩ := h
      obtain ⟨text, htext, hline⟩ := readsInLine_conectionAddress.exists_text hrun
      have hrem : Cursor.remaining (Lib.advance c₂ addr) = more :=
        remaining_advance (σ := Scanner) hmore.symm
      refine ⟨text, ?_, hline⟩
      rw [← hmore, ← hrem]
      exact congrArg (addr ++ ·) htext
    obtain ⟨c', hrun, rfl⟩ := h
    have hrun := get_bind_eq_ok_iff.mp hrun
    dsimp only at hrun
    cases haddr : addrType (c₂.peekN 3) with
    | none =>
      rw [haddr] at hrun
      cases hrun
    | some addrtype =>
      rw [haddr] at hrun
      rw [addrType_peekN] at haddr
      split_ifs at haddr with h4 h6
      · obtain ⟨text, htext, hline⟩ :=
          hend addrtype _ (by decide) (List.isPrefixOf_iff_prefix.mp h4) ⟨c', hrun, rfl⟩
        exact ⟨_, text, htext, .inl rfl, hline⟩
      · obtain ⟨text, htext, hline⟩ :=
          hend addrtype _ (by decide) (List.isPrefixOf_iff_prefix.mp h6) ⟨c', hrun, rfl⟩
        exact ⟨_, text, htext, .inr rfl, hline⟩
  obtain ⟨addr, text, hrem₂, haddr, htextLine⟩ := hknown
  have haddrLine : ∀ b ∈ addr, isNewline b = false := by
    rcases haddr with rfl | rfl <;> decide
  have hrem₁ : c₁.remaining = ws ++ (addr ++ (text ++ left)) := by
    rw [← hrem₂]
    exact hws
  rcases gives_connectionNetType ⟨c₁, hnettype, rfl⟩ with hin | ⟨hin, hdrop⟩
  · refine ⟨ws ++ (addr ++ text), ?_, .inl ?_⟩
    · simp only [List.forall_mem_append]
      exact ⟨hwsLine, haddrLine, htextLine⟩
    · rw [hin, show Cursor.remaining c₁ = _ from hrem₁]
      simp only [List.append_assoc]
  · -- the name ends at a blank, since an address type is no blank
    have hstops : Stops (fun b => !isSpace b) (ws ++ (addr ++ (text ++ left))) := by
      rw [← hrem₁, show c₁.remaining = _ from hdrop]
      exact stops_dropWhile _ _
    have haddrName : addr ≠ [] ∧ ∀ b ∈ addr, (!isSpace b) = true := by
      rcases haddr with rfl | rfl <;> decide
    obtain ⟨b, ws, rfl, -⟩ := exists_blank hstops haddrName.1 haddrName.2
    refine ⟨ws ++ (addr ++ text), ?_, .inr ⟨hin, c.remaining.takeWhile fun b => !isSpace b, b, ?_,
      fun x hx => by simpa using of_mem_takeWhile hx, hspaces b List.mem_cons_self⟩⟩
    · simp only [List.forall_mem_append]
      exact ⟨fun x hx => hwsLine x (List.mem_cons_of_mem _ hx), haddrLine, htextLine⟩
    · have hsplit : c.remaining.takeWhile (fun b => !isSpace b) ++ c₁.remaining = c.remaining := by
        rw [show c₁.remaining = _ from hdrop, List.takeWhile_append_dropWhile]
      refine hsplit.symm.trans ?_
      rw [hrem₁]
      simp only [List.append_assoc, List.cons_append]

/-! ### Lines that end where they should -/

/-- A blank ends the network type, and not a line end. -/
def closedValue (field : SdpField) (value : Bytes) : Bool :=
  if field = SdpField.origin then blankFirst (· == 32) (dropAll upToVersion value)
  else if field = SdpField.connectionInformation then
    (asBytes "IN").isPrefixOf value || blankFirst isSpace value
  else true

/-- Line ends can only come from the first of two texts if the second has none. -/
theorem append_isNewline {xs ys : Bytes} (hys : ∀ b ∈ ys, isNewline b = false) :
    (∀ b ∈ xs ++ ys, isNewline b = false) ↔ ∀ b ∈ xs, isNewline b = false := by
  rw [List.forall_mem_append]
  exact and_iff_left hys

section

variable {field : SdpField} {c : Scanner} {value left : Bytes} (hc : c.remaining = value ++ left)

include hc

/-- An origin that was read stayed in its line exactly when a blank ended its network type. -/
theorem closedValue_origin_iff {o : Origin} (h : Gives parseOrigin c o left) :
    closedValue SdpField.origin value ↔ ∀ b ∈ value, isNewline b = false := by
  obtain ⟨name, more, hrem, hname, hmore⟩ := gives_parseOrigin h
  -- something of the line is left behind the version
  have hlength : left.length < (dropAll upToVersion (value ++ left)).length := by
    rw [← hc, hrem]
    simp only [List.length_append, List.length_cons]
    omega
  have hvalue : dropAll upToVersion value = name ++ 32 :: more := by
    rw [hc, dropAll_append hlength] at hrem
    exact List.append_cancel_right (hrem.trans (by simp))
  have hblank : ∀ b ∈ name, (b == 32) = false := by
    intro b hb
    rw [beq_eq_false_iff_ne]
    rintro rfl
    exact hname hb
  obtain ⟨before, hsplit, hbefore⟩ := exists_dropAll excludes_upToVersion value
  have hmore' : ∀ b ∈ 32 :: more, isNewline b = false :=
    List.forall_mem_cons.mpr ⟨by decide, hmore⟩
  rw [closedValue, if_pos rfl, hvalue, blankFirst_iff hblank (by decide), hsplit, hvalue,
    List.forall_mem_append, append_isNewline hmore']
  exact (and_iff_right hbefore).symm

/-- The same for a connection, whose network type is the one part of it that may go over a line end.
    -/
theorem closedValue_connection_iff {conn : ConnectionInformation}
    (h : Gives parseConnectionInfo c conn left) :
    closedValue SdpField.connectionInformation value ↔ ∀ b ∈ value, isNewline b = false := by
  rw [closedValue, if_neg (by decide), if_pos rfl, Bool.or_eq_true, List.isPrefixOf_iff_prefix]
  obtain ⟨more, hmore, hin | ⟨hin, name, b, hrem, hname, hb⟩⟩ := gives_parseConnectionInfo h
  · have hvalue : value = asBytes "IN" ++ more := by
      rw [hc, ← List.append_assoc] at hin
      exact List.append_cancel_right hin
    rw [hvalue]
    exact iff_of_true (.inl (List.prefix_append _ _))
      (List.forall_mem_append.mpr ⟨by decide, hmore⟩)
  · have hvalue : value = name ++ b :: more := by
      rw [hc] at hrem
      exact List.append_cancel_right (hrem.trans (by simp))
    have hpre : ¬ asBytes "IN" <+: value := fun h => hin (hc ▸ h.trans (List.prefix_append _ _))
    have hmore' : ∀ x ∈ b :: more, isNewline x = false :=
      List.forall_mem_cons.mpr ⟨not_isNewline (excludes_isNewline (by decide)) hb, hmore⟩
    rw [hvalue] at hpre ⊢
    rw [or_iff_right hpre, blankFirst_iff hname hb, append_isNewline hmore']

/-- **What a line parser reads** has no line end if and only if a blank ends the network type. -/
theorem closedValue_iff {line : SdpLine} (h : Gives (parseValue field) c line left) :
    closedValue field value ↔ ∀ b ∈ value, isNewline b = false := by
  by_cases horigin : field = SdpField.origin
  · subst horigin
    obtain ⟨o, -, ho⟩ := gives_map.mp (show Gives (SdpLine.origin <$> parseOrigin) c line left from h)
    exact closedValue_origin_iff hc ho
  by_cases hconn : field = SdpField.connectionInformation
  · subst hconn
    obtain ⟨conn, -, h⟩ :=
      gives_map.mp (show Gives (SdpLine.connection <$> parseConnectionInfo) c line left from h)
    exact closedValue_connection_iff hc h
  · rw [closedValue, if_neg horigin, if_neg hconn]
    refine iff_of_true rfl ?_
    obtain ⟨c', hrun, hleft⟩ := gives_valueInLine h
    obtain ⟨text, htext, hline⟩ := (readsInLine_valueInLine horigin hconn).exists_text hrun
    have hvalue : text = value := by
      rw [hc, show c'.remaining = left from hleft] at htext
      exact (List.append_cancel_right htext).symm
    exact hvalue ▸ hline

end

/-! ### The ends of values -/

section

variable {field : SdpField} {c : Scanner} {line : SdpLine} {value rest : Bytes}

/-- No value ends with a line end. -/
theorem not_isNewline_getLast (h : Gives (parseValue field) c line rest)
    (hc : c.remaining = value ++ rest) : ∀ b ∈ value.getLast?, isNewline b = false := by
  -- at the end of the value there are no line ends
  have hend : ∀ xs ys : Bytes, value = xs ++ ys → ys ≠ [] → (∀ b ∈ ys, isNewline b = false) →
      ∀ b ∈ value.getLast?, isNewline b = false := by
    intro xs ys hvalue hne hys b hb
    rw [hvalue, List.getLast?_append_of_ne_nil _ hne] at hb
    exact hys b (List.mem_of_mem_getLast? hb)
  by_cases horigin : field = SdpField.origin
  · subst horigin
    obtain ⟨o, -, ho⟩ := gives_map.mp (show Gives (SdpLine.origin <$> parseOrigin) c line rest from h)
    obtain ⟨name, more, hrem, -, hmore⟩ := gives_parseOrigin ho
    obtain ⟨before, hsplit, -⟩ := exists_dropAll excludes_upToVersion c.remaining
    refine hend (before ++ name) (32 :: more) ?_ (List.cons_ne_nil _ _)
      (List.forall_mem_cons.mpr ⟨by decide, hmore⟩)
    rw [hrem, hc] at hsplit
    exact List.append_cancel_right (hsplit.trans (by simp))
  by_cases hconn : field = SdpField.connectionInformation
  · subst hconn
    obtain ⟨conn, -, hconn⟩ :=
      gives_map.mp (show Gives (SdpLine.connection <$> parseConnectionInfo) c line rest from h)
    obtain ⟨more, hmore, hin | ⟨-, name, b, hrem, -, hb⟩⟩ := gives_parseConnectionInfo hconn
    · refine hend [] (asBytes "IN" ++ more) ?_ (by simp [show asBytes "IN" = [73, 78] by decide])
        (List.forall_mem_append.mpr ⟨by decide, hmore⟩)
      rw [hc, ← List.append_assoc] at hin
      exact List.append_cancel_right hin
    · refine hend name (b :: more) ?_ (List.cons_ne_nil _ _)
        (List.forall_mem_cons.mpr ⟨not_isNewline (excludes_isNewline (by decide)) hb, hmore⟩)
      rw [hc] at hrem
      exact List.append_cancel_right (hrem.trans (by simp))
  · have hclosed : closedValue field value := by
      rw [closedValue, if_neg horigin, if_neg hconn]
    intro b hb
    exact (closedValue_iff hc h).mp hclosed b (List.mem_of_mem_getLast? hb)

/-- A text that ends with a line end goes on behind each of its lines. -/
theorem getLast?_rest (h : Gives (parseValue field) (Scanner.new (value ++ rest)) line rest)
    (hlast : ∀ b ∈ (field :: 61 :: (value ++ rest)).getLast?, isNewline b) :
    rest ≠ [] ∧ ∀ b ∈ rest.getLast?, isNewline b := by
  have hrest : rest ≠ [] := by
    rintro rfl
    -- neither the value nor the equals sign is a line end
    have hend : ∀ b ∈ (61 :: value).getLast?, isNewline b = false := by
      cases value with
      | nil => decide
      | cons b bs =>
        rw [List.getLast?_cons_cons]
        exact not_isNewline_getLast h rfl
    rw [List.append_nil, List.getLast?_cons_cons] at hlast
    have hmem := List.getLast?_eq_some_getLast (List.cons_ne_nil 61 value)
    have hnewline := hlast _ hmem
    rw [hend _ hmem] at hnewline
    cases hnewline
  refine ⟨hrest, ?_⟩
  rwa [← List.cons_append, ← List.cons_append, List.getLast?_append_of_ne_nil _ hrest] at hlast

end

/-! ### What is left of a line -/

/-- What is left of a line up to its end. -/
def leftInLine (rest : Bytes) : Bytes := rest.takeWhile fun b => !isNewline b

/-- What is left of a line up to its end has no line end in it. -/
theorem not_isNewline_leftInLine (rest : Bytes) : ∀ b ∈ leftInLine rest, isNewline b = false :=
  fun b hb => by simpa using of_mem_takeWhile hb

/-- Behind what is left of a line stands its end. -/
theorem exists_leftInLine (rest : Bytes) :
    ∃ behind, rest = leftInLine rest ++ behind ∧ ∀ b ∈ behind.head?, isNewline b := by
  refine ⟨rest.dropWhile fun b => !isNewline b, List.takeWhile_append_dropWhile.symm, ?_⟩
  exact fun b hb => by simpa using stops_dropWhile (fun b => !isNewline b) rest b hb

end SdpParser

end Rssip.Media
