import Rssip.Ua.Dialog

namespace Rssip

open Lib

/-!
# Sequence numbers of a dialog

Each side numbers its requests, and the other one keeps the last number it has seen.

* `CseqHistory` — a dialog and the numbers it has processed;
* `run_grows_iff` — when the number of the other side only grows: an `ACK` or a `CANCEL` is not
  checked, but its number is kept like any other;
* `createRequests_numbered_iff` — when the requests of this side are numbered: the number is
  never counted up.
-/

/-- A dialog, with what it has been through. -/
structure CseqHistory where
  dialog : Dialog
  /-- The values that `remote_cseq` has had. -/
  values : List (Option UInt32)
  /-- The numbers of the requests that were accepted. -/
  accepted : List UInt32

namespace CseqHistory

/-- A dialog whose last number, if there is one, is that of a request it has accepted. -/
def start (d : Dialog) : CseqHistory where
  dialog := d
  values := [d.remoteCseq]
  accepted := d.remoteCseq.toList

/-- A request is processed; `sent` is what comes of sending a response to it. -/
def step (w : CseqHistory) (a : IncomingRequest × Except Error Unit) : CseqHistory :=
  let d := (w.dialog.processIncomingRequest a.1 a.2).dialog
  { dialog := d
    values := d.remoteCseq :: w.values
    accepted := if w.dialog.InvalidCseq a.1 then w.accepted else a.1.cseq :: w.accepted }

/-- No number is accepted twice. -/
structure Grows (w : CseqHistory) : Prop where
  /-- `remote_cseq` is not below any of its earlier values. -/
  grows : ∀ value ∈ w.values, value.getD 0 ≤ w.dialog.remoteCseq.getD 0
  /-- A request that is not above an accepted one is answered with an error, and changes
      nothing. -/
  rejects : ∀ (request : IncomingRequest) (sent : Except Error Unit),
    request.method ≠ .ack → request.method ≠ .cancel → (∃ n ∈ w.accepted, request.cseq ≤ n) →
      w.dialog.processIncomingRequest request sent =
        { result := some sent
          dialog := w.dialog
          responses := Dialog.transmitted (Dialog.invalidCseqResponse request) sent }

/-- The number of an `ACK` or a `CANCEL` is not below the last one. -/
def InOrder (w : CseqHistory) (a : IncomingRequest × Except Error Unit) : Prop :=
  a.1.method = .ack ∨ a.1.method = .cancel → w.dialog.remoteCseq.getD 0 ≤ a.1.cseq

/-- The values are all there. -/
structure Kept (w : CseqHistory) : Prop where
  last : w.dialog.remoteCseq ∈ w.values
  accepted : ∀ n ∈ w.accepted, some n ∈ w.values

theorem kept_start (d : Dialog) : (start d).Kept where
  last := List.mem_singleton_self _
  accepted := by
    intro n hn
    rw [start, Option.mem_toList] at hn
    rw [start, hn]
    exact List.mem_singleton_self _

theorem step_of_invalid {w : CseqHistory} {a : IncomingRequest × Except Error Unit}
    (h : w.dialog.InvalidCseq a.1) :
    w.step a = { w with values := w.dialog.remoteCseq :: w.values } := by
  simp only [step, Dialog.processIncomingRequest_of_invalid h, if_pos h]

theorem step_of_valid {w : CseqHistory} {a : IncomingRequest × Except Error Unit}
    (h : ¬ w.dialog.InvalidCseq a.1) :
    w.step a =
      { dialog := { w.dialog with
                      remoteCseq := some a.1.cseq, contact := w.dialog.refreshed a.1 }
        values := some a.1.cseq :: w.values
        accepted := a.1.cseq :: w.accepted } := by
  simp only [step, Dialog.processIncomingRequest_of_valid h, if_neg h]

theorem Kept.step {w : CseqHistory} (h : w.Kept) (a : IncomingRequest × Except Error Unit) :
    (w.step a).Kept := by
  by_cases hinvalid : w.dialog.InvalidCseq a.1
  · rw [step_of_invalid hinvalid]
    exact ⟨List.mem_cons_self, fun n hn => List.mem_cons_of_mem _ (h.accepted n hn)⟩
  · rw [step_of_valid hinvalid]
    refine ⟨List.mem_cons_self, fun n hn => ?_⟩
    rcases List.mem_cons.mp hn with rfl | hn
    · exact List.mem_cons_self
    · exact List.mem_cons_of_mem _ (h.accepted n hn)

/-- What grows also rejects: an accepted number has been the last one. -/
theorem Kept.rejects {w : CseqHistory} (h : w.Kept)
    (hgrows : ∀ value ∈ w.values, value.getD 0 ≤ w.dialog.remoteCseq.getD 0) : w.Grows := by
  refine ⟨hgrows, fun request sent hack hcancel ⟨n, hn, hle⟩ => ?_⟩
  refine Dialog.processIncomingRequest_of_invalid ⟨?_, ?_⟩ sent
  · exact fun hmethod => hmethod.elim hcancel hack
  · have hlast : n ≤ w.dialog.remoteCseq.getD 0 := hgrows _ (h.accepted n hn)
    rw [UInt32.le_iff_toNat_le] at hle hlast ⊢
    omega

theorem grows_start (d : Dialog) : (start d).Grows := by
  refine (kept_start d).rejects fun value hvalue => ?_
  rw [List.mem_singleton.mp hvalue]
  exact UInt32.le_refl _

/-- **A step keeps the order** exactly when its request does. -/
theorem grows_step_iff {w : CseqHistory} (hkept : w.Kept) (h : w.Grows)
    (a : IncomingRequest × Except Error Unit) : (w.step a).Grows ↔ w.InOrder a := by
  have hnext := hkept.step a
  by_cases hinvalid : w.dialog.InvalidCseq a.1
  · rw [step_of_invalid hinvalid] at hnext ⊢
    refine iff_of_true (hnext.rejects fun value hvalue => ?_) fun hmethod => ?_
    · rcases List.mem_cons.mp hvalue with rfl | hvalue
      · exact UInt32.le_refl _
      · exact h.grows value hvalue
    · exact absurd hmethod.symm hinvalid.1
  · rw [step_of_valid hinvalid] at hnext ⊢
    constructor
    · intro hgrows _
      -- the last number before the step is one of the values after it
      exact hgrows.grows _ (List.mem_cons_of_mem _ hkept.last)
    · intro horder
      refine hnext.rejects fun value hvalue => ?_
      have hle : w.dialog.remoteCseq.getD 0 ≤ a.1.cseq := by
        by_cases hmethod : a.1.method = .ack ∨ a.1.method = .cancel
        · exact horder hmethod
        · have hnot : ¬ a.1.cseq ≤ w.dialog.remoteCseq.getD 0 :=
            fun hle => hinvalid ⟨fun hm => hmethod hm.symm, hle⟩
          rw [UInt32.le_iff_toNat_le] at hnot ⊢
          omega
      rcases List.mem_cons.mp hvalue with rfl | hvalue
      · exact UInt32.le_refl _
      · have hlast := h.grows value hvalue
        rw [UInt32.le_iff_toNat_le] at hle hlast ⊢
        exact Nat.le_trans hlast hle

/-- **When the last number only grows.** All along a run `remote_cseq` is never below an earlier
    value, and a request that is not above an accepted one is rejected, exactly when the number
    of no `ACK` and no `CANCEL` is below the last one. -/
theorem run_grows_iff (d : Dialog) (es : List (IncomingRequest × Except Error Unit)) :
    Always step Grows (start d) es ↔ Meets step InOrder (start d) es := by
  have hinv : ∀ (w : CseqHistory) a, w.Kept → (w.step a).Kept := fun _ a h => h.step a
  exact always_iff_meets hinv (fun _ a hkept h => grows_step_iff hkept h a) (kept_start d)
    (grows_start d) es

/-- An `ACK` with a lower number is taken without a check, and the last number falls. -/
theorem not_run_grows_ack :
    ¬ Always step Grows (start .invited) [(.inDialog .ack 0, .ok ())] := by
  intro h
  have hgrows := (h _ (List.prefix_refl _)).grows (some 1) (by decide)
  exact absurd hgrows (by decide)

end CseqHistory

/-! ### Requests of this side -/

/-- The number of a request. -/
def Request.cseq (r : Request) : Option UInt32 :=
  (r.headers.findSome? Header.cseq?).map CSeq.cseq

/-- A request that is numbered by its own: not an `ACK` or a `CANCEL`. -/
def Request.IsNumbered (r : Request) : Prop :=
  r.reqLine.method ≠ .ack ∧ r.reqLine.method ≠ .cancel

instance : DecidablePred Request.IsNumbered := fun _ => inferInstanceAs (Decidable (_ ∧ _))

/-- Requests as they must be numbered. -/
structure Numbered (requests : List Request) : Prop where
  increasing : (requests.filter Request.IsNumbered).Pairwise fun r r' =>
    ∃ n n', r.cseq = some n ∧ r'.cseq = some n' ∧ n < n'
  /-- An `ACK` has the number of the last `INVITE` before it. -/
  ack : ∀ earlier ack later, requests = earlier ++ ack :: later → ack.reqLine.method = .ack →
    ∀ invite, (earlier.filter (fun r => r.reqLine.method = .invite)).getLast? = some invite →
      ack.cseq = invite.cseq

namespace Dialog

/-- The requests of a sequence of calls, each with the number a dialog without one takes. -/
def createRequests : List (SipMethod × UInt32) → Dialog → List Request
  | [], _ => []
  | (method, random) :: calls, d =>
    let created := d.createRequest method random
    created.1 :: createRequests calls created.2

theorem createRequest_cseq (method : SipMethod) (random : UInt32) (d : Dialog) :
    (d.createRequest method random).1.cseq = some (d.localCseq.getD random) := rfl

/-- **All requests of a dialog have one number.** -/
theorem createRequests_cseq (calls : List (SipMethod × UInt32)) (d : Dialog) :
    ∃ n, ∀ r ∈ d.createRequests calls, r.cseq = some n := by
  -- once the dialog has a number, it keeps it
  have hkept : ∀ (calls : List (SipMethod × UInt32)) (d : Dialog) (n : UInt32),
      d.localCseq = some n → ∀ r ∈ d.createRequests calls, r.cseq = some n := by
    intro calls
    induction calls with
    | nil => exact fun _ _ _ r hr => absurd hr List.not_mem_nil
    | cons call calls ih =>
      intro d n hn r hr
      have hnumber : d.localCseq.getD call.2 = n := by rw [hn, Option.getD_some]
      rcases List.mem_cons.mp hr with rfl | hr
      · rw [createRequest_cseq, hnumber]
      · exact ih _ n (congrArg some hnumber) r hr
  cases calls with
  | nil => exact ⟨0, fun r hr => absurd hr List.not_mem_nil⟩
  | cons call calls =>
    refine ⟨d.localCseq.getD call.2, fun r hr => ?_⟩
    rcases List.mem_cons.mp hr with rfl | hr
    · exact createRequest_cseq _ _ _
    · exact hkept calls _ _ rfl r hr

theorem createRequests_method (calls : List (SipMethod × UInt32)) (d : Dialog) :
    (d.createRequests calls).map (fun r => r.reqLine.method) = calls.map Prod.fst := by
  induction calls generalizing d with
  | nil => rfl
  | cons call calls ih => exact congrArg (call.1 :: ·) (ih _)

/-- A relation that holds nowhere in a list orders it only if there is nothing to order. -/
theorem pairwise_iff_length_le_one {α : Type} {R : α → α → Prop} {l : List α}
    (h : ∀ a ∈ l, ∀ b ∈ l, ¬ R a b) : l.Pairwise R ↔ l.length ≤ 1 := by
  match l with
  | [] => exact iff_of_true List.Pairwise.nil (Nat.zero_le 1)
  | [a] => exact iff_of_true (List.pairwise_singleton R a) (Nat.le_refl 1)
  | a :: b :: rest =>
    have hb : b ∈ a :: b :: rest := List.mem_cons_of_mem _ List.mem_cons_self
    refine iff_of_false (fun hpairwise => ?_) (by simp only [List.length_cons]; omega)
    exact h a List.mem_cons_self b hb (List.rel_of_pairwise_cons hpairwise List.mem_cons_self)

/-- **When the requests of this side are numbered.** With one number for all of them they are
    numbered exactly when at most one has a method other than `ACK` and `CANCEL`. -/
theorem createRequests_numbered_iff (calls : List (SipMethod × UInt32)) (d : Dialog) :
    Numbered (d.createRequests calls) ↔
      (calls.filter fun call => call.1 ≠ .ack ∧ call.1 ≠ .cancel).length ≤ 1 := by
  obtain ⟨n, hn⟩ := createRequests_cseq calls d
  have hlength : (calls.filter fun call => call.1 ≠ .ack ∧ call.1 ≠ .cancel).length =
      ((d.createRequests calls).filter Request.IsNumbered).length := by
    have hmethods := congrArg (List.filter fun m => decide (m ≠ SipMethod.ack ∧ m ≠ .cancel))
      (createRequests_method calls d)
    rw [List.filter_map, List.filter_map] at hmethods
    have hlengths := congrArg List.length hmethods
    rw [List.length_map, List.length_map] at hlengths
    exact hlengths.symm
  -- all the requests have one number
  have hequal : ∀ r ∈ (d.createRequests calls).filter Request.IsNumbered,
      ∀ r' ∈ (d.createRequests calls).filter Request.IsNumbered,
        ¬ ∃ k k', r.cseq = some k ∧ r'.cseq = some k' ∧ k < k' := by
    rintro r hr r' hr' ⟨k, k', hk, hk', hlt⟩
    rw [hn r (List.mem_filter.mp hr).1, Option.some.injEq] at hk
    rw [hn r' (List.mem_filter.mp hr').1, Option.some.injEq] at hk'
    rw [← hk, ← hk'] at hlt
    exact UInt32.lt_irrefl n hlt
  rw [hlength, ← pairwise_iff_length_le_one hequal]
  refine ⟨Numbered.increasing, fun hincreasing => ⟨hincreasing, ?_⟩⟩
  intro earlier ack later hrequests _ invite hinvite
  have hearlier : invite ∈ earlier := (List.mem_filter.mp (List.mem_of_getLast? hinvite)).1
  rw [hn ack (by rw [hrequests]; exact List.mem_append_right _ List.mem_cons_self),
    hn invite (by rw [hrequests]; exact List.mem_append_left _ hearlier)]

/-- An `INVITE` and the `BYE` after it have one number: `create_request` does not increase it. -/
theorem not_createRequests_numbered_bye :
    ¬ Numbered (calling.createRequests [(.invite, 0), (.bye, 0)]) := by
  intro h
  obtain ⟨n, n', hn, hn', hlt⟩ := List.rel_of_pairwise_cons h.increasing List.mem_cons_self
  have hn : some 1 = some n := hn
  have hn' : some 1 = some n' := hn'
  rw [← Option.some.inj hn, ← Option.some.inj hn'] at hlt
  exact UInt32.lt_irrefl 1 hlt

end Dialog

end Rssip
