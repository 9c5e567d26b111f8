import Rssip.Ua.NextEvent

namespace Rssip

open Lib

/-!
# The states of a dialog

A dialog goes from `Init` over `Early` and `Confirmed` to `Terminated`.  Three functions set its
state, and none of them looks at the one before.

* `AckFirst` — the `ACK` that a wait meets with first;
* `waitForAck_confirms_iff` — when only the `ACK` of the `INVITE` confirms a dialog;
* `run_climbs_iff` — when the state never goes back.
-/

namespace Dialog

/-! ### The first `ACK` -/

/-- A read that does not end the wait: a response, or another request, and an error to it is
    sent. -/
def Passes (d : Dialog) (r : Reception) : Prop :=
  match r.msg with
  | none => False
  | some (.response _) => True
  | some (.request request) => request.method ≠ .ack ∧ (d.InvalidCseq request → r.sent = .ok ())

/-- The dialog after a read. -/
def received (d : Dialog) (r : Reception) : Dialog := (d.receive r).dialog

/-- The `ACK` comes first, before the channel is closed, the timer ends or an error cannot be
    sent. -/
def AckFirst (receptions : List (Option Reception)) (ack : IncomingRequest) (d : Dialog) : Prop :=
  ∃ before r after, receptions = before.map some ++ some r :: after ∧
    Meets received Passes d before ∧ r.msg = some (.request ack) ∧ ack.method = .ack

/-- Where nothing is received no `ACK` comes first. -/
theorem not_ackFirst_nil (ack : IncomingRequest) (d : Dialog) : ¬ d.AckFirst [] ack := by
  rintro ⟨before, r, after, h, -⟩
  simp at h

/-- Where the channel ends at once no `ACK` comes first. -/
theorem not_ackFirst_none (receptions : List (Option Reception)) (ack : IncomingRequest)
    (d : Dialog) : ¬ d.AckFirst (none :: receptions) ack := by
  rintro ⟨before, r, after, h, -⟩
  cases before <;> simp at h

/-- The first read is the `ACK`, or passes. -/
theorem ackFirst_cons_iff {r : Reception} {receptions : List (Option Reception)}
    {ack : IncomingRequest} {d : Dialog} :
    d.AckFirst (some r :: receptions) ack ↔
      (r.msg = some (.request ack) ∧ ack.method = .ack) ∨
        (d.Passes r ∧ (d.received r).AckFirst receptions ack) := by
  constructor
  · rintro ⟨before, r', after, h, hpasses, hmsg, hmethod⟩
    cases before with
    | nil =>
      obtain ⟨rfl, rfl⟩ : r = r' ∧ receptions = after := by simpa using h
      exact .inl ⟨hmsg, hmethod⟩
    | cons first before =>
      obtain ⟨rfl, rfl⟩ : r = first ∧ receptions = before.map some ++ some r' :: after := by
        simpa using h
      exact .inr ⟨hpasses.1, before, r', after, rfl, hpasses.2, hmsg, hmethod⟩
  · rintro (⟨hmsg, hmethod⟩ | ⟨hpasses, before, r', after, rfl, hbefore, hmsg, hmethod⟩)
    · exact ⟨[], r, receptions, rfl, trivial, hmsg, hmethod⟩
    · exact ⟨r :: before, r', after, rfl, ⟨hpasses, hbefore⟩, hmsg, hmethod⟩

/-- To note a reception does not change the state. -/
theorem state_received (d : Dialog) (r : Reception) : (d.received r).state = d.state := by
  unfold received receive
  split
  · rfl
  · next request _ =>
    by_cases hinvalid : d.InvalidCseq request
    · rw [processIncomingRequest_of_invalid hinvalid]
    · rw [processIncomingRequest_of_valid hinvalid]
  · rfl

/-- A request is returned, unless an error to it cannot be sent. -/
theorem result_receive {d : Dialog} {r : Reception} {request : IncomingRequest}
    (hmsg : r.msg = some (.request request)) :
    (d.InvalidCseq request → r.sent = .ok ()) ∧
        (d.receive r).result = some (.ok (.request request)) ∨
      ¬ (d.InvalidCseq request → r.sent = .ok ()) ∧
        ∃ e, (d.receive r).result = some (.error e) := by
  rw [receive, hmsg]
  dsimp only
  by_cases hinvalid : d.InvalidCseq request
  · rw [processIncomingRequest_of_invalid hinvalid]
    cases r.sent with
    | ok u => exact .inl ⟨fun _ => rfl, rfl⟩
    | error e =>
      refine .inr ⟨fun h => ?_, e, rfl⟩
      cases h hinvalid
  · rw [processIncomingRequest_of_valid hinvalid]
    exact .inl ⟨fun h => absurd h hinvalid, rfl⟩

/-- How a wait ends: it gives the `ACK` that comes first, if there is one, and confirms the dialog
    then only. -/
structure Waited (receptions : List (Option Reception)) (d : Dialog) (call : Call IncomingRequest) :
    Prop where
  result : ∀ ack, call.result = some (.ok ack) ↔ d.AckFirst receptions ack
  state : (∃ ack, call.result = some (.ok ack) ∧ call.dialog.state = .confirmed) ∨
    (∀ ack, call.result ≠ some (.ok ack)) ∧ call.dialog.state = d.state

/-- A wait that gives nothing. -/
theorem Waited.of_none {receptions : List (Option Reception)} {d : Dialog}
    {call : Call IncomingRequest} (hresult : ∀ ack, call.result ≠ some (.ok ack))
    (hnone : ∀ ack, ¬ d.AckFirst receptions ack) (hstate : call.dialog.state = d.state) :
    Waited receptions d call :=
  ⟨fun ack => iff_of_false (hresult ack) (hnone ack), .inr ⟨hresult, hstate⟩⟩

/-- A read that passes leaves the wait to the reads after it. -/
theorem Waited.of_passes {r : Reception} {receptions : List (Option Reception)} {d : Dialog}
    {call : Call IncomingRequest} (hpasses : d.Passes r)
    (h : Waited receptions (d.received r) call) : Waited (some r :: receptions) d call := by
  refine ⟨fun ack => ?_, ?_⟩
  · rw [h.result ack, ackFirst_cons_iff]
    refine ⟨fun hlater => .inr ⟨hpasses, hlater⟩, ?_⟩
    rintro (⟨hmsg, hmethod⟩ | ⟨-, hlater⟩)
    · rw [Passes, hmsg] at hpasses
      exact absurd hmethod hpasses.1
    · exact hlater
  · rw [← state_received d r]
    exact h.state

/-- A read that is no `ACK` and does not pass ends the wait. -/
theorem not_ackFirst_of_ends {r : Reception} {d : Dialog}
    (hack : ∀ request, r.msg = some (.request request) → request.method ≠ .ack)
    (hends : ¬ d.Passes r) (receptions : List (Option Reception)) (ack : IncomingRequest) :
    ¬ d.AckFirst (some r :: receptions) ack := by
  rw [ackFirst_cons_iff]
  rintro (⟨hmsg, hmethod⟩ | ⟨hpasses, -⟩)
  · exact hack ack hmsg hmethod
  · exact hends hpasses

/-- What `wait_for_ack` waits for, by what it receives. -/
theorem waited_waitForAck (receptions : List (Option Reception)) (d : Dialog) :
    Waited receptions d (d.waitForAck receptions) := by
  induction receptions generalizing d with
  | nil => exact .of_none (by simp [waitForAck]) (fun ack => not_ackFirst_nil ack d) rfl
  | cons r receptions ih =>
    cases r with
    | none =>
      exact .of_none (by simp [waitForAck]) (fun ack => not_ackFirst_none receptions ack d) rfl
    | some r =>
      have hlater := ih (d.received r)
      have hstate := state_received d r
      cases hmsg : r.msg with
      | none =>
        -- the channel is closed
        have hresult : (d.receive r).result = some (.error .channelClosed) := by
          rw [receive, hmsg]
        have hends : ¬ d.Passes r := by
          rw [Passes, hmsg]
          exact not_false
        rw [waitForAck]
        simp only [hresult]
        refine .of_none (by simp) (not_ackFirst_of_ends ?_ hends receptions) hstate
        exact fun request hrequest => by cases hmsg.symm.trans hrequest
      | some msg =>
        cases msg with
        | response response =>
          have hresult : (d.receive r).result = some (.ok (.response response)) := by
            rw [receive, hmsg]
          have hpasses : d.Passes r := by
            rw [Passes, hmsg]
            trivial
          rw [waitForAck]
          simp only [hresult]
          exact .of_passes hpasses ⟨hlater.result, hlater.state⟩
        | request request =>
          have hends : d.Passes r ↔
              request.method ≠ .ack ∧ (d.InvalidCseq request → r.sent = .ok ()) := by
            rw [Passes, hmsg]
          rw [waitForAck]
          rcases result_receive (d := d) hmsg with ⟨hsent, hresult⟩ | ⟨hsent, e, hresult⟩
          · simp only [hresult]
            by_cases hmethod : request.method = .ack
            · rw [if_pos hmethod]
              refine ⟨fun ack => ?_, .inl ⟨request, rfl, rfl⟩⟩
              rw [ackFirst_cons_iff, hmsg]
              constructor
              · intro hack
                obtain rfl : request = ack := by simpa using hack
                exact .inl ⟨rfl, hmethod⟩
              · rintro (⟨hack, -⟩ | ⟨hpasses, -⟩)
                · obtain rfl : request = ack := by simpa using hack
                  rfl
                · exact absurd hmethod (hends.mp hpasses).1
            · rw [if_neg hmethod]
              exact .of_passes (hends.mpr ⟨hmethod, hsent⟩) ⟨hlater.result, hlater.state⟩
          · simp only [hresult]
            refine .of_none (by simp) (not_ackFirst_of_ends ?_ ?_ receptions) hstate
            · -- the number of an `ACK` is not checked, so that no error is sent to it
              rintro request' hrequest' hack
              obtain rfl : request = request' := by simpa [hmsg] using hrequest'
              exact hsent fun hinvalid => absurd (.inr hack) hinvalid.1
            · exact fun hpasses => hsent (hends.mp hpasses).2

/-! ### The `ACK` of the `INVITE` -/

/-- A wait gives an `ACK` with the number `n` only, and the dialog is confirmed by none but it. -/
structure Confirms (n : UInt32) (receptions : List (Option Reception)) (d : Dialog) : Prop where
  returns : ∀ ack, (d.waitForAck receptions).result = some (.ok ack) →
    ack.method = .ack ∧ ack.cseq = n
  state : (d.waitForAck receptions).dialog.state = .confirmed → d.state = .confirmed ∨
    ∃ ack, (d.waitForAck receptions).result = some (.ok ack) ∧ ack.cseq = n

/-- The `ACK` that comes first is one. -/
theorem AckFirst.method {receptions : List (Option Reception)} {ack : IncomingRequest} {d : Dialog}
    (h : d.AckFirst receptions ack) : ack.method = .ack := by
  obtain ⟨-, -, -, -, -, -, hmethod⟩ := h
  exact hmethod

/-- **Which `ACK` confirms a dialog.** It is the one of the `INVITE` with the number `n` exactly
    when that one comes first: the number is not looked at. -/
theorem waitForAck_confirms_iff (n : UInt32) (receptions : List (Option Reception)) (d : Dialog) :
    d.Confirms n receptions ↔ ∀ ack, d.AckFirst receptions ack → ack.cseq = n := by
  have hwaited := waited_waitForAck receptions d
  constructor
  · exact fun h ack hfirst => (h.returns ack ((hwaited.result ack).mpr hfirst)).2
  · intro h
    refine ⟨fun ack hack => ?_, fun hconfirmed => ?_⟩
    · have hfirst := (hwaited.result ack).mp hack
      exact ⟨hfirst.method, h ack hfirst⟩
    · rcases hwaited.state with ⟨ack, hack, -⟩ | ⟨-, hstate⟩
      · exact .inr ⟨ack, hack, h ack ((hwaited.result ack).mp hack)⟩
      · exact .inl (hstate.symm.trans hconfirmed)

/-- The dialog of an `INVITE` with the number 1 is confirmed by an `ACK` with the number 2. -/
theorem not_confirms_ack :
    ¬ Dialog.invited.Confirms 1 [some ⟨some (.request (.inDialog .ack 2)), .ok ()⟩] := by
  intro h
  exact absurd (h.returns (.inDialog .ack 2) rfl).2 (by decide)

/-! ### The order of the states -/

end Dialog

/-- The order of the states, up which a dialog is to go. -/
def DialogState.rank : DialogState → Nat
  | init => 0
  | early => 1
  | confirmed => 2
  | terminated => 3

/-- A call on a dialog.  A wait for an `ACK` may be given up after some reads. -/
inductive DialogCall where
  | provisionalResponse (serverTsx : ServerTransaction) (code : StatusCode)
      (reason : Option String) (sent : Except Error Unit)
  | finalResponse (serverTsx : ServerTransaction) (code : StatusCode) (sent : Except Error Unit)
  | waitForAck (receptions : List (Option Reception))
  | nextEvent (receptions : List Reception) (sent : Except Error Unit) (now : Nat)

namespace Dialog

/-- The dialog after a call. -/
def step (d : Dialog) : DialogCall → Dialog
  | .provisionalResponse serverTsx code reason sent =>
    (d.provisionalResponse serverTsx code reason sent).dialog
  | .finalResponse serverTsx code sent => (d.finalResponse serverTsx code sent).dialog
  | .waitForAck receptions => (d.waitForAck receptions).dialog
  | .nextEvent receptions sent now => (d.nextEvent receptions sent now).dialog

/-- A provisional response, other than `100`, is sent in a dialog that is not confirmed yet, and an
    `ACK` comes to one that is not terminated. -/
def Keeps (d : Dialog) : DialogCall → Prop
  | .provisionalResponse _ code _ sent =>
    sent = .ok () → code.asU16 ≠ 100 → d.state = .init ∨ d.state = .early
  | .waitForAck receptions => (∃ ack, d.AckFirst receptions ack) → d.state ≠ .terminated
  | .finalResponse _ _ _ | .nextEvent _ _ _ => True

/-- `receive_request` does not change the state. -/
theorem state_receiveRequest (receptions : List Reception) (d : Dialog) :
    (d.receiveRequest receptions).dialog.state = d.state := by
  induction receptions generalizing d with
  | nil => rfl
  | cons r receptions ih =>
    have hreceived := state_received d r
    rw [receiveRequest]
    dsimp only
    split
    · exact hreceived
    · exact hreceived
    · exact (ih _).trans hreceived

/-- An event leaves the state, or terminates the dialog. -/
theorem state_nextEvent (receptions : List Reception) (sent : Except Error Unit) (now : Nat)
    (d : Dialog) : (d.nextEvent receptions sent now).dialog.state = d.state ∨
      (d.nextEvent receptions sent now).dialog.state = .terminated := by
  have hreceived := state_receiveRequest receptions d
  unfold nextEvent
  split
  · exact .inl rfl
  · dsimp only
    split
    · exact .inl hreceived
    · exact .inl hreceived
    · split
      · exact .inl hreceived
      · split
        · exact .inl hreceived
        · split
          · exact .inr rfl
          · exact .inl hreceived
      · exact .inl hreceived

/-- Below and at `Early` there are two states. -/
theorem rank_le_early_iff (state : DialogState) :
    state.rank ≤ DialogState.early.rank ↔ state = .init ∨ state = .early := by
  cases state <;> decide

/-- Below and at `Confirmed` there are all states but the last. -/
theorem rank_le_confirmed_iff (state : DialogState) :
    state.rank ≤ DialogState.confirmed.rank ↔ state ≠ .terminated := by
  cases state <;> decide

/-- The last state is above all others. -/
theorem rank_le_terminated (state : DialogState) : state.rank ≤ DialogState.terminated.rank := by
  cases state <;> decide

/-- **A call keeps the order of the states** exactly when it comes in time. -/
theorem rank_le_step_iff (d : Dialog) (c : DialogCall) :
    d.state.rank ≤ (d.step c).state.rank ↔ d.Keeps c := by
  cases c with
  | provisionalResponse serverTsx code reason sent =>
    unfold step Dialog.provisionalResponse Keeps
    dsimp only
    cases sent with
    | error e => exact iff_of_true (Nat.le_refl _) nofun
    | ok u =>
      by_cases hcode : code.asU16 ≠ 100
      · simp only [if_pos hcode]
        rw [rank_le_early_iff]
        exact ⟨fun h _ _ => h, fun h => h trivial hcode⟩
      · simp only [if_neg hcode]
        exact iff_of_true (Nat.le_refl _) fun _ h => absurd h hcode
  | finalResponse serverTsx code sent => exact iff_of_true (Nat.le_refl _) trivial
  | waitForAck receptions =>
    have hwaited := waited_waitForAck receptions d
    rw [step, Keeps]
    rcases hwaited.state with ⟨ack, hack, hstate⟩ | ⟨hnone, hstate⟩
    · rw [hstate, rank_le_confirmed_iff]
      have hfirst := (hwaited.result ack).mp hack
      exact ⟨fun h _ => h, fun h => h ⟨ack, hfirst⟩⟩
    · rw [hstate]
      refine iff_of_true (Nat.le_refl _) ?_
      rintro ⟨ack, hfirst⟩
      exact absurd ((hwaited.result ack).mpr hfirst) (hnone ack)
  | nextEvent receptions sent now =>
    refine iff_of_true ?_ trivial
    rcases state_nextEvent receptions sent now d with hstate | hstate
    · exact Nat.le_of_eq (congrArg DialogState.rank hstate.symm)
    · rw [step, hstate]
      exact rank_le_terminated _

/-- **When the state never goes back.** All along a run no state of a dialog is before an earlier
    one exactly when no provisional response is sent in a confirmed dialog, and no `ACK` is
    waited for, and comes, in a terminated one. -/
theorem run_climbs_iff (d : Dialog) (calls : List DialogCall) :
    Climbs step (fun d => d.state.rank) d calls ↔ Meets step Keeps d calls := by
  rw [climbs_iff_meets]
  exact meets_congr rank_le_step_iff

/-- An `INVITE` in a confirmed dialog rings, and the dialog is early again. -/
theorem not_run_climbs_ringing :
    ∃ reInvite, ServerTransaction.fromRequest (.inDialog .invite 2) 0 = some reInvite ∧
      ¬ Climbs step (fun d => d.state.rank) invited
        [.waitForAck [some ⟨some (.request (.inDialog .ack 1)), .ok ()⟩],
          .provisionalResponse reInvite .ringing none (.ok ())] := by
  refine ⟨_, rfl, fun hclimbs => ?_⟩
  have hle := hclimbs [.waitForAck [some ⟨some (.request (.inDialog .ack 1)), .ok ()⟩]] _
    (List.prefix_refl _)
  exact absurd hle (by decide)

end Dialog

end Rssip
