import Rssip.Endpoint.SendResponse
import Rssip.Transaction.ServerTable

namespace Rssip

open Lib

/-!
# Copies of the final response

Outside of `INVITE` transactions the final task answers every message with a copy of the final
response, until `64 * T1` have passed.  Between the hand-over of the final response and the end of
its transmission the provisional task still reads the channel, and answers with a response of its
own.

* `Endpoint.sendOutgoingResponse_encoded` — a response that was sent before is sent as it was;
* `ServerTransaction.Sending`, `ServerTransaction.Absorbing` — the final response is on its way, or
  behind;
* `ServerCopies.step` — a step of the transaction, with the copies that the endpoint sends;
* `ServerCopies.Untaken`, `ServerCopies.Uncancelled` — what the steps must meet;
* `run_copies_iff` — the statement about runs.
-/

namespace Endpoint

/-- A transport that takes everything. -/
def Takes (net : Network) : Prop := ∀ tried attempt, ∃ n, net.sendMsg tried attempt = .ok n

/-- **A response that was sent before is sent as it was**, whatever the plugins do to it. -/
theorem sendOutgoingResponse_encoded (plugins : List (Response → Response)) {net : Network}
    (hnet : Takes net) {r : EncodedResponse} (hencoded : r.encoded ≠ [])
    {target : TargetTransportInfo} (htarget : r.outgoing.destInfo.transport = some target) :
    ∃ r', sendOutgoingResponse plugins net r =
        some (r', .ok target, [⟨target.transport, r.encoded, target.socketAddr⟩]) ∧
      r'.encoded = r.encoded ∧ r'.outgoing.destInfo.transport = some target := by
  have hkept : r.encoded.isEmpty = false := by
    rw [← Bool.not_eq_true, List.isEmpty_iff]
    exact hencoded
  obtain ⟨n, hsent⟩ := hnet [] ⟨target.transport, r.encoded, target.socketAddr⟩
  simp only [sendOutgoingResponse, encodeResponse, hkept, Bool.false_eq_true, if_false,
    Option.map_some, sendResponse, htarget, hsent]
  exact ⟨_, rfl, rfl, rfl⟩

/-- A response remembers the target that took it. -/
theorem transport_sendOutgoingResponse {plugins : List (Response → Response)} {net : Network}
    {r r' : EncodedResponse} {target : TargetTransportInfo} {tried : List Attempt}
    (h : sendOutgoingResponse plugins net r = some (r', .ok target, tried)) :
    r'.outgoing.destInfo.transport = some target := by
  obtain ⟨r₁, -, heq⟩ := Option.map_eq_some_iff.mp h
  simp only [Prod.mk.injEq] at heq
  obtain ⟨rfl, hsent, -⟩ := heq
  simp only [hsent]
  rfl

end Endpoint

/-! ### Outside of `INVITE` transactions -/

/-- The call of `send_final_response` has not returned. -/
def ServerActivity.inFinalCall : ServerActivity → Bool
  | .sendingFinal _ | .joining _ _ => true
  | _ => false

namespace ServerTransaction

variable {s : ServerTransaction}

/-- Who holds the transaction will end it at `limit`. -/
def EndsAt (limit : Nat) (s : ServerTransaction) : Prop :=
  match s.activity with
  | .joining _ deadline | .absorbing _ deadline _ => deadline = limit
  | _ => True

/-- A transaction behind the final response to another request than `INVITE`. -/
structure Absorbing (limit : Nat) (s : ServerTransaction) : Prop where
  final : s.FinalOk
  states : s.StatesOk
  isInvite : s.isInviteTsx = false
  endsAt : s.EndsAt limit

variable {limit : Nat}

/-- Who holds it. -/
theorem Absorbing.activity_cases (h : s.Absorbing limit) :
    (∃ response, s.activity = .joining response limit) ∨
      (∃ response sending, s.activity = .absorbing response limit sending) ∨
      s.activity = .dropped := by
  have hfinal := h.final
  have hends := h.endsAt
  obtain ⟨provisional, after, -, hafter, -⟩ := h.states
  unfold EndsAt at hends
  cases hactivity : s.activity with
  | joining response deadline =>
    simp only [hactivity] at hends
    exact .inl ⟨response, by rw [hends]⟩
  | absorbing response deadline sending =>
    simp only [hactivity] at hends
    exact .inr (.inl ⟨response, sending, by rw [hends]⟩)
  | dropped => exact .inr (.inr rfl)
  -- these are for an `INVITE`
  | retransmitting response interval expires deadline sending =>
    rw [hactivity] at hafter
    exact absurd (h.isInvite.symm.trans hafter.1) Bool.noConfusion
  | confirmed wakeup =>
    rw [hactivity] at hafter
    exact absurd (h.isInvite.symm.trans hafter.1) Bool.noConfusion
  | idle | sendingProvisional _ | sendingFinal _ => simp only [FinalOk, hactivity] at hfinal

/-- What a poll does there: the call comes to the final task, a message is answered, or the
    transaction ends. -/
theorem Absorbing.poll_cases (h : s.Absorbing limit) :
    s.outputs .poll = [] ∧ s.poll.activity = s.activity ∧ s.poll.state = s.state ∧
        (∀ response, s.activity = .absorbing response limit false → s.now < limit) ∨
      (∃ response, s.activity = .joining response limit ∧
        s.outputs .poll = [.returned (.ok ())] ∧
        s.poll.activity = .absorbing response limit false) ∨
      (∃ response msg, s.activity = .absorbing response limit false ∧
        s.outputs .poll = [.received msg, .sent response] ∧
        s.poll.activity = .absorbing response limit true) ∨
      (s.outputs .poll = [] ∧ s.poll.activity = .dropped ∧ s.poll.state = .terminated) := by
  obtain ⟨outs, states, htrace, hhistory, hpoll⟩ := h.final.polled
  rw [outputs_poll htrace]
  -- the call and the task end at the same time
  have hjoining : ∀ {response deadline}, s.activity = .joining response deadline →
      deadline = limit := by
    intro response deadline hactivity
    have hends := h.endsAt
    simp only [EndsAt, hactivity] at hends
    exact hends
  have habsorbing : ∀ {response deadline sending},
      s.activity = .absorbing response deadline sending → deadline = limit := by
    intro response deadline sending hactivity
    have hends := h.endsAt
    simp only [EndsAt, hactivity] at hends
    exact hends
  have hinvite : ∀ {activity}, s.activity = activity →
      (∀ after, ¬ activity.Admits false after) → False := by
    rintro activity rfl hnot
    obtain ⟨provisional, after, -, hafter, -⟩ := h.states
    rw [h.isInvite] at hafter
    exact hnot after hafter
  have hlast : s.poll.stateMachine.history.getLast? = some s.poll.state :=
    (h.states.step .poll).states.getLast?_history
  rw [hhistory] at hlast
  generalize hafter : s.poll.activity = activity at hpoll
  cases hpoll with
  | still hretransmitting hnot =>
    rw [List.append_nil, h.states.getLast?_history, Option.some.injEq] at hlast
    exact .inl ⟨rfl, rfl, hlast.symm, fun response hactivity => absurd hactivity (hnot _ _)⟩
  | joined hactivity =>
    obtain rfl := hjoining hactivity
    rw [h.isInvite]
    exact .inr (.inl ⟨_, hactivity, rfl, rfl⟩)
  | absorbs hactivity hqueue hopen hdeadline =>
    obtain rfl := habsorbing hactivity
    rw [List.append_nil, h.states.getLast?_history, Option.some.injEq] at hlast
    exact .inl ⟨rfl, rfl, hlast.symm, fun _ _ => hdeadline⟩
  | copied hactivity hqueue =>
    obtain rfl := habsorbing hactivity
    exact .inr (.inr (.inl ⟨_, _, hactivity, rfl, rfl⟩))
  | absorbed hactivity hqueue hend =>
    refine .inr (.inr (.inr ⟨rfl, rfl, ?_⟩))
    rw [List.getLast?_concat, Option.some.injEq] at hlast
    exact hlast.symm
  | waits hactivity _ _ _ _ | answered hactivity _ _ | acked hactivity _ _
  | repeated hactivity _ _ _ | gaveUp hactivity _ _ _ _ | closed hactivity _ _
  | confirmedOver hactivity _ => exact (hinvite hactivity fun _ h => nomatch h.1).elim

theorem Absorbing.step (h : s.Absorbing limit) (e : ServerEvent) :
    (s.step e).Absorbing limit where
  final := h.final.step e
  states := (h.states.step e).states
  isInvite := (isInviteTsx_eq (h.states.step e).request).trans h.isInvite
  endsAt := by
    have hends := h.endsAt
    unfold EndsAt at hends ⊢
    -- only a poll can end the absorbing, and it keeps the deadline until then
    by_cases he : e = .poll
    · subst he
      show match s.poll.activity with
        | .joining _ deadline | .absorbing _ deadline _ => deadline = limit
        | _ => True
      rcases h.poll_cases with ⟨-, hafter, -, -⟩ | ⟨_, -, -, hafter⟩ | ⟨_, _, -, -, hafter⟩ |
        ⟨-, hafter, -⟩
      · rw [hafter]
        exact hends
      all_goals simp only [hafter]
    · have hother := (h.final.other he).holder
      generalize (s.step e).activity = activity at hother
      cases hother with
      | same => exact hends
      | sent hactivity _ => trivial
      | absorbingSent hactivity _ =>
        simp only [hactivity] at hends
        exact hends
      | cancelled _ _ => trivial

/-- **Nobody has nothing to do at the end.** -/
theorem Absorbing.dropped_of_quiet (h : s.Absorbing limit) (hquiet : s.Quiet)
    (hdue : limit ≤ s.now) : s.activity = .dropped := by
  have hsame := congrArg activity hquiet.poll
  rcases h.activity_cases with ⟨response, hactivity⟩ | ⟨response, sending, hactivity⟩ | hdropped
  · -- the provisional task would leave, or the call would go on
    have hfinal := h.final
    simp only [FinalOk, hactivity] at hfinal
    obtain ⟨-, task, hhandle, -⟩ := hfinal
    have hpollTask := h.final.pollTask_of_handle hhandle
    rw [hquiet.pollTask, hquiet.sending task hhandle, Bool.or_false] at hpollTask
    have hreturned : task.returned = true := by
      by_contra hnot
      rw [if_neg hnot] at hpollTask
      have htask := congrArg provisionalRetransHandle hpollTask
      rw [hhandle] at htask
      exact hnot (congrArg ProvisionalTask.returned (Option.some.inj htask))
    have hpoll : s.poll =
        { s with provisionalRetransHandle := none }.spawnFinalTask response limit := by
      unfold ServerTransaction.poll
      rw [hactivity]
      simp only [hhandle, Option.any_some, hreturned, if_true]
    rw [hpoll, spawnFinalTask_eq, hactivity] at hsame
    change (if _ then _ else _) = _ at hsame
    split at hsame
    all_goals cases hsame
  · cases sending with
    | true =>
      have htransmitting := hquiet.transmitting
      rw [hactivity] at htransmitting
      cases htransmitting
    | false =>
      rcases h.poll_cases with ⟨-, -, -, hbefore⟩ | ⟨_, hother, -⟩ | ⟨_, _, -, -, hafter⟩ |
        ⟨-, hafter, -⟩
      · exact absurd hdue (hbefore _ hactivity).not_ge
      · rw [hactivity] at hother
        cases hother
      · rw [hafter, hactivity] at hsame
        cases hsame
      · rw [hafter] at hsame
        exact hsame.symm
  · exact hdropped

/-- What a step puts out. -/
theorem Absorbing.outputs_cases (h : s.Absorbing limit) (e : ServerEvent) :
    s.outputs e = [] ∨ s.outputs e = [.returned (.ok ())] ∨
      ∃ response msg, s.activity = .absorbing response limit false ∧
        s.outputs e = [.received msg, .sent response] := by
  by_cases he : e = .poll
  · subst he
    rcases h.poll_cases with
      ⟨hnone, -⟩ | ⟨_, -, hreturned, -⟩ | ⟨response, msg, hactivity, hcopy, -⟩ | ⟨hnone, -⟩
    · exact .inl hnone
    · exact .inr (.inl hreturned)
    · exact .inr (.inr ⟨response, msg, hactivity, hcopy⟩)
    · exact .inl hnone
  · exact .inl (h.final.outputs_other he)

/-- Nothing changes the state of a transaction that is gone. -/
theorem state_step_of_dropped (h : s.activity = .dropped) (e : ServerEvent) :
    (s.step e).state = s.state := by
  have hbusy : s.activity ≠ .idle := by
    rw [h]
    exact ServerActivity.noConfusion
  show (s.step e).stateMachine.state = s.stateMachine.state
  cases e with
  | sendProvisionalResponse _ | sendFinalResponse _ | drop | subscribeState =>
    rw [step_of_busy hbusy]
    exact trivial
  | pollTask => exact congrArg StateMachine.state (pollTask_frame s).2.1
  | retransmitted res => exact congrArg StateMachine.state (retransmitted_frame res s).2.1
  | sent _ | poll | cancel =>
    simp only [ServerTransaction.step, ServerTransaction.sent, ServerTransaction.poll, cancel, h]
  | deliver _ | recvState _ =>
    simp only [ServerTransaction.step]
    split
    all_goals rfl
  | close | elapse _ => rfl

/-- Before the final task has taken over, a transaction that is not gone is not in its last
    state. -/
theorem StatesOk.state_ne_terminated (h : s.StatesOk)
    (hafter : ∀ after, s.activity.Admits s.isInviteTsx after →
      after = [] ∨ after = [.completed]) : s.state ≠ .terminated := by
  obtain ⟨provisional, after, hstates, hadmits, -⟩ := h
  have hlast := hstates.machine.last
  rw [hstates.history] at hlast
  intro hterminated
  rw [show s.stateMachine.state = .terminated from hterminated] at hlast
  rcases hafter after hadmits with rfl | rfl
  · -- the states before the final response
    rw [List.append_nil] at hlast
    unfold statesBefore serverStart at hlast
    revert hlast
    cases s.isInviteTsx
    all_goals
      cases provisional
      all_goals decide
  · rw [List.getLast?_concat] at hlast
    cases hlast

/-- **A transaction is gone in `Terminated`** as long as its call is not cancelled. -/
theorem Absorbing.terminated_iff (h : s.Absorbing limit)
    (hgone : s.activity = .dropped → s.state = .terminated) (e : ServerEvent) :
    ((s.step e).activity = .dropped → (s.step e).state = .terminated) ↔
      (e = .cancel → s.activity.inFinalCall = false) := by
  by_cases hpoll : e = .poll
  · subst hpoll
    refine iff_of_true ?_ (fun heq => nomatch heq)
    show s.poll.activity = .dropped → s.poll.state = .terminated
    rcases h.poll_cases with ⟨-, hafter, hstate, -⟩ | ⟨_, -, -, hafter⟩ | ⟨_, _, -, -, hafter⟩ |
      ⟨-, -, hterminated⟩
    · rw [hafter, hstate]
      exact hgone
    · rw [hafter]
      exact fun heq => nomatch heq
    · rw [hafter]
      exact fun heq => nomatch heq
    · exact fun _ => hterminated
  · have haside := h.final.other hpoll
    have hother := haside.holder
    have hlast : (s.step e).stateMachine.history.getLast? = some (s.step e).state :=
      (h.states.step e).states.getLast?_history
    -- no state was added
    rw [haside.history, h.states.getLast?_history, Option.some.injEq] at hlast
    rw [← hlast]
    generalize hactivity' : (s.step e).activity = activity at hother
    cases hother with
    | same =>
      refine iff_of_true hgone ?_
      rintro rfl
      -- a call that was cancelled would be gone
      by_contra hcall
      have hcancel : s.cancel.activity = s.activity := hactivity'
      unfold cancel at hcancel
      cases hactivity : s.activity with
      | sendingFinal _ | joining _ _ =>
        simp only [hactivity] at hcancel
        cases hcancel
      | _ => exact hcall (by rw [hactivity]; rfl)
    | sent _ heq | absorbingSent _ heq =>
      subst heq
      exact iff_of_true (fun heq => nomatch heq) (fun heq => nomatch heq)
    | cancelled hactivity heq =>
      have hnot : s.state ≠ .terminated := by
        refine h.states.state_ne_terminated fun after hadmits => .inr ?_
        rw [hactivity] at hadmits
        exact hadmits
      refine iff_of_false (fun hterminated => hnot (hterminated rfl)) fun huncancelled => ?_
      have hcall := huncancelled heq
      rw [hactivity] at hcall
      cases hcall

/-- The final response of a transaction other than that of an `INVITE` is being transmitted over an
    unreliable transport. -/
structure Sending (response : OutgoingResponse) (s : ServerTransaction) : Prop where
  handOver : s.HandOverOk
  states : s.StatesOk
  isInvite : s.isInviteTsx = false
  isReliable : s.isReliable = false
  sending : s.activity = .sendingFinal response

variable {response : OutgoingResponse}

theorem Sending.inFinalCall (h : s.Sending response) : s.activity.inFinalCall = true := by
  rw [h.sending]
  rfl

theorem Sending.live (h : s.Sending response) : s.activity ≠ .dropped := by
  rw [h.sending]
  exact ServerActivity.noConfusion

/-- The final response was transmitted: its end is `64 * T1` away. -/
theorem Sending.absorbing_sent (h : s.Sending response) (target : TargetTransportInfo) :
    (s.sent (.ok target)).Absorbing (s.now + T1 * 64) ∧
      (s.sent (.ok target)).activity ≠ .dropped := by
  have hstep := h.states.step (.sent (.ok target))
  have hnotInvite : ¬ s.isInviteTsx = true := by
    rw [h.isInvite]
    exact Bool.noConfusion
  have hactivity := h.handOver.activity_sent h.sending h.isReliable
    (fun heq => absurd heq hnotInvite) target
  rw [if_neg hnotInvite, if_neg hnotInvite] at hactivity
  have hends : (s.sent (.ok target)).EndsAt (s.now + T1 * 64) ∧
      (s.sent (.ok target)).activity ≠ .dropped := by
    unfold EndsAt
    -- the limit is one, whether or not the call waits for the provisional task
    split at hactivity
    · rw [hactivity]
      exact ⟨rfl, fun heq => nomatch heq⟩
    · rw [hactivity]
      exact ⟨rfl, fun heq => nomatch heq⟩
  have hinvite : (s.sent (.ok target)).isInviteTsx = false :=
    (isInviteTsx_eq hstep.request).trans h.isInvite
  exact ⟨⟨h.handOver.finalOk_sent h.sending target, hstep.states, hinvite, hends.1⟩, hends.2⟩

/-- **What becomes of the transmission**: it goes on, it succeeds, or the transaction is dropped
    with its call, in a state that is not the last. -/
theorem Sending.step (h : s.Sending response) (e : ServerEvent) :
    (s.step e).Sending response ∧ (e = .cancel → False) ∨
      (∃ target, e = .sent (.ok target)) ∧ (s.step e).Absorbing (s.now + T1 * 64) ∧
        (s.step e).activity ≠ .dropped ∨
      (e = .cancel ∨ ∃ err, e = .sent (.error err)) ∧ (s.step e).activity = .dropped ∧
        (s.step e).state ≠ .terminated ∧ ∀ limit, (s.step e).Absorbing limit := by
  have hstep := h.states.step e
  have hinvite : (s.step e).isInviteTsx = false :=
    (isInviteTsx_eq hstep.request).trans h.isInvite
  rcases step_sendingFinal h.sending e with
    ⟨hstill, -⟩ | ⟨target, rfl⟩ | ⟨hend, hdropped, hmachine, -⟩
  · refine .inl ⟨⟨h.handOver.step e, hstep.states, hinvite, ?_, hstill⟩, ?_⟩
    · exact (isReliable_eq hstep.request).trans h.isReliable
    · rintro rfl
      have hcancel : s.cancel.activity = .sendingFinal response := hstill
      unfold cancel at hcancel
      simp only [h.sending] at hcancel
      cases hcancel
  · exact .inr (.inl ⟨⟨target, rfl⟩, h.absorbing_sent target⟩)
  · refine .inr (.inr ⟨hend, hdropped, ?_, fun limit => ?_⟩)
    · have hbefore : s.state ≠ .terminated := by
        refine h.states.state_ne_terminated fun after hadmits => .inl ?_
        rw [h.sending] at hadmits
        exact hadmits
      show (s.step e).stateMachine.state ≠ .terminated
      rw [hmachine]
      exact hbefore
    · refine ⟨?_, hstep.states, hinvite, ?_⟩
      · simp only [FinalOk, hdropped]
      · simp only [EndsAt, hdropped]

end ServerTransaction

/-- The step is one of the provisional task. -/
def ServerEvent.isPollTask : ServerEvent → Bool
  | .pollTask => true
  | _ => false

/-- What is handed to a transport behind the final response: a copy of it, or the response of the
    provisional task. -/
inductive SentCopy where
  | final (attempt : Attempt)
  | provisional (response : OutgoingResponse)
deriving DecidableEq

/-- A transaction whose final response was handed over: the response as its call or task holds it,
    the times at which messages were taken out of the channel, and what was handed to a transport
    when. -/
structure ServerCopies where
  entry : RegisteredServer
  response : EncodedResponse
  reads : List Nat := []
  copies : List (Nat × SentCopy) := []

namespace ServerCopies

section

-- what the plugins make of a response, and what becomes of it, after so many messages
variable (plugins : Nat → List (Response → Response)) (net : Nat → Network)

/-- The endpoint sends the response, unless the printer of a header panics. -/
def transmit (now : Nat) (w : ServerCopies) : ServerCopies :=
  match Endpoint.sendOutgoingResponse (plugins w.reads.length) (net w.reads.length) w.response with
  | some (response, _, tried) =>
    { w with
      response := response
      copies := w.copies ++ tried.map fun attempt => (now, .final attempt) }
  | none => w

/-- What the transaction puts out.  The provisional task sends a response of its own. -/
def put (now : Nat) (isPollTask : Bool) (w : ServerCopies) : ServerOutput → ServerCopies
  | .sent response =>
    if isPollTask then { w with copies := w.copies ++ [(now, .provisional response)] }
    else w.transmit plugins net now
  | .received _ => { w with reads := w.reads ++ [now] }
  | .returned _ | .panicked => w

/-- A step of the transaction, or of the others in the table. -/
def step (w : ServerCopies) (e : TableEvent) : ServerCopies :=
  let w' : ServerCopies := { w with entry := w.entry.step e }
  match e with
  | .server e =>
    (w.entry.server.outputs e).foldl (put plugins net w.entry.server.now e.isPollTask) w'
  | .addTransaction _ _ | .removeTransaction _ => w'

theorem entry_transmit (now : Nat) (w : ServerCopies) :
    (w.transmit plugins net now).entry = w.entry := by
  unfold transmit
  split
  all_goals rfl

theorem entry_foldl (now : Nat) (isPollTask : Bool) (outs : List ServerOutput)
    (w : ServerCopies) : (outs.foldl (put plugins net now isPollTask) w).entry = w.entry := by
  induction outs generalizing w with
  | nil => rfl
  | cons out outs ih =>
    refine (ih _).trans ?_
    cases out with
    | sent response =>
      unfold put
      dsimp only
      split
      · rfl
      · exact entry_transmit plugins net now w
    | received msg | returned res | panicked => rfl

theorem entry_step (w : ServerCopies) (e : TableEvent) :
    (step plugins net w e).entry = w.entry.step e := by
  cases e with
  | server e => exact entry_foldl _ _ _ _ _ _
  | addTransaction key entry | removeTransaction key => rfl

theorem step_elapse (w : ServerCopies) (ms : Nat) :
    step plugins net w (.server (.elapse ms)) =
      { w with entry := { w.entry with server := w.entry.server.step (.elapse ms) } } := by
  have houts : w.entry.server.outputs (.elapse ms) = [] := List.drop_length
  unfold step
  simp only [houts, List.foldl_nil, RegisteredServer.step_elapse]

/-- The clock of the transaction. -/
def clock : Clock (step plugins net) where
  now w := w.entry.server.now
  elapse ms := .server (.elapse ms)
  now_elapse w ms := by
    rw [entry_step, RegisteredServer.server_step_server]
    rfl
  elapse_add w ms ms' := by
    rw [step_elapse, step_elapse, step_elapse]
    simp only [ServerTransaction.step, Nat.add_assoc]
  now_step w e he := by
    rw [entry_step]
    rcases RegisteredServer.server_step_cases w.entry e with ⟨e', rfl, heq⟩ | heq
    · rw [heq]
      exact ServerTransaction.now_step _ fun ms heq => he ms (congrArg TableEvent.server heq)
    · rw [heq]

end

/-- The response is held as it was sent: as `data` to `target`. -/
structure Held (target : TargetTransportInfo) (data : Bytes) (w : ServerCopies) : Prop where
  encoded : w.response.encoded = data
  transport : w.response.outgoing.destInfo.transport = some target

/-- There is one copy of the final response for every message, all sent as `data` to `target`. -/
def Copied (target : TargetTransportInfo) (data : Bytes) (w : ServerCopies) : Prop :=
  w.copies = w.reads.map fun t => (t, .final ⟨target.transport, data, target.socketAddr⟩)

/-- What a step must meet for the copies: the provisional task reads no message while the final
    response is being transmitted. -/
def Untaken (w : ServerCopies) (e : TableEvent) : Prop :=
  e = .server .pollTask → w.entry.server.taskPass = .reads →
    ∀ response, w.entry.server.activity ≠ .sendingFinal response

/-- What a step must meet for the end: the call of the final response is not cancelled. -/
def Uncancelled (w : ServerCopies) (e : TableEvent) : Prop :=
  e = .server .cancel → w.entry.server.activity.inFinalCall = false

/-- From the hand-over of the final response on it is being transmitted, or behind. -/
structure Ok (target : TargetTransportInfo) (data : Bytes) (response : OutgoingResponse)
    (w : ServerCopies) : Prop where
  held : w.Held target data
  handed : w.entry.server.Sending response ∨ ∃ limit, w.entry.server.Absorbing limit

section Steps

variable {plugins : Nat → List (Response → Response)} {net : Nat → Network}
  {target : TargetTransportInfo} {data : Bytes} {response : OutgoingResponse} {limit : Nat}
  {w : ServerCopies}

/-- Outputs that neither read nor send leave the copies alone. -/
theorem foldl_put_of_aside {now : Nat} {isPollTask : Bool} {outs : List ServerOutput}
    (houts : ∀ out ∈ outs, out.isSent = false ∧ out.isReceived = false) (w : ServerCopies) :
    outs.foldl (put plugins net now isPollTask) w = w := by
  induction outs with
  | nil => rfl
  | cons out outs ih =>
    obtain ⟨hsent, hreceived⟩ := houts out List.mem_cons_self
    have hput : put plugins net now isPollTask w out = w := by
      cases out with
      | sent response => cases hsent
      | received msg => cases hreceived
      | returned res | panicked => rfl
    rw [List.foldl_cons, hput]
    exact ih fun out hout => houts out (List.mem_cons_of_mem _ hout)

/-- A message that the call or the final task takes is answered with one copy. -/
theorem Held.answer (plugins : Nat → List (Response → Response))
    (hnet : ∀ k, Endpoint.Takes (net k)) (hdata : data ≠ [])
    (h : w.Held target data) (now : Nat) (msg : IncomingMessage) (response : OutgoingResponse) :
    ∃ r', [.received msg, .sent response].foldl (put plugins net now false) w =
        { w with
          response := r'
          reads := w.reads ++ [now]
          copies := w.copies ++
            [(now, .final ⟨target.transport, data, target.socketAddr⟩)] } ∧
      r'.encoded = data ∧ r'.outgoing.destInfo.transport = some target := by
  obtain ⟨hencoded, htransport⟩ := h
  have hne : w.response.encoded ≠ [] := by
    rw [hencoded]
    exact hdata
  obtain ⟨r', hsent, hencoded', htransport'⟩ :=
    Endpoint.sendOutgoingResponse_encoded (plugins (w.reads ++ [now]).length)
      (hnet (w.reads ++ [now]).length) hne htransport
  refine ⟨r', ?_, hencoded'.trans hencoded, htransport'⟩
  simp only [List.foldl_cons, List.foldl_nil, put, transmit, hsent, hencoded, List.map_cons,
    List.map_nil, Bool.false_eq_true, if_false]

/-- What a step does to the reads and the copies. -/
inductive CopyStep (target : TargetTransportInfo) (data : Bytes) (w : ServerCopies)
    (e : TableEvent) (w' : ServerCopies) : Prop
  | same (huntaken : w.Untaken e) (hreads : w'.reads = w.reads) (hcopies : w'.copies = w.copies)
  | copied (huntaken : w.Untaken e) (hlive : w.entry.server.activity ≠ .dropped)
      (hreads : w'.reads = w.reads ++ [w.entry.server.now])
      (hcopies : w'.copies = w.copies ++
        [(w.entry.server.now, .final ⟨target.transport, data, target.socketAddr⟩)])
  | taken (htaken : ¬ w.Untaken e) (hlive : w.entry.server.activity ≠ .dropped)
      (hreads : w'.reads = w.reads ++ [w.entry.server.now]) (again : OutgoingResponse)
      (hcopies : w'.copies = w.copies ++ [(w.entry.server.now, .provisional again)])

/-- While the final response is being transmitted only the provisional task reads. -/
theorem Ok.copyStep_sending (hheld : w.Held target data)
    (hsending : w.entry.server.Sending response) (e : ServerEvent) :
    (step plugins net w (.server e)).Held target data ∧
      CopyStep target data w (.server e) (step plugins net w (.server e)) := by
  unfold step
  dsimp only
  by_cases he : e = .pollTask
  · subst he
    rcases w.entry.server.outputs_pollTask with ⟨hpass, hnone⟩ | ⟨hpass, msg, again, hagain⟩
    · rw [hnone]
      exact ⟨⟨hheld.encoded, hheld.transport⟩, .same (fun _ hreads => absurd hreads hpass) rfl rfl⟩
    · rw [hagain]
      refine ⟨⟨hheld.encoded, hheld.transport⟩, .taken ?_ hsending.live rfl again rfl⟩
      exact fun huntaken => huntaken rfl hpass response hsending.sending
  · rw [foldl_put_of_aside (ServerTransaction.outputs_sendingFinal hsending.sending he)]
    refine ⟨⟨hheld.encoded, hheld.transport⟩, .same (fun heq => ?_) rfl rfl⟩
    exact absurd (TableEvent.server.inj heq) he

/-- Behind the final response every message is answered with a copy. -/
theorem Ok.copyStep_absorbing (hnet : ∀ k, Endpoint.Takes (net k)) (hdata : data ≠ [])
    (hheld : w.Held target data) (habsorbing : w.entry.server.Absorbing limit) (e : ServerEvent) :
    (step plugins net w (.server e)).Held target data ∧
      CopyStep target data w (.server e) (step plugins net w (.server e)) := by
  have huntaken : w.Untaken (.server e) := by
    intro _ _ response hsending
    have hfinal := habsorbing.final
    simp only [ServerTransaction.FinalOk, hsending] at hfinal
  unfold step
  dsimp only
  rcases habsorbing.outputs_cases e with hnone | hreturned | ⟨response, msg, hactivity, hcopy⟩
  · rw [hnone]
    exact ⟨⟨hheld.encoded, hheld.transport⟩, .same huntaken rfl rfl⟩
  · rw [hreturned]
    exact ⟨⟨hheld.encoded, hheld.transport⟩, .same huntaken rfl rfl⟩
  · have hpoll : e.isPollTask = false := by
      cases e with
      | pollTask =>
        rw [habsorbing.final.outputs_other ServerEvent.noConfusion] at hcopy
        cases hcopy
      | _ => rfl
    have hheld' : { w with entry := w.entry.step (.server e) }.Held target data :=
      ⟨hheld.encoded, hheld.transport⟩
    obtain ⟨r', heq, hencoded, htransport⟩ :=
      hheld'.answer plugins hnet hdata w.entry.server.now msg response
    rw [hcopy, hpoll, heq]
    refine ⟨⟨hencoded, htransport⟩, .copied huntaken ?_ rfl rfl⟩
    rw [hactivity]
    exact ServerActivity.noConfusion

/-- **A step sends a copy for a message, or nothing**, unless the provisional task reads it. -/
theorem Ok.copyStep (plugins : Nat → List (Response → Response))
    (hnet : ∀ k, Endpoint.Takes (net k)) (hdata : data ≠ []) (h : w.Ok target data response) (e : TableEvent) :
    (step plugins net w e).Held target data ∧
      CopyStep target data w e (step plugins net w e) := by
  cases e with
  | addTransaction key entry | removeTransaction key =>
    exact ⟨⟨h.held.encoded, h.held.transport⟩, .same (fun heq => nomatch heq) rfl rfl⟩
  | server e =>
    rcases h.handed with hsending | ⟨limit, habsorbing⟩
    · exact copyStep_sending h.held hsending e
    · exact copyStep_absorbing hnet hdata h.held habsorbing e

/-- A step of the transaction is one of the table. -/
theorem server_step_cases (plugins : Nat → List (Response → Response)) (net : Nat → Network)
    (w : ServerCopies) (e : TableEvent) :
    (∃ e', e = .server e' ∧
        (step plugins net w e).entry.server = w.entry.server.step e') ∨
      (∀ e', e ≠ .server e') ∧ (step plugins net w e).entry.server = w.entry.server := by
  rw [entry_step]
  cases e with
  | server e => exact .inl ⟨e, rfl, RegisteredServer.server_step_server _ _⟩
  | addTransaction key entry =>
    refine .inr ⟨(fun _ heq => nomatch heq), ?_⟩
    rcases RegisteredServer.server_step_cases w.entry (.addTransaction key entry) with
      ⟨e', heq, -⟩ | hsame
    · cases heq
    · exact hsame
  | removeTransaction key =>
    refine .inr ⟨(fun _ heq => nomatch heq), ?_⟩
    rcases RegisteredServer.server_step_cases w.entry (.removeTransaction key) with
      ⟨e', heq, -⟩ | hsame
    · cases heq
    · exact hsame

theorem Ok.step (hnet : ∀ k, Endpoint.Takes (net k)) (hdata : data ≠ [])
    (h : w.Ok target data response) (e : TableEvent) :
    (step plugins net w e).Ok target data response := by
  refine ⟨(h.copyStep plugins hnet hdata e).1, ?_⟩
  rcases server_step_cases plugins net w e with ⟨e', -, heq⟩ | ⟨-, heq⟩
  · rw [heq]
    rcases h.handed with hsending | ⟨limit, habsorbing⟩
    · rcases hsending.step e' with
        ⟨hstill, -⟩ | ⟨-, habsorbing, -⟩ | ⟨-, -, -, hgone⟩
      · exact .inl hstill
      · exact .inr ⟨_, habsorbing⟩
      · exact .inr ⟨0, hgone 0⟩
    · exact .inr ⟨limit, habsorbing.step e'⟩
  · rw [heq]
    exact h.handed

/-- **A step keeps the copies right** exactly when the provisional task takes no message. -/
theorem Ok.copied_step_iff (hnet : ∀ k, Endpoint.Takes (net k)) (hdata : data ≠ [])
    (h : w.Ok target data response) (hcopied : w.Copied target data) (e : TableEvent) :
    (ServerCopies.step plugins net w e).Copied target data ↔ w.Untaken e := by
  unfold Copied at hcopied ⊢
  cases (h.copyStep plugins hnet hdata e).2 with
  | same huntaken hreads hcopies =>
    rw [hreads, hcopies]
    exact iff_of_true hcopied huntaken
  | copied huntaken hlive hreads hcopies =>
    refine iff_of_true ?_ huntaken
    rw [hreads, hcopies, hcopied, List.map_append]
    rfl
  | taken htaken hlive hreads again hcopies =>
    refine iff_of_false ?_ htaken
    -- the last copy is none of the final response
    rw [hreads, hcopies, List.map_append, List.map_singleton]
    intro heq
    obtain ⟨-, hlast⟩ := List.append_inj' heq rfl
    cases hlast

/-- **A step keeps the transaction from being gone in another state than `Terminated`** exactly
    when it does not cancel the call, as long as no transmission fails. -/
theorem Ok.terminated_step_iff (h : w.Ok target data response)
    (hgone : w.entry.server.activity = .dropped → w.entry.server.state = .terminated)
    {e : TableEvent} (hsends : ∀ err, e ≠ .server (.sent (.error err))) :
    ((ServerCopies.step plugins net w e).entry.server.activity = .dropped →
      (ServerCopies.step plugins net w e).entry.server.state = .terminated) ↔
        w.Uncancelled e := by
  unfold Uncancelled
  rcases server_step_cases plugins net w e with ⟨e', rfl, heq⟩ | ⟨hnot, heq⟩
  · rw [heq, TableEvent.server.injEq]
    rcases h.handed with hsending | ⟨limit, habsorbing⟩
    · rw [hsending.inFinalCall]
      rcases hsending.step e' with ⟨hstill, hcancel⟩ | ⟨⟨target, rfl⟩, -, hlive⟩ |
        ⟨hend, hdropped, hstate, -⟩
      · exact iff_of_true (fun hdropped => absurd hdropped hstill.live) fun he => (hcancel he).elim
      · exact iff_of_true (fun hdropped => absurd hdropped hlive) fun he => nomatch he
      · refine iff_of_false (fun hterminated => hstate (hterminated hdropped)) fun hnone => ?_
        rcases hend with rfl | ⟨err, rfl⟩
        · exact Bool.noConfusion (hnone rfl)
        · exact hsends err rfl
    · exact habsorbing.terminated_iff hgone e'
  · rw [heq]
    exact iff_of_true hgone fun he => absurd he (hnot _)

/-- A transaction that is gone stays in its state. -/
theorem gone_step (hgone : w.entry.server.activity = .dropped ∧
      w.entry.server.state ≠ .terminated) (e : TableEvent) :
    (ServerCopies.step plugins net w e).entry.server.activity = .dropped ∧
      (ServerCopies.step plugins net w e).entry.server.state ≠ .terminated := by
  rcases server_step_cases plugins net w e with ⟨e', -, heq⟩ | ⟨-, heq⟩
  · rw [heq, ServerTransaction.state_step_of_dropped hgone.1]
    exact ⟨ServerTransaction.dropped_step hgone.1 e', hgone.2⟩
  · rw [heq]
    exact hgone

/-- Polls change nothing, and nothing is being transmitted. -/
def Quiet (w : ServerCopies) : Prop := w.entry.server.Quiet

/-- In time: the final response was handed over at `t₀`, nothing was taken or sent after the end,
    and the transaction is gone then. -/
structure InTime (response : OutgoingResponse) (t₀ : Nat) (w : ServerCopies) : Prop where
  handed : w.entry.server.Sending response ∧ w.entry.server.now = t₀ ∨
    w.entry.server.Absorbing (t₀ + T1 * 64)
  gone : t₀ + T1 * 64 < w.entry.server.now → w.entry.server.activity = .dropped
  reads : ∀ t ∈ w.reads, t ≤ t₀ + T1 * 64
  copies : ∀ copy ∈ w.copies, copy.1 ≤ t₀ + T1 * 64

variable {t₀ : Nat}

/-- No time passes while the final response is being transmitted. -/
theorem now_step_of_sending (hsending : w.entry.server.Sending response) {e : TableEvent}
    (hprompt : (clock plugins net).PromptStep Quiet w e) :
    (ServerCopies.step plugins net w e).entry.server.now = w.entry.server.now := by
  by_cases he : ∀ ms, e ≠ (clock plugins net).elapse ms
  · exact (clock plugins net).now_step w e he
  · obtain ⟨ms, rfl⟩ := not_forall_not.mp he
    rcases Nat.eq_zero_or_pos ms with rfl | hpos
    · exact (clock plugins net).now_elapse w 0
    · -- the transmission is something to do
      have hquiet := (hprompt ms rfl 0 hpos).transmitting
      have hsame : (ServerCopies.step plugins net w ((clock plugins net).elapse 0)).entry.server =
          w.entry.server.step (.elapse 0) := by
        rw [entry_step]
        exact RegisteredServer.server_step_server _ _
      rw [hsame] at hquiet
      have hnone : w.entry.server.activity.transmitting = none := hquiet
      rw [hsending.sending] at hnone
      cases hnone

/-- **A prompt step keeps the times.** -/
theorem Ok.inTime_step (hnet : ∀ k, Endpoint.Takes (net k)) (hdata : data ≠ [])
    (h : w.Ok target data response) (hin : w.InTime response t₀) {e : TableEvent}
    (hprompt : (clock plugins net).PromptStep Quiet w e) :
    (ServerCopies.step plugins net w e).InTime response t₀ := by
  -- who takes a message is not gone
  have hearly : w.entry.server.activity ≠ .dropped → w.entry.server.now ≤ t₀ + T1 * 64 :=
    fun hlive => not_lt.mp fun hlate => hlive (hin.gone hlate)
  have hlists : (∀ t ∈ (ServerCopies.step plugins net w e).reads, t ≤ t₀ + T1 * 64) ∧
      ∀ copy ∈ (ServerCopies.step plugins net w e).copies, copy.1 ≤ t₀ + T1 * 64 := by
    cases (h.copyStep plugins hnet hdata e).2 with
    | same huntaken hreads hcopies =>
      rw [hreads, hcopies]
      exact ⟨hin.reads, hin.copies⟩
    | copied huntaken hlive hreads hcopies =>
      rw [hreads, hcopies]
      exact ⟨List.forall_mem_append.mpr ⟨hin.reads, List.forall_mem_singleton.mpr (hearly hlive)⟩,
        List.forall_mem_append.mpr ⟨hin.copies, List.forall_mem_singleton.mpr (hearly hlive)⟩⟩
    | taken htaken hlive hreads again hcopies =>
      rw [hreads, hcopies]
      exact ⟨List.forall_mem_append.mpr ⟨hin.reads, List.forall_mem_singleton.mpr (hearly hlive)⟩,
        List.forall_mem_append.mpr ⟨hin.copies, List.forall_mem_singleton.mpr (hearly hlive)⟩⟩
  rcases hin.handed with ⟨hsending, hnow⟩ | habsorbing
  · have hsame := (now_step_of_sending hsending hprompt).trans hnow
    refine ⟨?_, fun hlate => ?_, hlists.1, hlists.2⟩
    · rw [hsame]
      rcases server_step_cases plugins net w e with ⟨e', -, heq⟩ | ⟨-, heq⟩
      · rw [heq]
        rcases hsending.step e' with ⟨hstill, -⟩ | ⟨-, habsorbing, -⟩ | ⟨-, -, -, hgone⟩
        · exact .inl ⟨hstill, rfl⟩
        · exact .inr (hnow ▸ habsorbing)
        · exact .inr (hgone _)
      · rw [heq]
        exact .inl ⟨hsending, rfl⟩
    · rw [hsame] at hlate
      exact absurd hlate (Nat.le_add_right _ _).not_gt
  · have hinv : ∀ (w : ServerCopies) e, w.entry.server.Absorbing (t₀ + T1 * 64) →
        (ServerCopies.step plugins net w e).entry.server.Absorbing (t₀ + T1 * 64) := by
      intro w e hw
      rw [entry_step]
      exact RegisteredServer.invariant_step (fun _ e hs => hs.step e) hw e
    have hkeeps : ∀ (w : ServerCopies) e, w.entry.server.Absorbing (t₀ + T1 * 64) →
        w.entry.server.activity = .dropped →
        (ServerCopies.step plugins net w e).entry.server.activity = .dropped := by
      intro w e _ hdropped
      have hstep : ∀ (s : ServerTransaction) e, s.activity = .dropped →
          (s.step e).activity = .dropped := fun _ e hs => ServerTransaction.dropped_step hs e
      rw [entry_step]
      exact RegisteredServer.invariant_step hstep hdropped e
    refine ⟨.inr (hinv w e habsorbing), ?_, hlists.1, hlists.2⟩
    exact (clock plugins net).after_step hinv hkeeps
      (fun w hw hquiet hdue => hw.dropped_of_quiet hquiet hdue) habsorbing hin.gone hprompt

/-! ### Runs -/

/-- A prompt run keeps the times. -/
theorem Ok.inTime_exec (hnet : ∀ k, Endpoint.Takes (net k)) (hdata : data ≠ [])
    (h : w.Ok target data response) (hin : w.InTime response t₀) {es : List TableEvent}
    (hprompt : Meets (ServerCopies.step plugins net) ((clock plugins net).PromptStep Quiet) w es) :
    (exec (ServerCopies.step plugins net) w es).InTime response t₀ := by
  have hstep : ∀ (w : ServerCopies) e, w.Ok target data response ∧ w.InTime response t₀ →
      (clock plugins net).PromptStep Quiet w e →
      (ServerCopies.step plugins net w e).Ok target data response ∧
        (ServerCopies.step plugins net w e).InTime response t₀ :=
    fun w e hw hpromptStep =>
      ⟨hw.1.step hnet hdata e, hw.1.inTime_step hnet hdata hw.2 hpromptStep⟩
  exact always_of_meets hstep (fun _ hw => hw.2) ⟨h, hin⟩ hprompt es (List.prefix_refl es)

/-- In every run, a transaction is in the table exactly as long as somebody has it. -/
theorem exec_isRegistered_iff (h : w.entry.Ok) (es : List TableEvent) :
    (exec (ServerCopies.step plugins net) w es).entry.isRegistered = true ↔
      (exec (ServerCopies.step plugins net) w es).entry.server.activity ≠ .dropped := by
  have hstep : ∀ (w : ServerCopies) e, w.entry.Ok →
      (ServerCopies.step plugins net w e).entry.Ok := by
    intro w e hw
    rw [entry_step]
    exact hw.step e
  exact exec_invariant hstep h es

/-- A transaction that is gone has ended in `Terminated` exactly if its call was not cancelled,
    where no transmission fails.  One that is gone in another state stays in it. -/
theorem Ok.terminated_exec_iff (hnet : ∀ k, Endpoint.Takes (net k)) (hdata : data ≠ [])
    (h : w.Ok target data response) (hlive : w.entry.server.activity ≠ .dropped)
    {es : List TableEvent} (hnofail : ∀ e ∈ es, ∀ err, e ≠ .server (.sent (.error err)))
    (hgone : (exec (ServerCopies.step plugins net) w es).entry.server.activity = .dropped) :
    (exec (ServerCopies.step plugins net) w es).entry.server.state = .terminated ↔
      Meets (ServerCopies.step plugins net) Uncancelled w es := by
  have hmeets : Meets (ServerCopies.step plugins net)
      (fun _ e => ∀ err, e ≠ .server (.sent (.error err))) w es :=
    meets_of_forall_mem (fun e he _ => hnofail e he) w
  have halways := always_iff_meets_of_meets
    (p := fun w => w.entry.server.activity = .dropped → w.entry.server.state = .terminated)
    (fun w e hw _ => hw.step hnet hdata e)
    (fun w e hw hended hsends => hw.terminated_step_iff hended hsends) h
    (fun hdropped => absurd hdropped hlive) hmeets
  rw [← halways]
  constructor
  · intro hterminated es' hes' hdropped
    by_contra hnot
    obtain ⟨rest, rfl⟩ := hes'
    have hstep : ∀ (w : ServerCopies) e,
        w.entry.server.activity = .dropped ∧ w.entry.server.state ≠ .terminated →
          (ServerCopies.step plugins net w e).entry.server.activity = .dropped ∧
            (ServerCopies.step plugins net w e).entry.server.state ≠ .terminated :=
      fun _ e hw => gone_step hw e
    have hstayed := exec_invariant hstep ⟨hdropped, hnot⟩ rest
    rw [← exec_append] at hstayed
    exact hstayed.2 hterminated
  · exact fun hended => hended es (List.prefix_refl es) hgone

end Steps

/-! ### The final response -/

/-- **The copies of the final response.** From the hand-over of the final response of a transaction
    other than that of an `INVITE` on, over an unreliable transport:

    * all along a run there is a copy for every message that is taken, with the bytes and to the
      target of the first transmission, exactly when the provisional task takes none while the
      final response is being transmitted;
    * when `64 * T1` have passed nothing was taken or sent since, the transaction has left the
      table, and, if no transmission failed, it has ended in `Terminated` exactly when the call was
      not cancelled before it returned. -/
theorem run_copies_iff {request : IncomingRequest} {now : Nat} {entry : ChannelId}
    {plugin : TsxPlugin} {w : RegisteredServer}
    (h : RegisteredServer.fromRequest request now entry plugin = some w)
    (hmethod : request.method ≠ .invite) (hreliable : w.server.isReliable = false)
    (es₀ : List TableEvent) {response : EncodedResponse}
    (hsending : (w.run es₀).server.activity = .sendingFinal response.outgoing)
    {plugins₀ : List (Response → Response)} {net₀ : Network} {first : EncodedResponse}
    {target : TargetTransportInfo} {tried : List Attempt}
    (hfirst : Endpoint.sendOutgoingResponse plugins₀ net₀ response =
      some (first, .ok target, tried))
    (plugins : Nat → List (Response → Response)) (net : Nat → Network)
    (hnet : ∀ k, Endpoint.Takes (net k)) (es : List TableEvent) :
    let start : ServerCopies := { entry := w.run es₀, response := first }
    let after := exec (step plugins net) start es
    let limit := start.entry.server.now + T1 * 64
    (∀ attempt ∈ tried, attempt.data = first.encoded) ∧
      (Always (step plugins net) (Copied target first.encoded) start es ↔
        Meets (step plugins net) Untaken start es) ∧
      (Meets (step plugins net) ((clock plugins net).PromptStep Quiet) start es →
        (∀ t ∈ after.reads, t ≤ limit) ∧ (∀ copy ∈ after.copies, copy.1 ≤ limit) ∧
          (limit < after.entry.server.now → after.entry.isRegistered = false ∧
            ((∀ e ∈ es, ∀ err, e ≠ .server (.sent (.error err))) →
              (after.entry.server.state = .terminated ↔
                Meets (step plugins net) Uncancelled start es)))) := by
  intro start after limit
  obtain ⟨hne, -, htried⟩ := Endpoint.data_sendOutgoingResponse hfirst
  have hdata : first.encoded ≠ [] := hne
  obtain ⟨hhandOver, hstates, hrequest⟩ := RegisteredServer.run_server h es₀
  have hinvite : (w.run es₀).server.isInviteTsx = false := by
    unfold ServerTransaction.isInviteTsx
    rw [hrequest]
    exact decide_eq_false hmethod
  have hreliable' : (w.run es₀).server.isReliable = false :=
    (RegisteredServer.run_isReliable h es₀).trans hreliable
  have hsends : start.entry.server.Sending response.outgoing :=
    ⟨hhandOver, hstates, hinvite, hreliable', hsending⟩
  have hok : start.Ok target first.encoded response.outgoing :=
    ⟨⟨rfl, Endpoint.transport_sendOutgoingResponse hfirst⟩, .inl hsends⟩
  have hokStep : ∀ w e, Ok target first.encoded response.outgoing w →
      Ok target first.encoded response.outgoing (step plugins net w e) :=
    fun _ e hw => hw.step hnet hdata e
  -- the copies hold in every run, the end in a prompt one
  refine ⟨htried, ?_, fun hprompt => ?_⟩
  · exact always_iff_meets hokStep
      (fun w e hw hcopied => hw.copied_step_iff hnet hdata hcopied e) hok rfl es
  · have hstart : start.InTime response.outgoing start.entry.server.now :=
      ⟨.inl ⟨hsends, rfl⟩, fun hlate => absurd hlate (Nat.le_add_right _ _).not_gt,
        (fun _ hmem => nomatch hmem), (fun _ hmem => nomatch hmem)⟩
    have hinTime : after.InTime response.outgoing start.entry.server.now :=
      hok.inTime_exec hnet hdata hstart hprompt
    have hregistered : after.entry.isRegistered = true ↔
        after.entry.server.activity ≠ .dropped :=
      exec_isRegistered_iff (RegisteredServer.ok_run (RegisteredServer.ok_fromRequest h) es₀) es
    refine ⟨hinTime.reads, hinTime.copies, fun hlate => ⟨?_, fun hnofail => ?_⟩⟩
    · rw [← Bool.not_eq_true, hregistered, not_not]
      exact hinTime.gone hlate
    · exact hok.terminated_exec_iff hnet hdata hsends.live hnofail (hinTime.gone hlate)

/-- A network with one host, which takes everything. -/
def network : Network where
  lookupHost _ := .ok [.localhost]
  selectTransport _ _ := .ok (.localhost false)
  sendMsg _ _ := .ok 0

/-- The transaction of an `OPTIONS` request. -/
def options : RegisteredServer :=
  { server := .new (.newKey3261 .uas .options "z9hG4bK1") (.fromLocalhost .options none false) 0
    plugin := ({} : TsxPlugin).addTransaction (.newKey3261 .uas .options "z9hG4bK1") 0 }

/-- Its response, on the wire. -/
def sentOk : EncodedResponse where
  outgoing := (OutgoingResponse.ofCode .ok).after (.ok ⟨.localhost, .localhost false⟩)
  encoded := asBytes "SIP/2.0 200 \r\nContent-Length: 0\r\n\r\n"

set_option maxRecDepth 4000 in
/-- Two retransmissions, with a plugin that makes another response of it. -/
theorem run_copies_iff_options :
    (exec (step (fun _ => [fun response => { response with statusLine := ⟨.busyHere, ""⟩ }])
      fun _ => network)
      { entry := options.run [.server (.sendFinalResponse (.ofCode .ok))], response := sentOk }
      [.server (.sent (.ok ⟨.localhost, .localhost false⟩)),
        .server (.deliver (.request (.fromLocalhost .options none false))), .server .poll,
        .server (.sent (.ok ⟨.localhost, .localhost false⟩)), .server (.elapse 100),
        .server (.deliver (.request (.fromLocalhost .options none false))),
        .server .poll]).copies =
      [0, 100].map fun t => (t, .final ⟨.localhost false, sentOk.encoded, .localhost⟩) := by
  have hrequest : RegisteredServer.fromRequest (.fromLocalhost .options none false) 0 0 {} =
      some options := rfl
  have hfirst : Endpoint.sendOutgoingResponse [] network ⟨.ofCode .ok, []⟩ =
      some (sentOk, .ok ⟨.localhost, .localhost false⟩,
        [⟨.localhost false, sentOk.encoded, .localhost⟩]) := by decide
  have hnet : Endpoint.Takes network := fun _ _ => ⟨0, rfl⟩
  have huntaken := (run_copies_iff hrequest (by decide) rfl
    [.server (.sendFinalResponse (.ofCode .ok))] rfl hfirst
    (fun _ => [fun response => { response with statusLine := ⟨.busyHere, ""⟩ }]) (fun _ => network)
    (fun _ => hnet)
    [.server (.sent (.ok ⟨.localhost, .localhost false⟩)),
      .server (.deliver (.request (.fromLocalhost .options none false))), .server .poll,
      .server (.sent (.ok ⟨.localhost, .localhost false⟩)), .server (.elapse 100),
      .server (.deliver (.request (.fromLocalhost .options none false))), .server .poll]).2.1.mpr
    ⟨(fun heq => nomatch heq), (fun heq => nomatch heq), (fun heq => nomatch heq),
      (fun heq => nomatch heq), (fun heq => nomatch heq), (fun heq => nomatch heq),
      (fun heq => nomatch heq), trivial⟩
  exact huntaken _ (List.prefix_refl _)

/-- An `OPTIONS` that was answered with a 100, and whose final response is handed over then. -/
def trying : RegisteredServer :=
  options.run [.server (.sendProvisionalResponse (.ofCode .trying)),
    .server (.sent (.ok ⟨.localhost, .localhost false⟩)),
    .server (.sendFinalResponse (.ofCode .ok))]

set_option maxRecDepth 4000 in
/-- A retransmission that comes before the call goes on is answered with the 100; and a call that
    is cancelled as it waits for the provisional task leaves the transaction in `Completed`. -/
theorem not_copied_trying :
    let start : ServerCopies := { entry := trying, response := sentOk }
    let answered := exec (step (fun _ => []) fun _ => network) start
      [.server (.deliver (.request (.fromLocalhost .options none false))), .server .pollTask]
    let gone := exec (step (fun _ => []) fun _ => network) start
      [.server (.sent (.ok ⟨.localhost, .localhost false⟩)), .server .cancel, .server .pollTask,
        .server (.elapse 40000)]
    start.entry.server.activity = .sendingFinal (.ofCode .ok) ∧
      answered.copies = [(0, .provisional
        ((OutgoingResponse.ofCode .trying).after (.ok ⟨.localhost, .localhost false⟩)))] ∧
      ¬ answered.Copied ⟨.localhost, .localhost false⟩ sentOk.encoded ∧
      start.entry.server.now + T1 * 64 < gone.entry.server.now ∧
      gone.entry.server.state = .completed := by
  refine ⟨by decide, by decide, fun hcopied => ?_, by decide, by decide⟩
  revert hcopied
  unfold Copied
  decide

end ServerCopies

end Rssip
