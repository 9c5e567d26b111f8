import Rssip.Transaction.ServerFinal

namespace Rssip

open Lib

/-!
# Waiting for the `ACK`

The task that waits for the `ACK` repeats the final response after `T1`, `2 * T1`, `4 * T1`, up to
`T2`, and gives up.  It gives up `T4` after the final response, not `64 * T1` after it.

* `AwaitedServer` — an `INVITE` transaction behind its final response, with the times of it;
* `AwaitedServer.TimerH` — until `64 * T1` the transaction is there for the `ACK`;
* `run_timerH_iff` — when it is.
-/

/-- The task waits for a message or a timer. -/
def ServerActivity.waits : ServerActivity → Bool
  | .retransmitting _ _ _ _ sending => !sending
  | .idle | .sendingProvisional _ | .sendingFinal _ | .joining _ _ | .confirmed _ |
    .absorbing _ _ _ | .dropped => false

theorem ServerActivity.waits_iff {activity : ServerActivity} : activity.waits = true ↔
    ∃ response interval expires deadline,
      activity = .retransmitting response interval expires deadline false := by
  constructor
  · intro h
    cases activity with
    | retransmitting response interval expires deadline sending =>
      obtain rfl : sending = false := (Bool.not_eq_true' _).mp h
      exact ⟨response, interval, expires, deadline, rfl⟩
    | _ => cases h
  · rintro ⟨response, interval, expires, deadline, rfl⟩
    rfl

/-- The call waits for the provisional task. -/
def ServerActivity.joins : ServerActivity → Bool
  | .joining _ _ => true
  | .idle | .sendingProvisional _ | .sendingFinal _ | .retransmitting _ _ _ _ _ | .confirmed _ |
    .absorbing _ _ _ | .dropped => false

/-- An `ACK` was taken out of the channel. -/
def ServerOutput.isAck : ServerOutput → Bool
  | .received msg => msg.isAck
  | .sent _ | .returned _ | .panicked => false

/-- An `INVITE` transaction behind its final response: what that is and when it was sent, when the
    task began to wait last, how often its timer fired, and whether an `ACK` was taken. -/
structure AwaitedServer where
  server : ServerTransaction
  response : Response
  start : Nat
  since : Nat
  repeats : Nat := 0
  acked : Bool := false

namespace AwaitedServer

/-- One step of the transaction, with what it does to the times. -/
def step (w : AwaitedServer) (e : ServerEvent) : AwaitedServer :=
  let server := w.server.step e
  let outs := w.server.outputs e
  { server := server
    response := w.response
    start := w.start
    since := if server.activity.waits && !w.server.activity.waits then server.now else w.since
    repeats :=
      -- nothing was read, so it was the timer
      if outs.any ServerOutput.isSent && !outs.any ServerOutput.isReceived then w.repeats + 1
      else w.repeats
    acked := w.acked || outs.any ServerOutput.isAck }

/-- A transaction that has sent its final response just now. -/
def ofSent (response : OutgoingResponse) (s : ServerTransaction) : AwaitedServer :=
  { server := s, response := response.response, start := s.now, since := s.now }

/-- The time of Timer H, as long as no `ACK` was received. -/
def InTime (w : AwaitedServer) : Prop := w.server.now < w.start + T1 * 64 ∧ w.acked = false

/-- What the tasks and the transport do, with `res` as the outcome of transmissions. -/
def OfTasks (res : Except Error TargetTransportInfo) (es : List ServerEvent) : Prop :=
  ∀ e ∈ es, e = .poll ∨ e = .pollTask ∨ e = .sent res ∨ e = .retransmitted res

/-- The transaction is there: in `Completed`, it repeats its final response in time when nothing
    comes, and an `ACK` that is delivered confirms it. -/
structure Alive (w : AwaitedServer) : Prop where
  state : w.server.state = .completed
  live : w.server.activity ≠ .dropped
  repeats : w.server.activity.waits = true → w.server.channel = {} →
    ((∃ again, w.server.outputs .poll = [.sent again] ∧ again.response = w.response) ↔
      w.since + retransGap w.repeats ≤ w.server.now)
  ack : w.server.channel.closed = false → ∀ ack, ack.isAck = true → ∀ res,
    ∃ es, OfTasks res es ∧ ((w.server.step (.deliver ack)).run es).state = .confirmed

/-- Until Timer H fires or an `ACK` is received the transaction is there. -/
def TimerH (w : AwaitedServer) : Prop := w.InTime → w.Alive

/-- The step does not end the transaction: the task is not polled with nothing to read and `T4`
    past, unless its next repetition is due; nor when its channel is closed; and the call is not
    cancelled while it waits for the provisional task. -/
def StaysOn (w : AwaitedServer) (e : ServerEvent) : Prop :=
  w.InTime →
    match e with
    | .poll => w.server.activity.waits = true → w.server.channel.queue = [] →
      w.server.channel.closed = false ∧
        (w.since + retransGap w.repeats ≤ w.server.now ∨ w.server.now < w.start + T4)
    | .cancel => w.server.activity.joins = false
    | _ => True

/-- What is known of the times, by who holds the transaction. -/
def Timed (w : AwaitedServer) : ServerActivity → Prop
  | .joining _ deadline => deadline = w.start + T4 ∧ w.repeats = 0 ∧ w.acked = false
  | .retransmitting _ interval expires deadline sending =>
    deadline = w.start + T4 ∧ interval = retransGap w.repeats ∧
      (sending = false → expires = w.since + interval) ∧ w.acked = false
  | .confirmed _ => w.acked = true
  | _ => True

/-- What every step keeps behind the final response: the call or the task has that response, and
    the times are right. -/
structure Ok (w : AwaitedServer) : Prop where
  final : w.server.FinalOk
  states : w.server.StatesOk
  isInvite : w.server.isInviteTsx = true
  timed : w.Timed w.server.activity
  held : ∀ response, w.server.activity.held = some response → response.response = w.response

variable {w : AwaitedServer}

/-! ### The times -/

/-- A poll keeps the times right. -/
theorem Ok.timed_poll (h : w.Ok) : (w.step .poll).Timed w.server.poll.activity := by
  have htimed := h.timed
  obtain ⟨outs, states, htrace, -, hpoll⟩ := h.final.polled
  have houts := ServerTransaction.outputs_poll htrace
  have hnow : w.server.poll.now = w.server.now := (ServerTransaction.frame_poll _).now
  have hafter : (w.server.step .poll).activity = w.server.poll.activity := rfl
  unfold step
  simp only [houts, hafter]
  generalize w.server.poll.activity = activity at hpoll
  cases hpoll with
  | still hretransmitting habsorbing =>
    simp only [Bool.and_not_self, List.any_nil, Bool.or_false]
    exact htimed
  | joined hactivity =>
    rw [hactivity] at htimed
    obtain ⟨hdeadline, hrepeats, hacked⟩ := htimed
    -- the call hands over to the task, with the deadline that it had
    rw [h.isInvite, if_pos rfl, hactivity]
    refine ⟨hdeadline, ?_, fun _ => ?_, ?_⟩
    · show T1 = retransGap w.repeats
      rw [hrepeats, retransGap_zero]
    · show w.server.now + T1 = w.server.poll.now + T1
      rw [hnow]
    · show (w.acked || false) = false
      rw [hacked]
      rfl
  | waits hactivity hqueue hopen hexpires hdeadline =>
    simp only [Bool.and_not_self, List.any_nil, Bool.or_false]
    exact htimed
  | answered hactivity hqueue hack =>
    rw [hactivity] at htimed
    obtain ⟨hdeadline, hinterval, -, hacked⟩ := htimed
    refine ⟨hdeadline, hinterval, nofun, ?_⟩
    simp only [hacked, List.any_cons, ServerOutput.isAck, hack, List.any_nil, Bool.or_false]
  | acked hactivity hqueue hack =>
    show (w.acked || _) = true
    simp only [List.any_cons, ServerOutput.isAck, hack, Bool.true_or, Bool.or_true]
  | repeated hactivity hqueue hopen hexpires =>
    rw [hactivity] at htimed
    obtain ⟨hdeadline, hinterval, -, hacked⟩ := htimed
    refine ⟨hdeadline, ?_, nofun, ?_⟩
    · show min _ T2 = retransGap (w.repeats + 1)
      rw [hinterval, retransGap_succ]
    · show (w.acked || false) = false
      rw [hacked]
      rfl
  | absorbs hactivity hqueue hopen hdeadline =>
    rw [hactivity]
    trivial
  | _ => trivial

/-- The end of a transmission begins a wait. -/
theorem Ok.timed_other (h : w.Ok) {e : ServerEvent} (he : e ≠ .poll) :
    (w.step e).Timed (w.server.step e).activity := by
  have htimed := h.timed
  have hother := (h.final.other he).holder
  unfold step
  simp only [h.final.outputs_other he, List.any_nil, Bool.or_false]
  generalize hafter : (w.server.step e).activity = activity at hother
  cases hother with
  | same =>
    simp only [Bool.and_not_self]
    exact htimed
  | @sent _ _ _ _ res hactivity hsent =>
    subst hsent
    rw [hactivity] at htimed
    obtain ⟨hdeadline, hinterval, -, hacked⟩ := htimed
    refine ⟨hdeadline, hinterval, fun _ => ?_, hacked⟩
    have hnot : ∀ ms, ServerEvent.sent res ≠ .elapse ms := fun _ heq => nomatch heq
    rw [hactivity]
    show _ = (w.server.step (.sent res)).now + _
    rw [ServerTransaction.now_step _ hnot]
  | absorbingSent hactivity hsent => trivial
  | cancelled hactivity hcancel => trivial

/-- The task keeps its response. -/
theorem Ok.held_step (h : w.Ok) (e : ServerEvent) {response : OutgoingResponse}
    (hresponse : (w.server.step e).activity.held = some response) :
    response.response = w.response := by
  by_cases he : ServerTransaction.Gives e
  · -- a call that would give another one is not taken
    have hcall : ServerTransaction.IsCall e := by
      cases e with
      | sendProvisionalResponse _ | sendFinalResponse _ => exact trivial
      | _ => exact he.elim
    rw [ServerTransaction.step_of_busy h.final.ne_idle hcall] at hresponse
    exact h.held response hresponse
  · obtain ⟨before, hbefore, hsame⟩ := ServerTransaction.heldFrom_step w.server he _ hresponse
    exact hsame.trans (h.held before hbefore)

theorem Ok.step (h : w.Ok) (e : ServerEvent) : (w.step e).Ok where
  final := h.final.step e
  states := (h.states.step e).states
  isInvite := (ServerTransaction.isInviteTsx_eq (h.states.step e).request).trans h.isInvite
  timed := by
    by_cases he : e = .poll
    · subst he
      exact h.timed_poll
    · exact h.timed_other he
  held _ hresponse := h.held_step e hresponse

/-! ### While the transaction is there -/

/-- Up to an `ACK` a transaction that is there is in `Completed`. -/
theorem Ok.state_completed (h : w.Ok) (hacked : w.acked = false)
    (hlive : w.server.activity ≠ .dropped) : w.server.state = .completed := by
  -- what was added to the states is told by who holds the transaction
  obtain ⟨provisional, after, hstates, hafter, -⟩ := h.states
  have hlast := hstates.machine.last
  rw [hstates.history] at hlast
  have htimed := h.timed
  have hfinal := h.final
  have hcompleted : after = [.completed] := by
    cases hactivity : w.server.activity with
    | joining response deadline =>
      rw [hactivity] at hafter
      exact hafter
    | retransmitting response interval expires deadline sending =>
      rw [hactivity] at hafter
      exact hafter.2
    | absorbing response deadline sending =>
      rw [hactivity] at hafter
      exact hafter
    | confirmed wakeup =>
      rw [hactivity] at htimed
      have htaken : w.acked = true := htimed
      rw [hacked] at htaken
      cases htaken
    | idle | sendingProvisional _ | sendingFinal _ =>
      simp only [ServerTransaction.FinalOk, hactivity] at hfinal
    | dropped => exact absurd hactivity hlive
  rw [hcompleted, List.getLast?_concat, Option.some.injEq] at hlast
  exact hlast.symm

/-- The timer fires, and the final response is repeated, exactly when the gap is over. -/
theorem Ok.outputs_poll_iff (h : w.Ok) (hwaits : w.server.activity.waits = true)
    (hchannel : w.server.channel = {}) :
    (∃ again, w.server.outputs .poll = [.sent again] ∧ again.response = w.response) ↔
      w.since + retransGap w.repeats ≤ w.server.now := by
  have htimed := h.timed
  obtain ⟨outs, states, htrace, -, hpoll⟩ := h.final.polled
  rw [ServerTransaction.outputs_poll htrace]
  cases hactivity : w.server.activity with
  | retransmitting response interval expires deadline sending =>
    rw [hactivity] at hwaits htimed
    obtain rfl : sending = false := (Bool.not_eq_true' _).mp hwaits
    obtain ⟨-, rfl, hexpires, -⟩ := htimed
    rw [← hexpires rfl]
    generalize w.server.poll.activity = activity at hpoll
    -- with nothing in the channel only the timers are left to decide
    cases hpoll with
    | still hretransmitting _ => exact absurd hactivity (hretransmitting _ _ _ _)
    | repeated hactivity' hqueue hopen hdue =>
      obtain ⟨rfl, rfl, rfl, rfl, -⟩ :=
        ServerActivity.retransmitting.inj (hactivity.symm.trans hactivity')
      refine iff_of_true ⟨_, rfl, h.held _ ?_⟩ hdue
      rw [hactivity]
      rfl
    | waits hactivity' hqueue hopen hearly _ =>
      obtain ⟨rfl, rfl, rfl, rfl, -⟩ :=
        ServerActivity.retransmitting.inj (hactivity.symm.trans hactivity')
      exact iff_of_false (fun ⟨_, heq, _⟩ => nomatch heq) hearly.not_ge
    | gaveUp hactivity' hqueue hopen hearly _ =>
      obtain ⟨rfl, rfl, rfl, rfl, -⟩ :=
        ServerActivity.retransmitting.inj (hactivity.symm.trans hactivity')
      exact iff_of_false (fun ⟨_, heq, _⟩ => nomatch heq) hearly.not_ge
    | answered _ hqueue _ | acked _ hqueue _ =>
      rw [hchannel] at hqueue
      cases hqueue
    | closed _ _ hclosed =>
      rw [hchannel] at hclosed
      cases hclosed
    | joined hactivity' | confirmedOver hactivity' _ | absorbs hactivity' _ _ _
    | copied hactivity' _ | absorbed hactivity' _ _ =>
      rw [hactivity] at hactivity'
      cases hactivity'
  | idle | sendingProvisional _ | sendingFinal _ | joining _ _ | confirmed _ | absorbing _ _ _ |
    dropped =>
    rw [hactivity] at hwaits
    cases hwaits

/-! ### The way of an `ACK` -/

section Ack

variable {s : ServerTransaction} {res : Except Error TargetTransportInfo} {ack : IncomingMessage}

theorem OfTasks.cons {e : ServerEvent} {es : List ServerEvent}
    (he : e = .poll ∨ e = .pollTask ∨ e = .sent res ∨ e = .retransmitted res)
    (h : OfTasks res es) : OfTasks res (e :: es) :=
  List.forall_mem_cons.mpr ⟨he, h⟩

/-- The end of a transmission of the task. -/
theorem sent_retransmitting {response : OutgoingResponse} {interval expires deadline : Nat}
    (hactivity : s.activity = .retransmitting response interval expires deadline true) :
    (s.sent res).activity =
        .retransmitting (response.after res) interval (s.now + interval) deadline false ∧
      (s.sent res).channel = s.channel := by
  obtain ⟨targetInfo, hkeep⟩ := s.keepTarget_eq res
  have hsent : s.sent res = (s.keepTarget res).become
      (.retransmitting (response.after res) interval (s.now + interval) deadline false) := by
    unfold ServerTransaction.sent
    rw [hactivity]
  rw [hsent, hkeep]
  exact ⟨rfl, rfl⟩

/-- The task takes the next message. -/
theorem poll_retransmitting {response : OutgoingResponse} {interval expires deadline : Nat}
    {msg : IncomingMessage} {rest : List IncomingMessage}
    (hactivity : s.activity = .retransmitting response interval expires deadline false)
    (hqueue : s.channel.queue = msg :: rest) :
    (msg.isAck = true → s.poll.state = .confirmed) ∧
      (msg.isAck = false →
        s.poll.activity = .retransmitting response interval expires deadline true ∧
        s.poll.channel.queue = rest) := by
  have hrecv : s.channel.pollRecv = (.ready (some msg), { s.channel with queue := rest }) := by
    unfold Receiver.pollRecv
    rw [hqueue]
  have hpoll : s.poll = s.pollRetransmitting response interval expires deadline := by
    unfold ServerTransaction.poll
    rw [hactivity]
  unfold ServerTransaction.pollRetransmitting at hpoll
  rw [hrecv] at hpoll
  simp only [] at hpoll
  rw [hpoll]
  refine ⟨fun hack => ?_, fun hack => ?_⟩
  · rw [if_pos hack]
    rfl
  · rw [if_neg (Bool.eq_false_iff.mp hack)]
    exact ⟨rfl, rfl⟩

/-- The task comes to an `ACK` that is in the channel, past all that came before it. -/
theorem confirms_waiting (hack : ack.isAck = true) {queue : List IncomingMessage}
    (hmem : ack ∈ queue) {response : OutgoingResponse} {interval expires deadline : Nat}
    (hactivity : s.activity = .retransmitting response interval expires deadline false)
    (hqueue : s.channel.queue = queue) :
    ∃ es, OfTasks res es ∧ (s.run es).state = .confirmed := by
  induction queue generalizing s response expires with
  | nil => cases hmem
  | cons msg rest ih =>
    obtain ⟨hconfirmed, hanswered⟩ := poll_retransmitting hactivity hqueue
    cases hmsg : msg.isAck with
    | true =>
      exact ⟨[.poll], .cons (.inl rfl) (List.forall_mem_nil _), hconfirmed hmsg⟩
    | false =>
      -- the response is sent again, and the task goes on with the rest
      obtain ⟨hsending, hrest⟩ := hanswered hmsg
      have hmem' : ack ∈ rest := by
        rcases List.mem_cons.mp hmem with rfl | hmem'
        · rw [hack] at hmsg
          cases hmsg
        · exact hmem'
      obtain ⟨hwaiting, hchannel⟩ := sent_retransmitting hsending
      obtain ⟨es, hes, hstate⟩ := ih hmem' hwaiting ((congrArg Receiver.queue hchannel).trans hrest)
      exact ⟨.poll :: .sent res :: es, .cons (.inl rfl) (.cons (.inr (.inr (.inl rfl))) hes),
        hstate⟩

theorem confirms_retransmitting (hack : ack.isAck = true) (hmem : ack ∈ s.channel.queue)
    {response : OutgoingResponse} {interval expires deadline : Nat} {sending : Bool}
    (hactivity : s.activity = .retransmitting response interval expires deadline sending) :
    ∃ es, OfTasks res es ∧ (s.run es).state = .confirmed := by
  cases sending with
  | false => exact confirms_waiting hack hmem hactivity rfl
  | true =>
    obtain ⟨hwaiting, hchannel⟩ := sent_retransmitting hactivity
    rw [← hchannel] at hmem
    obtain ⟨es, hes, hstate⟩ := confirms_waiting hack hmem hwaiting rfl
    exact ⟨.sent res :: es, .cons (.inr (.inr (.inl rfl))) hes, hstate⟩

/-- The provisional task ends its transmission. -/
theorem retransmitted_told (res : Except Error TargetTransportInfo) {task : ProvisionalTask}
    (hhandle : s.provisionalRetransHandle = some task) :
    ∃ task', (s.retransmitted res).provisionalRetransHandle = some task' ∧
      task'.sending = false ∧ (s.retransmitted res).activity = s.activity ∧
      (s.retransmitted res).channel = s.channel ∧ (s.retransmitted res).now = s.now := by
  unfold ServerTransaction.retransmitted
  rw [hhandle]
  simp only []
  split
  · exact ⟨_, rfl, rfl, rfl, rfl, rfl⟩
  · next hsending =>
    exact ⟨task, hhandle, Bool.eq_false_of_not_eq_true hsending, rfl, rfl, rfl⟩

/-- The call comes to the task. -/
theorem joins (res : Except Error TargetTransportInfo) (h : s.FinalOk)
    (hinvite : s.isInviteTsx = true) {response : OutgoingResponse} {deadline : Nat}
    (hactivity : s.activity = .joining response deadline) :
    (s.run [.retransmitted res, .pollTask, .poll]).activity =
        .retransmitting response T1 (s.now + T1) deadline false ∧
      (s.run [.retransmitted res, .pollTask, .poll]).channel = s.channel := by
  have hjoining := h
  simp only [ServerTransaction.FinalOk, hactivity] at hjoining
  obtain ⟨hreliable, task, hhandle, -⟩ := hjoining
  have hfinal : (s.retransmitted res).FinalOk := h.step (.retransmitted res)
  obtain ⟨task', hhandle', hsending, hactivity', hchannel, hnow⟩ :=
    retransmitted_told res hhandle
  -- the provisional task leaves
  have hleft : ∃ task'', (s.retransmitted res).pollTask =
      { s.retransmitted res with provisionalRetransHandle := some task'' } ∧
        task''.returned = true := by
    rw [hfinal.pollTask_of_handle hhandle', hsending, Bool.or_false]
    split
    · next hreturned =>
      refine ⟨task', ?_, hreturned⟩
      rw [← hhandle']
    · exact ⟨_, rfl, rfl⟩
  obtain ⟨task'', hpollTask, hreturned⟩ := hleft
  have hrequest : (s.retransmitted res).request = s.request :=
    (ServerTransaction.retransmitted_frame res s).1
  have hmethod : ((s.retransmitted res).isInviteTsx && !(s.retransmitted res).isReliable) =
      true := by
    unfold ServerTransaction.isInviteTsx at hinvite
    unfold ServerTransaction.isReliable at hreliable
    unfold ServerTransaction.isInviteTsx ServerTransaction.isReliable
    rw [hrequest, hinvite, hreliable]
    rfl
  have hpoll : (s.retransmitted res).pollTask.poll =
      { s.retransmitted res with provisionalRetransHandle := none }.spawnFinalTask response
        deadline := by
    rw [hpollTask]
    unfold ServerTransaction.poll
    simp only [hactivity', hactivity, Option.any_some, hreturned, if_true]
  rw [ServerTransaction.spawnFinalTask_eq] at hpoll
  show (s.retransmitted res).pollTask.poll.activity = _ ∧
    (s.retransmitted res).pollTask.poll.channel = _
  rw [hpoll]
  refine ⟨?_, hchannel⟩
  show (if (s.retransmitted res).isInviteTsx && !(s.retransmitted res).isReliable then _ else _) = _
  rw [hmethod, if_pos rfl, hnow]

end Ack

/-- **A transaction that is in time is there unless it is dropped.** -/
theorem Ok.alive_iff (h : w.Ok) (hacked : w.acked = false) :
    w.Alive ↔ w.server.activity ≠ .dropped := by
  refine ⟨Alive.live, fun hlive => ?_⟩
  refine ⟨h.state_completed hacked hlive, hlive, h.outputs_poll_iff, fun hopen ack hack res => ?_⟩
  have hdeliver : w.server.step (.deliver ack) =
      { w.server with channel := w.server.channel.send ack } := by
    simp only [ServerTransaction.step, hopen, Bool.false_eq_true, if_false]
  have hmem : ack ∈ (w.server.step (.deliver ack)).channel.queue := by
    rw [hdeliver]
    exact List.mem_append_right _ (List.mem_singleton_self ack)
  have hnext := h.step (.deliver ack)
  have hsame : (w.server.step (.deliver ack)).activity = w.server.activity := by rw [hdeliver]
  have htimed := h.timed
  have hfinal := h.final
  cases hactivity : w.server.activity with
  | joining response deadline =>
    -- the task takes over first
    have hfinal' : (w.server.step (.deliver ack)).FinalOk := hnext.final
    have hinvite' : (w.server.step (.deliver ack)).isInviteTsx = true := hnext.isInvite
    obtain ⟨hwaiting, hchannel⟩ := joins res hfinal' hinvite' (hsame.trans hactivity)
    rw [← hchannel] at hmem
    obtain ⟨es, hes, hstate⟩ := confirms_retransmitting hack hmem hwaiting
    refine ⟨.retransmitted res :: .pollTask :: .poll :: es, ?_, hstate⟩
    exact .cons (.inr (.inr (.inr rfl))) (.cons (.inr (.inl rfl)) (.cons (.inl rfl) hes))
  | retransmitting response interval expires deadline sending =>
    exact confirms_retransmitting hack hmem (hsame.trans hactivity)
  | confirmed wakeup =>
    rw [hactivity] at htimed
    have htaken : w.acked = true := htimed
    rw [hacked] at htaken
    cases htaken
  | absorbing response deadline sending =>
    simp only [ServerTransaction.FinalOk, hactivity] at hfinal
    exact absurd (hfinal.1.symm.trans h.isInvite) Bool.noConfusion
  | idle | sendingProvisional _ | sendingFinal _ =>
    simp only [ServerTransaction.FinalOk, hactivity] at hfinal
  | dropped => exact absurd hactivity hlive

/-! ### Runs -/

/-- Time goes on, and an `ACK` stays received. -/
theorem InTime.of_step {e : ServerEvent} (h : (w.step e).InTime) : w.InTime := by
  obtain ⟨htime, hacked⟩ := h
  have hnow : w.server.now ≤ (w.step e).server.now :=
    ServerTransaction.clock.now_le_step w.server e
  exact ⟨hnow.trans_lt htime, (Bool.or_eq_false_iff.mp hacked).1⟩

/-- Without an `ACK` a poll leaves the transaction in time. -/
theorem inTime_poll (h : w.InTime) {outs : List ServerOutput}
    (houts : w.server.outputs .poll = outs) (hacked : outs.any ServerOutput.isAck = false) :
    (w.step .poll).InTime := by
  have hnow : (w.step .poll).server.now = w.server.now := (ServerTransaction.frame_poll _).now
  refine ⟨?_, ?_⟩
  · rw [hnow]
    exact h.1
  · show (w.acked || (w.server.outputs .poll).any ServerOutput.isAck) = false
    rw [houts, hacked, h.2]
    rfl

/-- A poll drops the transaction exactly where `StaysOn` says. -/
theorem Ok.poll_iff (h : w.Ok) (hin : w.InTime) (hlive : w.server.activity ≠ .dropped) :
    ((w.step .poll).InTime → (w.step .poll).server.activity ≠ .dropped) ↔ w.StaysOn .poll := by
  have htimed := h.timed
  have hfinal := h.final
  have hnotAbsorbing : ∀ response deadline sending,
      w.server.activity ≠ .absorbing response deadline sending := by
    intro response deadline sending hactivity
    simp only [ServerTransaction.FinalOk, hactivity] at hfinal
    exact absurd (hfinal.1.symm.trans h.isInvite) Bool.noConfusion
  obtain ⟨outs, states, htrace, -, hpoll⟩ := h.final.polled
  have hinTime := inTime_poll hin (ServerTransaction.outputs_poll htrace)
  have hafter : (w.step .poll).server.activity = w.server.poll.activity := rfl
  rw [hafter]
  generalize w.server.poll.activity = activity at hpoll
  cases hpoll with
  | still hretransmitting habsorbing =>
    refine iff_of_true (fun _ => hlive) fun _ hwaits => ?_
    obtain ⟨response, interval, expires, deadline, hactivity⟩ := ServerActivity.waits_iff.mp hwaits
    exact absurd hactivity (hretransmitting _ _ _ _)
  | joined hactivity =>
    refine iff_of_true (fun _ => ?_) fun _ hwaits => ?_
    · rw [h.isInvite, if_pos rfl]
      exact fun heq => by cases heq
    · rw [hactivity] at hwaits
      cases hwaits
  | waits hactivity hqueue hopen hexpires hdeadline =>
    refine iff_of_true (fun _ => hlive) fun _ _ _ => ⟨hopen, .inr ?_⟩
    rw [hactivity] at htimed
    rw [← htimed.1]
    exact hdeadline
  | answered hactivity hqueue hack =>
    refine iff_of_true (fun _ heq => by cases heq) fun _ _ hempty => ?_
    rw [hqueue] at hempty
    cases hempty
  | acked hactivity hqueue hack =>
    refine iff_of_true (fun _ heq => by cases heq) fun _ _ hempty => ?_
    rw [hqueue] at hempty
    cases hempty
  | repeated hactivity hqueue hopen hdue =>
    refine iff_of_true (fun _ heq => by cases heq) fun _ _ _ => ⟨hopen, .inl ?_⟩
    rw [hactivity] at htimed
    obtain ⟨-, rfl, hexpires, -⟩ := htimed
    rw [← hexpires rfl]
    exact hdue
  -- at `T4` the task gives up between two repetitions
  | gaveUp hactivity hqueue hopen hearly hdue =>
    refine iff_of_false (fun hall => hall (hinTime rfl) rfl) fun hstays => ?_
    have hwaits : w.server.activity.waits = true := by
      rw [hactivity]
      rfl
    obtain ⟨-, hdue' | hbefore⟩ := hstays hin hwaits hqueue
    · rw [hactivity] at htimed
      obtain ⟨-, rfl, hexpires, -⟩ := htimed
      rw [← hexpires rfl] at hdue'
      exact absurd hdue' hearly.not_ge
    · rw [hactivity] at htimed
      rw [← htimed.1] at hbefore
      exact absurd hdue hbefore.not_ge
  | closed hactivity hqueue hclosed =>
    refine iff_of_false (fun hall => hall (hinTime rfl) rfl) fun hstays => ?_
    have hwaits : w.server.activity.waits = true := by
      rw [hactivity]
      rfl
    have hopen := (hstays hin hwaits hqueue).1
    rw [hclosed] at hopen
    cases hopen
  | confirmedOver hactivity hdue =>
    rw [hactivity] at htimed
    have htaken : w.acked = true := htimed
    rw [hin.2] at htaken
    cases htaken
  | absorbs hactivity _ _ _ => exact absurd hactivity (hnotAbsorbing _ _ _)
  | copied hactivity _ => exact absurd hactivity (hnotAbsorbing _ _ _)
  | absorbed hactivity _ _ => exact absurd hactivity (hnotAbsorbing _ _ _)

/-- A call that waits for the provisional task takes the transaction with it. -/
theorem Ok.cancel_iff (h : w.Ok) (hin : w.InTime) (hlive : w.server.activity ≠ .dropped) :
    ((w.step .cancel).InTime → (w.step .cancel).server.activity ≠ .dropped) ↔
      w.StaysOn .cancel := by
  have hnot : ServerEvent.cancel ≠ .poll := fun heq => nomatch heq
  have hother := (h.final.other hnot).holder
  have hafter : (w.step .cancel).server.activity = (w.server.step .cancel).activity := rfl
  rw [hafter]
  cases hjoins : w.server.activity.joins with
  | false =>
    refine iff_of_true (fun _ => ?_) fun _ => hjoins
    generalize (w.server.step .cancel).activity = activity at hother
    cases hother with
    | same => exact hlive
    | sent _ hsent | absorbingSent _ hsent => cases hsent
    | cancelled hactivity _ =>
      rw [hactivity] at hjoins
      cases hjoins
  | true =>
    -- the call owns the transaction
    have hdropped : (w.server.step .cancel).activity = .dropped := by
      unfold ServerTransaction.step ServerTransaction.cancel
      cases hactivity : w.server.activity with
      | joining response deadline => rfl
      | _ =>
        rw [hactivity] at hjoins
        cases hjoins
    have hinTime : (w.step .cancel).InTime := by
      have hcancel : ∀ ms, ServerEvent.cancel ≠ .elapse ms := fun _ heq => nomatch heq
      have hnow : (w.step .cancel).server.now = w.server.now :=
        ServerTransaction.now_step _ hcancel
      refine ⟨?_, ?_⟩
      · rw [hnow]
        exact hin.1
      · show (w.acked || (w.server.outputs .cancel).any ServerOutput.isAck) = false
        rw [h.final.outputs_other hnot, hin.2]
        rfl
    refine iff_of_false (fun hall => hall hinTime hdropped) fun hstays => ?_
    have hnone : w.server.activity.joins = false := hstays hin
    rw [hjoins] at hnone
    cases hnone

/-- No other step drops the transaction. -/
theorem Ok.other_iff (h : w.Ok) (hlive : w.server.activity ≠ .dropped) {e : ServerEvent}
    (he : e ≠ .poll) (hcancel : e ≠ .cancel) :
    ((w.step e).InTime → (w.step e).server.activity ≠ .dropped) ↔ w.StaysOn e := by
  have hother := (h.final.other he).holder
  have hafter : (w.step e).server.activity = (w.server.step e).activity := rfl
  rw [hafter]
  refine iff_of_true (fun _ => ?_) ?_
  · generalize (w.server.step e).activity = activity at hother
    cases hother with
    | same => exact hlive
    | sent _ _ | absorbingSent _ _ => exact fun heq => nomatch heq
    | cancelled _ heq => exact absurd heq hcancel
  · cases e with
    | poll => exact absurd rfl he
    | cancel => exact absurd rfl hcancel
    | _ => exact fun _ => trivial

/-- **A step keeps the transaction there exactly when it does not end it.** -/
theorem Ok.timerH_step_iff (h : w.Ok) (hp : w.TimerH) (e : ServerEvent) :
    (w.step e).TimerH ↔ w.StaysOn e := by
  by_cases hin : w.InTime
  · have hlive := (hp hin).live
    have hiff : (w.step e).TimerH ↔
        ((w.step e).InTime → (w.step e).server.activity ≠ .dropped) :=
      forall_congr' fun hin' => (h.step e).alive_iff hin'.2
    rw [hiff]
    by_cases he : e = .poll
    · subst he
      exact h.poll_iff hin hlive
    by_cases hcancel : e = .cancel
    · subst hcancel
      exact h.cancel_iff hin hlive
    · exact h.other_iff hlive he hcancel
  · exact iff_of_true (fun hin' => absurd hin'.of_step hin) fun hin' => absurd hin' hin

/-- A final response other than a 2xx has the transaction wait for the `ACK`. -/
theorem ok_ofSent {s : ServerTransaction} (hhandOver : s.HandOverOk) (hstates : s.StatesOk)
    (hinvite : s.isInviteTsx = true) (hreliable : s.isReliable = false)
    {response : OutgoingResponse} (hsending : s.activity = .sendingFinal response)
    (hcode : 300 ≤ response.code.asU16) (target : TargetTransportInfo) :
    (ofSent response (s.sent (.ok target))).Ok ∧ (s.sent (.ok target)).activity ≠ .dropped := by
  have hstep := hstates.step (.sent (.ok target))
  have hnot : ∀ ms, ServerEvent.sent (.ok target) ≠ .elapse ms := fun _ heq => nomatch heq
  have hnow : (s.sent (.ok target)).now = s.now := ServerTransaction.now_step s hnot
  have hactivity := hhandOver.activity_sent hsending hreliable
    (fun _ => (by decide : 299 ≤ 300).trans hcode) target
  rw [if_pos hinvite] at hactivity
  have htimed : (ofSent response (s.sent (.ok target))).Timed (s.sent (.ok target)).activity ∧
      (s.sent (.ok target)).activity ≠ .dropped := by
    rw [hactivity]
    split
    · exact ⟨⟨congrArg (· + T4) hnow.symm, rfl, rfl⟩, fun heq => nomatch heq⟩
    · exact ⟨⟨congrArg (· + T4) hnow.symm, retransGap_zero.symm,
        fun _ => congrArg (· + T1) hnow.symm, rfl⟩, fun heq => nomatch heq⟩
  have hinvite' : (s.sent (.ok target)).isInviteTsx = true :=
    (ServerTransaction.isInviteTsx_eq hstep.request).trans hinvite
  have hheld : ∀ again, (s.sent (.ok target)).activity.held = some again →
      again.response = response.response := by
    intro again hagain
    obtain ⟨before, hbefore, hsame⟩ := ServerTransaction.heldFrom_sent (.ok target) s _ hagain
    rw [hsending] at hbefore
    exact hsame.trans (congrArg OutgoingResponse.response (Option.some.inj hbefore).symm)
  exact ⟨⟨hhandOver.finalOk_sent hsending target, hstep.states, hinvite', htimed.1, hheld⟩,
    htimed.2⟩

/-- The runs behind a busy `INVITE`. -/
def busy : AwaitedServer :=
  ofSent (.ofCode .busyHere)
    (ServerTransaction.busy.step (.sent (.ok ⟨.localhost, .localhost false⟩)))

instance (w : AwaitedServer) : Decidable w.InTime := by
  unfold InTime
  infer_instance

instance (w : AwaitedServer) (e : ServerEvent) : Decidable (w.StaysOn e) := by
  unfold StaysOn
  cases e <;> infer_instance

end AwaitedServer

end Rssip
