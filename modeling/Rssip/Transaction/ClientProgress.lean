import Rssip.Transaction.ClientCalls
import Rssip.Transaction.ClientTimers

namespace Rssip

open Lib

/-!
# Calls that return, and tasks that end

As long as polls come when there is something to do, no call waits longer than the deadline of the
transaction, and no task outlives its timer.  Only for the response to an `INVITE` that is
proceeding there is no deadline.

* `ClientTransaction.Rests` — what a transaction waits for is still to come;
* `ClientTransaction.Progress` — everything a poll can do: it finds nothing to do only at rest;
* `ClientTransaction.Timely` — what the calls and tasks of a transaction have their timers set to;
* `run_releases` — when calls return, when the task ends, and how many polls there are to do.
-/

namespace ClientTransaction

variable {c : ClientTransaction}

/-- There is nothing to do before something happens: the user holds the transaction, or nobody, or
    a timer is still to come, or the call has none. -/
inductive Rests (c : ClientTransaction) : Prop
  | held (h : c.activity = .idle ∨ c.activity = .dropped)
  | unbounded (h : c.activity.waiting = some .untilReceived)
  | call {wait : Wait} (h : c.activity.waiting = some wait) (hbefore : c.now < c.timeout)
  | task {timer : Nat} {ack : Option OutgoingRequest} (h : c.activity = .completed timer ack)
    (hbefore : c.now < timer)

/-- The timer of the task that outlives the final response. -/
def TaskWithin (c : ClientTransaction) : Prop :=
  ∀ timer ack, c.activity = .completed timer ack → timer ≤ c.now + 64 * T1

/-- **What a poll does**: nothing if the transaction rests, or else it sends the request again, ends
    the call, or goes on with the task. -/
inductive Progress (c : ClientTransaction) : Prop
  | rests (h : c.poll = c) (hrests : c.Rests)
  | resent {interval expires : Nat}
    (h : c.activity.waiting = some (.retransmitting interval expires)) (hdue : expires ≤ c.now)
    (hnext : c.poll.activity.waiting =
      some (.retransmitting (interval * 2) (c.now + interval * 2)))
    (hresults : c.poll.results = c.results) (hstate : c.poll.state = c.state)
    (hmessages : c.poll.channel.messages = c.channel.messages)
  | returned {wait : Wait} (h : c.activity.waiting = some wait)
    (hnext : c.poll.activity.waiting = none) (htask : c.poll.TaskWithin)
    (hresults : c.results.length < c.poll.results.length)
    (hmessages : c.poll.channel.messages.length ≤ c.channel.messages.length)
  | took {timer : Nat} {ack : Option OutgoingRequest} (h : c.activity = .completed timer ack)
    (hnext : c.poll.activity = c.activity)
    (hmessages : c.poll.channel.messages.length < c.channel.messages.length)
  | finished {timer : Nat} {ack : Option OutgoingRequest} (h : c.activity = .completed timer ack)
    (hnext : c.poll.activity = .dropped)
    (hmessages : c.poll.channel.messages.length ≤ c.channel.messages.length)

/-! ### One poll -/

/-- What comes after a poll of `receive_response_if` that does not wait. -/
structure Ready (c c' : ClientTransaction) : Prop where
  results : c'.results = c.results
  now : c'.now = c.now
  messages : c'.channel.messages.length ≤ c.channel.messages.length

/-- A poll of the wait for a response ends it, sends the request again, or waits for what is still
    to come. -/
theorem pollResponse_progress (cond : IncomingResponse → Bool) (wait : Wait)
    (c : ClientTransaction) :
    (∃ res c', c.pollResponse cond wait = (.done res, c') ∧ Ready c c') ∨
      (∃ interval expires, wait = .retransmitting interval expires ∧ expires ≤ c.now ∧
        c.pollResponse cond wait =
          (.waiting (.retransmitting (interval * 2) (c.now + interval * 2)),
            c.sendRequest c.request)) ∨
      ((wait = .untilReceived ∨ c.now < c.timeout) ∧
        c.pollResponse cond wait = (.waiting wait, c)) := by
  rcases c.pollRecvIf_cases cond with
    ⟨r, rest, channel, hmsgs, -, hrest, -, hpoll⟩ | ⟨channel, -, -, hmsgs, -, hpoll⟩ |
    ⟨-, -, hpoll⟩
  · have hdone : c.pollResponse cond wait =
        (.done (.ok (some r)), { c with channel := channel }.record (.received (.response r))) := by
      rw [pollResponse, hpoll]
    have hless : channel.messages.length ≤ c.channel.messages.length := by
      rw [hrest, hmsgs, List.length_cons]
      exact Nat.le_succ _
    exact .inl ⟨_, _, hdone, results_received _ _, rfl, hless⟩
  · have hdone : c.pollResponse cond wait = (.done (.ok none), { c with channel := channel }) := by
      rw [pollResponse, hpoll]
    exact .inl ⟨_, _, hdone, rfl, rfl, (congrArg List.length hmsgs).le⟩
  · simp only [pollResponse, hpoll]
    -- the interval of a retransmission is looked at before the deadline
    cases wait with
    | untilReceived => exact .inr (.inr ⟨.inl rfl, rfl⟩)
    | untilDeadline =>
      by_cases hdeadline : c.timeout ≤ c.now
      · exact .inl ⟨_, _, if_pos hdeadline, rfl, rfl, le_rfl⟩
      · exact .inr (.inr ⟨.inr (Nat.lt_of_not_le hdeadline), if_neg hdeadline⟩)
    | retransmitting interval expires =>
      by_cases hexpired : expires ≤ c.now
      · exact .inr (.inl ⟨interval, expires, rfl, hexpired, if_pos hexpired⟩)
      · by_cases hdeadline : c.timeout ≤ c.now
        · exact .inl ⟨_, _, (if_neg hexpired).trans (if_pos hdeadline), rfl, rfl, le_rfl⟩
        · exact .inr (.inr ⟨.inr (Nat.lt_of_not_le hdeadline),
            (if_neg hexpired).trans (if_neg hdeadline)⟩)

/-- A call that ends returns, and leaves at most a task with a timer. -/
structure Returns (c c' : ClientTransaction) : Prop where
  waiting : c'.activity.waiting = none
  task : c'.TaskWithin
  results : c'.results.length = c.results.length + 1
  channel : c'.channel = c.channel

/-- A call that gives its result and leaves the transaction to its user, or to nobody, returns. -/
theorem returns_ret (res : CallResult) (c : ClientTransaction) {activity : ClientActivity}
    (h : activity = .idle ∨ activity = .dropped) :
    Returns c ((c.ret res).become activity) := by
  refine ⟨?_, ?_, by simp, rfl⟩
  · rcases h with rfl | rfl <;> rfl
  · rintro timer ack hactivity
    have hactivity : activity = .completed timer ack := hactivity
    rcases h with rfl | rfl <;> cases hactivity

/-- To set the state in front of a return does not matter. -/
theorem Returns.of_setState {s : State} {c' : ClientTransaction} (h : Returns (c.setState s) c') :
    Returns c c' :=
  ⟨h.waiting, h.task, h.results, h.channel⟩

/-- The call for a provisional response returns in every case. -/
theorem returns_finishProvisional (seen : State) (res : Except Error (Option IncomingResponse))
    (c : ClientTransaction) : Returns c (c.finishProvisional seen res) := by
  cases res with
  | error e => exact returns_ret _ c (.inl rfl)
  | ok response =>
    obtain ⟨hresults, -, hactivity, hchannel⟩ := finishProvisional_ok seen response c
    refine ⟨by rw [hactivity]; rfl, fun timer ack h => ?_, by rw [hresults]; simp, hchannel⟩
    rw [hactivity] at h
    cases h

/-- A final response makes the call return, and leaves the task with timer D at most. -/
theorem returns_finishResponse (response : IncomingResponse) (c : ClientTransaction) :
    Returns c (c.finishResponse response) := by
  unfold finishResponse
  split
  · exact (returns_ret _ (c.setState .terminated) (.inr rfl)).of_setState
  · dsimp only
    split
    · split
      · refine ⟨rfl, fun timer ack h => ?_, by simp, rfl⟩
        obtain ⟨rfl, -⟩ := ClientActivity.completed.inj h
        exact le_rfl
      · exact (returns_ret _ (c.setState .completed) (.inr rfl)).of_setState
    · refine ⟨rfl, fun timer ack h => ?_, by simp, rfl⟩
      obtain ⟨rfl, -⟩ := ClientActivity.completed.inj h
      exact Nat.add_le_add_left (by decide) c.now

/-- The call for the final response returns in every case. -/
theorem returns_finishFinal (res : Except Error (Option IncomingResponse)) (c : ClientTransaction) :
    Returns c (c.finishFinal res) := by
  rcases res with e | _ | response
  · exact returns_ret _ c (.inr rfl)
  · exact returns_ret _ c (.inr rfl)
  · exact returns_finishResponse response c

/-- The poll of a call. -/
theorem progress_call {wait : Wait} (cond : IncomingResponse → Bool)
    {activity : Wait → ClientActivity}
    {finish : Except Error (Option IncomingResponse) → ClientTransaction → ClientTransaction}
    (hactivity : c.activity = activity wait) (hwaiting : ∀ w, (activity w).waiting = some w)
    (hfinish : ∀ res c, Returns c (finish res c))
    (hdone : ∀ res c', c.pollResponse cond wait = (.done res, c') → c.poll = finish res c')
    (hwaits : ∀ w c', c.pollResponse cond wait = (.waiting w, c') →
      c.poll = c'.become (activity w)) : c.Progress := by
  have hwait : c.activity.waiting = some wait := by rw [hactivity, hwaiting]
  rcases c.pollResponse_progress cond wait with
    ⟨res, c', hready, hafter⟩ | ⟨interval, expires, rfl, hdue, hresent⟩ | ⟨hrests, hstill⟩
  · have hreturns := hfinish res c'
    rw [← hdone res c' hready] at hreturns
    refine .returned hwait hreturns.waiting hreturns.task ?_ ?_
    · rw [hreturns.results, hafter.results]
      exact Nat.lt_succ_self _
    · rw [hreturns.channel]
      exact hafter.messages
  · have hpoll := hwaits _ _ hresent
    refine .resent hwait hdue ?_ ?_ ?_ ?_ <;> rw [hpoll]
    · exact hwaiting _
    · exact results_sendRequest _ _
    · rfl
    · rfl
  · have hsame : c.poll = c := by
      rw [hwaits _ _ hstill, ← hactivity]
      rfl
    refine .rests hsame ?_
    rcases hrests with rfl | hbefore
    · exact .unbounded hwait
    · exact .call hwait hbefore

/-- **Every poll makes progress, or the transaction rests.** -/
theorem progress (c : ClientTransaction) : c.Progress := by
  cases hactivity : c.activity with
  | idle => exact .rests (poll_of_idle hactivity) (.held (.inl hactivity))
  | dropped => exact .rests (poll_of_dropped hactivity) (.held (.inr hactivity))
  | provisional seen wait =>
    exact progress_call (fun r => r.code.isProvisional) hactivity (fun _ => rfl)
      (returns_finishProvisional seen)
      (fun _ _ hpoll => by simp only [poll, hactivity, hpoll])
      (fun _ _ hpoll => by simp only [poll, hactivity, hpoll])
  | final wait =>
    exact progress_call (fun r => r.code.isFinal) hactivity (fun _ => rfl) returns_finishFinal
      (fun _ _ hpoll => by simp only [poll, hactivity, hpoll])
      (fun _ _ hpoll => by simp only [poll, hactivity, hpoll])
  | completed timer ack =>
    have hpoll := poll_of_completed hactivity
    rcases c.channel.pollRecv_cases with
      ⟨msg, rest, channel, hmsgs, hrecv, hrest, -⟩ | ⟨-, -, hrecv⟩ | ⟨-, -, hrecv⟩
    · have hless : channel.messages.length < c.channel.messages.length := by
        rw [hrest, hmsgs, List.length_cons]
        exact Nat.lt_succ_self _
      cases msg with
      | request r =>
        have hended : c.poll = (({ c with channel := channel }.record
            (.received (.request r))).setState .terminated).become .dropped := by
          simp only [hpoll, pollCompleted, hrecv]
        refine .finished hactivity ?_ ?_ <;> rw [hended]
        · rfl
        · exact hless.le
      | response r =>
        cases ack with
        | none =>
          have htook : c.poll =
              { c with channel := channel }.record (.received (.response r)) := by
            simp only [hpoll, pollCompleted, hrecv]
          refine .took hactivity ?_ ?_ <;> rw [htook]
          · rfl
          · exact hless
        | some ack =>
          have htook : c.poll =
              ({ c with channel := channel }.record (.received (.response r))).sendRequest ack := by
            simp only [hpoll, pollCompleted, hrecv]
          refine .took hactivity ?_ ?_ <;> rw [htook]
          · rfl
          · exact hless
    · have hended : c.poll = (c.setState .terminated).become .dropped := by
        simp only [hpoll, pollCompleted, hrecv]
      refine .finished hactivity ?_ ?_ <;> rw [hended]
      · rfl
      · exact le_rfl
    · by_cases hdue : timer ≤ c.now
      · have hended : c.poll = (c.setState .terminated).become .dropped := by
          simp only [hpoll, pollCompleted, hrecv, if_pos hdue]
        refine .finished hactivity ?_ ?_ <;> rw [hended]
        · rfl
        · exact le_rfl
      · have hsame : c.poll = c := by
          simp only [hpoll, pollCompleted, hrecv, if_neg hdue]
        exact .rests hsame (.task hactivity (Nat.lt_of_not_le hdue))

/-! ### The other steps -/

/-- **What a step that is no poll does to the calls**: nothing, unless the user has the transaction
    or gives up a call. -/
theorem activity_other (c : ClientTransaction) {e : ClientEvent} (he : e ≠ .poll) :
    ((c.step e).activity = c.activity ∧ (c.step e).state = c.state) ∨
      (c.activity = .idle ∧ ∃ wait, c.startWait = some wait ∧
        (c.step e).activity.waiting = some wait ∧ (c.step e).state = c.state) ∨
      ((c.activity = .idle ∨ c.activity.waiting ≠ none ∧ e = .cancel) ∧
        ((c.step e).activity = .idle ∨ (c.step e).activity = .dropped)) := by
  cases e with
  | poll => exact absurd rfl he
  | close | elapse _ | recvState _ => exact .inl ⟨rfl, rfl⟩
  | deliver msg =>
    simp only [step]
    split <;> exact .inl ⟨rfl, rfl⟩
  | subscribeState =>
    simp only [step]
    split <;> exact .inl ⟨rfl, rfl⟩
  | drop =>
    simp only [step]
    split
    · next hidle => exact .inr (.inr ⟨.inl hidle, .inr rfl⟩)
    · exact .inl ⟨rfl, rfl⟩
  | cancel =>
    simp only [step, cancel]
    cases hactivity : c.activity with
    | provisional seen wait =>
      exact .inr (.inr ⟨.inr ⟨Option.some_ne_none wait, trivial⟩, .inl rfl⟩)
    | final wait => exact .inr (.inr ⟨.inr ⟨Option.some_ne_none wait, trivial⟩, .inr rfl⟩)
    | idle | completed _ _ | dropped => exact .inl ⟨hactivity, rfl⟩
  | receiveProvisionalResponse =>
    by_cases hidle : c.activity = .idle
    · simp only [step, if_pos hidle, receiveProvisionalResponse]
      split
      · cases hstart : c.startWait with
        | some wait => exact .inr (.inl ⟨hidle, wait, rfl, rfl, rfl⟩)
        | none => exact .inr (.inr ⟨.inl hidle, .inr rfl⟩)
      · exact .inl ⟨rfl, rfl⟩
    · rw [step, if_neg hidle]
      exact .inl ⟨rfl, rfl⟩
  | receiveFinalResponse =>
    by_cases hidle : c.activity = .idle
    · simp only [step, if_pos hidle, receiveFinalResponse]
      cases hstart : c.startWait with
      | some wait => exact .inr (.inl ⟨hidle, wait, rfl, rfl, rfl⟩)
      | none => exact .inr (.inr ⟨.inl hidle, .inr rfl⟩)
    · rw [step, if_neg hidle]
      exact .inl ⟨rfl, rfl⟩

/-! ### Timers -/

/-- Intervals are not empty, a task has a timer, and the calls without one are those for the
    response to an `INVITE` that is proceeding. -/
structure Timely (c : ClientTransaction) : Prop where
  interval : ∀ interval expires,
    c.activity.waiting = some (.retransmitting interval expires) → 0 < interval
  task : c.TaskWithin
  unbounded : ∀ wait, c.activity.waiting = some wait →
    (wait = .untilReceived ↔ c.isInvite ∧ c.state = .proceeding)

/-- A poll does not change the method. -/
theorem isInvite_poll (c : ClientTransaction) : c.poll.isInvite = c.isInvite := by
  rw [isInvite, request_poll]
  rfl

/-- No step changes the method. -/
theorem isInvite_step (c : ClientTransaction) (e : ClientEvent) :
    (c.step e).isInvite = c.isInvite := by
  rw [isInvite, request_step]
  rfl

/-- A wait starts with an interval that is not empty, and without a deadline only for an `INVITE`
    that is proceeding. -/
theorem startWait_timely {wait : Wait} (h : c.startWait = some wait) :
    (∀ interval expires, wait = .retransmitting interval expires → 0 < interval) ∧
      (wait = .untilReceived ↔ c.isInvite ∧ c.state = .proceeding) := by
  have hT1 : 0 < T1 := by decide
  unfold startWait at h
  cases hstate : c.state with
  | calling | trying =>
    -- the interval begins with `T1`
    simp only [hstate, Option.some.injEq] at h
    cases hreliable : c.isReliable <;> simp only [hreliable, if_true, if_false,
      Bool.false_eq_true] at h <;> subst h <;> simp [hT1]
  | proceeding =>
    simp only [hstate, Option.some.injEq] at h
    cases hinvite : c.isInvite <;> simp only [hinvite, if_true, if_false,
      Bool.false_eq_true] at h <;> subst h <;> simp
  | completed | confirmed | terminated =>
    simp only [hstate] at h
    cases h

/-- Nobody waits. -/
theorem timely_of_waiting {c : ClientTransaction} (hwaiting : c.activity.waiting = none)
    (htask : c.TaskWithin) : c.Timely := by
  refine ⟨fun interval expires h => ?_, htask, fun wait h => ?_⟩
  · rw [hwaiting] at h
    cases h
  · rw [hwaiting] at h
    cases h

/-- A transaction that nobody waits for has no timer to be wrong. -/
theorem timely_of_held {c : ClientTransaction} (h : c.activity = .idle ∨ c.activity = .dropped) :
    c.Timely := by
  refine timely_of_waiting ?_ fun timer ack htask => ?_
  · rcases h with h | h <;> rw [h] <;> rfl
  · rcases h with h | h <;> rw [h] at htask <;> cases htask

/-- A poll keeps the timers in order. -/
theorem Timely.poll (h : c.Timely) : c.poll.Timely := by
  rcases c.progress with ⟨hsame, -⟩ | ⟨hwaiting, -, hnext, -, hstate, -⟩ |
    ⟨-, hnext, htask, -, -⟩ | ⟨hactivity, hnext, -⟩ | ⟨-, hnext, -⟩
  · rw [hsame]
    exact h
  · refine ⟨fun interval expires hwait => ?_, fun timer ack hactivity => ?_, fun wait hwait => ?_⟩
    · rw [hnext] at hwait
      obtain ⟨rfl, -⟩ := Wait.retransmitting.inj (Option.some.inj hwait)
      have hpos := h.interval _ _ hwaiting
      omega
    · rw [hactivity] at hnext
      cases hnext
    · -- it went on with retransmissions
      obtain rfl := Option.some.inj (hnext.symm.trans hwait)
      have hbounded := h.unbounded _ hwaiting
      rw [← isInvite_poll, ← hstate] at hbounded
      simpa using hbounded
  · exact timely_of_waiting hnext htask
  · refine timely_of_waiting (by rw [hnext, hactivity]; rfl) fun timer ack htask => ?_
    rw [hnext] at htask
    rw [now_poll]
    exact h.task timer ack htask
  · exact timely_of_held (.inr hnext)

/-- Every step keeps the timers in order. -/
theorem Timely.step (h : c.Timely) (e : ClientEvent) : (c.step e).Timely := by
  by_cases hpoll : e = .poll
  · rw [hpoll]
    exact h.poll
  have hnow : c.now ≤ (c.step e).now := clock.now_le_step c e
  rcases c.activity_other hpoll with ⟨hactivity, hstate⟩ | ⟨-, wait, hstart, hwaiting, hstate⟩ |
    ⟨-, hheld⟩
  · refine ⟨fun interval expires hwait => ?_, fun timer ack htask => ?_, fun wait hwait => ?_⟩
    · exact h.interval interval expires (hactivity ▸ hwait)
    · have hold := h.task timer ack (hactivity ▸ htask)
      omega
    · rw [isInvite_step, hstate]
      exact h.unbounded wait (hactivity ▸ hwait)
  · obtain ⟨hinterval, hunbounded⟩ := startWait_timely hstart
    refine ⟨fun interval expires hwait => ?_, fun timer ack htask => ?_, fun wait' hwait => ?_⟩
    · exact hinterval interval expires (Option.some.inj (hwaiting.symm.trans hwait))
    · rw [htask] at hwaiting
      cases hwaiting
    · obtain rfl := Option.some.inj (hwaiting.symm.trans hwait)
      rw [isInvite_step, hstate]
      exact hunbounded
  · exact timely_of_held hheld

/-- A transaction that has nothing to do rests. -/
theorem Timely.rests (h : c.Timely) (hquiet : c.Quiet) : c.Rests := by
  have hsame : c.poll = c := hquiet
  rcases c.progress with ⟨-, hrests⟩ | ⟨hwaiting, -, hnext, -, -, -⟩ | ⟨-, -, -, hresults, -⟩ |
    ⟨-, -, hmessages⟩ | ⟨hactivity, hnext, -⟩
  · exact hrests
  · rw [hsame, hwaiting] at hnext
    obtain ⟨hdouble, -⟩ := Wait.retransmitting.inj (Option.some.inj hnext)
    have hpos := h.interval _ _ hwaiting
    omega
  · rw [hsame] at hresults
    exact absurd hresults (Nat.lt_irrefl _)
  · rw [hsame] at hmessages
    exact absurd hmessages (Nat.lt_irrefl _)
  · rw [hsame, hactivity] at hnext
    cases hnext

/-! ### Polls come to an end -/

/-- How far a transaction is from rest, the messages apart. -/
def remaining (c : ClientTransaction) : Nat :=
  match c.activity.waiting with
  | some (.retransmitting _ expires) => if expires ≤ c.now then 3 else 2
  | some _ => 2
  | none => if c.activity = .idle ∨ c.activity = .dropped then 0 else 1

/-- How many polls there can be with something to do. -/
def work (c : ClientTransaction) : Nat := c.channel.messages.length + c.remaining

/-- While a call waits there are at least two stages to go, the call and the task after it. -/
theorem two_le_remaining {wait : Wait} (h : c.activity.waiting = some wait) : 2 ≤ c.remaining := by
  unfold remaining
  rw [h]
  cases wait with
  | untilReceived | untilDeadline => exact le_rfl
  | retransmitting interval expires => dsimp only; split <;> omega

/-- When no call waits there is one stage to go at most. -/
theorem remaining_le_one (h : c.activity.waiting = none) : c.remaining ≤ 1 := by
  unfold remaining
  rw [h]
  dsimp only
  split <;> omega

/-- There are never more than three stages to go. -/
theorem remaining_le (c : ClientTransaction) : c.remaining ≤ 3 := by
  unfold remaining
  split
  · split <;> omega
  · omega
  · split <;> omega

/-- A poll that does something has less to do behind it: the measure of the induction. -/
theorem Timely.work_poll (h : c.Timely) (hbusy : c.poll ≠ c) : c.poll.work < c.work := by
  unfold work
  rcases c.progress with ⟨hsame, -⟩ | ⟨hwaiting, hdue, hnext, -, -, hmessages⟩ |
    ⟨hwaiting, hnext, -, -, hmessages⟩ | ⟨hactivity, hnext, hmessages⟩ |
    ⟨hactivity, hnext, hmessages⟩
  · exact absurd hsame hbusy
  · -- the next interval is not over, it begins now
    have hpos := h.interval _ _ hwaiting
    have hbefore : c.remaining = 3 := by
      simp only [remaining, hwaiting, if_pos hdue]
    have hafter : c.poll.remaining = 2 := by
      simp only [remaining, hnext, now_poll]
      rw [if_neg (by omega)]
    rw [hmessages]
    omega
  · have hbefore := two_le_remaining hwaiting
    have hafter := remaining_le_one hnext
    omega
  · have hsame : c.poll.remaining = c.remaining := by
      simp only [remaining, hnext, hactivity, ClientActivity.waiting]
    omega
  · have hbefore : c.remaining = 1 := by
      simp [remaining, hactivity, ClientActivity.waiting]
    have hafter : c.poll.remaining = 0 := by
      simp [remaining, hnext, ClientActivity.waiting]
    omega

/-- **There are finitely many polls to do**: one for each message, and three more. -/
theorem Timely.exists_quiet (h : c.Timely) :
    ∃ k ≤ c.channel.messages.length + 3, (ClientTransaction.poll^[k] c).Quiet := by
  obtain ⟨k, hk, hfixed⟩ := exists_fixed (f := ClientTransaction.poll) (fun _ hc => hc.poll)
    (fun _ hc hbusy => hc.work_poll hbusy) h
  have hbound := c.remaining_le
  unfold work at hk
  exact ⟨k, by omega, hfixed⟩

/-! ### Deadlines -/

/-- A call under way returns once the deadline is over, whatever happens but that the user gives
    it up, if polls come when there is something to do. -/
def ReturnsBy (deadline : Nat) (c : ClientTransaction) : Prop :=
  ∀ es, .cancel ∉ es → Meets step (clock.PromptStep Quiet) c es →
    max deadline c.now < (c.run es).now → c.results.length < (c.run es).results.length

/-- The task ends once its timer is over. -/
def EndsBy (timer : Nat) (c : ClientTransaction) : Prop :=
  ∀ es, Meets step (clock.PromptStep Quiet) c es → max timer c.now < (c.run es).now →
    (c.run es).activity = .dropped

/-- A call that has a deadline is under way, or has returned. -/
structure Bounded (deadline returned : Nat) (c : ClientTransaction) : Prop where
  states : c.StatesOk
  timely : c.Timely
  timeout : c.timeout = deadline
  waiting : returned < c.results.length ∨ c.results.length = returned ∧
    ∃ wait, c.activity.waiting = some wait ∧ wait ≠ .untilReceived

/-- Results are never taken back. -/
theorem results_le_step (h : c.StatesOk) (e : ClientEvent) :
    c.results.length ≤ (c.step e).results.length := by
  obtain ⟨new, hresults, -⟩ := step_results h e
  rw [hresults, List.length_append]
  exact Nat.le_add_right _ _

/-- A call with a deadline stays under way or returns, unless it is given up. -/
theorem Bounded.step {deadline returned : Nat} (h : c.Bounded deadline returned) {e : ClientEvent}
    (he : e ≠ .cancel) : (c.step e).Bounded deadline returned := by
  refine ⟨h.states.step e, h.timely.step e, (timeout_step c e).trans h.timeout, ?_⟩
  have hmore := results_le_step h.states e
  by_cases hreturned : returned < (c.step e).results.length
  · exact .inl hreturned
  obtain ⟨hsame, wait, hwaiting, hwait⟩ : c.results.length = returned ∧
      ∃ wait, c.activity.waiting = some wait ∧ wait ≠ .untilReceived :=
    h.waiting.resolve_left (by omega)
  refine .inr ⟨by omega, ?_⟩
  by_cases hpoll : e = .poll
  · subst hpoll
    have hstep : c.step .poll = c.poll := rfl
    rw [hstep] at hreturned ⊢
    rcases c.progress with ⟨hrests, -⟩ | ⟨-, -, hnext, -, -, -⟩ | ⟨-, -, -, hresults, -⟩ |
      ⟨hactivity, -, -⟩ | ⟨hactivity, -, -⟩
    · rw [hrests]
      exact ⟨wait, hwaiting, hwait⟩
    · exact ⟨_, hnext, by simp⟩
    · omega
    · rw [hactivity] at hwaiting
      cases hwaiting
    · rw [hactivity] at hwaiting
      cases hwaiting
  · rcases c.activity_other hpoll with ⟨hactivity, -⟩ | ⟨hidle, -⟩ | ⟨hends, -⟩
    · exact ⟨wait, hactivity ▸ hwaiting, hwait⟩
    · exact absurd hidle (ne_idle_of_waiting hwaiting)
    · rcases hends with hidle | ⟨-, hcancel⟩
      · exact absurd hidle (ne_idle_of_waiting hwaiting)
      · exact absurd hcancel he

/-- With nothing to do behind the deadline, the call has returned. -/
theorem Bounded.returned {deadline returned : Nat} (h : c.Bounded deadline returned)
    (hquiet : c.Quiet) (hlate : deadline ≤ c.now) : returned < c.results.length := by
  rcases h.waiting with hreturned | ⟨-, wait, hwaiting, hwait⟩
  · exact hreturned
  rcases h.timely.rests hquiet with (hidle | hdropped) | hunbounded | ⟨-, hbefore⟩ | ⟨hactivity, -⟩
  · exact absurd hidle (ne_idle_of_waiting hwaiting)
  · rw [hdropped] at hwaiting
    cases hwaiting
  · exact absurd (Option.some.inj (hwaiting.symm.trans hunbounded)) hwait
  · rw [h.timeout] at hbefore
    exact absurd hbefore hlate.not_gt
  · rw [hactivity] at hwaiting
    cases hwaiting

/-- A call with a timer returns by the end of the timeout, whatever else happens. -/
theorem returnsBy (hstates : c.StatesOk) (htimely : c.Timely) {wait : Wait}
    (hwaiting : c.activity.waiting = some wait) (hwait : wait ≠ .untilReceived) :
    c.ReturnsBy c.timeout := by
  intro es hcancel hes hlate
  have hbounded : c.Bounded c.timeout c.results.length :=
    ⟨hstates, htimely, rfl, .inr ⟨rfl, wait, hwaiting, hwait⟩⟩
  have hallowed : ∀ ms, clock.elapse ms ≠ ClientEvent.cancel := fun ms h => by cases h
  have hinv : ∀ (s : ClientTransaction) (e : ClientEvent), e ≠ .cancel →
      s.Bounded c.timeout c.results.length →
      (ClientTransaction.step s e).Bounded c.timeout c.results.length :=
    fun s e he hs => hs.step he
  refine clock.after_of_allowed hallowed hinv (fun s e _ hs hp => ?_)
    (fun s hs hquiet hthere => hs.returned hquiet ?_) hbounded (fun hnot => ?_)
    (fun e he h => hcancel (h ▸ he)) hes hlate
  · exact lt_of_lt_of_le hp (results_le_step hs.states e)
  · exact (le_max_left _ _).trans hthere
  · exact absurd hnot (le_max_right c.timeout c.now).not_gt

/-- The task is under way, or nobody has the transaction any more. -/
structure Outlives (timer : Nat) (c : ClientTransaction) : Prop where
  timely : c.Timely
  task : c.activity = .dropped ∨ ∃ ack, c.activity = .completed timer ack

/-- A transaction that nobody has stays so. -/
theorem activity_dropped_step (h : c.activity = .dropped) (e : ClientEvent) :
    (c.step e).activity = .dropped := by
  by_cases hpoll : e = .poll
  · subst hpoll
    exact (congrArg activity (poll_of_dropped h)).trans h
  · rcases c.activity_other hpoll with ⟨hactivity, -⟩ | ⟨hidle, -⟩ | ⟨hends, -⟩
    · exact hactivity.trans h
    · rw [h] at hidle
      cases hidle
    · rcases hends with hidle | ⟨hwaiting, -⟩
      · rw [h] at hidle
        cases hidle
      · rw [h] at hwaiting
        exact absurd rfl hwaiting

/-- The task stays under way or is gone: nobody can bring another one. -/
theorem Outlives.step {timer : Nat} (h : c.Outlives timer) (e : ClientEvent) :
    (c.step e).Outlives timer := by
  refine ⟨h.timely.step e, ?_⟩
  rcases h.task with hdropped | ⟨ack, htask⟩
  · exact .inl (activity_dropped_step hdropped e)
  by_cases hpoll : e = .poll
  · subst hpoll
    have hstep : c.step .poll = c.poll := rfl
    rw [hstep]
    rcases c.progress with ⟨hrests, -⟩ | ⟨hwaiting, -⟩ | ⟨hwaiting, -⟩ |
      ⟨-, hnext, -⟩ | ⟨-, hnext, -⟩
    · rw [hrests]
      exact .inr ⟨ack, htask⟩
    · rw [htask] at hwaiting
      cases hwaiting
    · rw [htask] at hwaiting
      cases hwaiting
    · exact .inr ⟨ack, hnext.trans htask⟩
    · exact .inl hnext
  · rcases c.activity_other hpoll with ⟨hactivity, -⟩ | ⟨hidle, -⟩ | ⟨hends, -⟩
    · exact .inr ⟨ack, hactivity.trans htask⟩
    · rw [htask] at hidle
      cases hidle
    · rcases hends with hidle | ⟨hwaiting, -⟩
      · rw [htask] at hidle
        cases hidle
      · rw [htask] at hwaiting
        exact absurd rfl hwaiting

/-- When its timer is over and polls have come, the task is gone. -/
theorem Outlives.ended {timer : Nat} (h : c.Outlives timer) (hquiet : c.Quiet)
    (hlate : timer ≤ c.now) : c.activity = .dropped := by
  rcases h.task with hdropped | ⟨ack, htask⟩
  · exact hdropped
  rcases h.timely.rests hquiet with (hidle | hdropped) | hwaiting | ⟨hwaiting, -⟩ |
    ⟨hactivity, hbefore⟩
  · rw [htask] at hidle
    cases hidle
  · exact hdropped
  · rw [htask] at hwaiting
    cases hwaiting
  · rw [htask] at hwaiting
    cases hwaiting
  · obtain ⟨rfl, -⟩ := ClientActivity.completed.inj (htask.symm.trans hactivity)
    exact absurd hbefore hlate.not_gt

/-- The task that repeats the `ACK` ends by its timer. -/
theorem endsBy (htimely : c.Timely) {timer : Nat} {ack : Option OutgoingRequest}
    (htask : c.activity = .completed timer ack) : c.EndsBy timer := by
  intro es hes hlate
  have houtlives : c.Outlives timer := ⟨htimely, .inr ⟨ack, htask⟩⟩
  have hinv : ∀ s e, Outlives timer s → Outlives timer (ClientTransaction.step s e) :=
    fun s e hs => hs.step e
  refine clock.after hinv (fun s e _ hp => activity_dropped_step hp e)
    (fun s hs hquiet hthere => hs.ended hquiet ?_) houtlives (fun hnot => ?_) hes hlate
  · exact (le_max_left _ _).trans hthere
  · exact absurd hnot (le_max_right timer c.now).not_gt

/-- A call without a deadline waits as long as there is no message and the channel is open. -/
theorem quiet_untilReceived (hwaiting : c.activity.waiting = some .untilReceived)
    (hmsgs : c.channel.messages = []) (hopen : c.channel.closed = false) : c.Quiet := by
  have hwaits : ∀ cond, c.pollResponse cond .untilReceived = (.waiting .untilReceived, c) := by
    intro cond
    rcases c.pollRecvIf_cases cond with ⟨_, _, _, hne, -⟩ | ⟨_, -, hne, -⟩ | ⟨-, -, hpoll⟩
    · rw [hmsgs] at hne
      cases hne
    · exact absurd hmsgs (hne hopen)
    · simp only [pollResponse, hpoll]
  unfold Quiet poll
  cases hactivity : c.activity with
  | idle | dropped => rfl
  | completed _ _ =>
    rw [hactivity] at hwaiting
    cases hwaiting
  | provisional seen wait | final wait =>
    rw [hactivity] at hwaiting
    obtain rfl := Option.some.inj hwaiting
    simp only [hwaits, become]
    rw [← hactivity]

/-! ### Runs -/

/-- How long a transaction keeps its user waiting, and its task alive. -/
structure Releases (deadline : Nat) (c : ClientTransaction) : Prop where
  polls : ∃ k ≤ c.channel.messages.length + 3, (poll^[k] c).Quiet
  task : ∀ timer ack, c.activity = .completed timer ack →
    timer ≤ c.now + 64 * T1 ∧ c.EndsBy timer
  call : ∀ wait, c.activity.waiting = some wait → ¬ (c.isInvite ∧ c.state = .proceeding) →
    c.ReturnsBy deadline
  unbounded : ∀ wait, c.activity.waiting = some wait → c.isInvite ∧ c.state = .proceeding →
    c.channel.messages = [] → c.channel.closed = false → ∀ ms, (c.step (.elapse ms)).Quiet

/-- The timeout of the transaction is fixed when its request is sent. -/
theorem timeout_run (c : ClientTransaction) (es : List ClientEvent) :
    (c.run es).timeout = c.timeout := by
  have hstep : ∀ c' e, ClientTransaction.timeout c' = c.timeout → (c'.step e).timeout = c.timeout :=
    fun c' e h => (timeout_step c' e).trans h
  exact exec_invariant hstep rfl es

/-- **A client transaction lets go.** After any run the polls there are to do come to an end, a call
    returns by the deadline of the transaction and a task ends with its timer, if the polls come.
    The call for the response to an `INVITE` that is proceeding waits for good if nothing comes. -/
theorem run_releases {generated : String} {outgoing : OutgoingRequest} {now : Nat}
    {c : ClientTransaction} (h : send generated outgoing now = some c) (es : List ClientEvent) :
    (c.run es).Releases (now + T1 * 64) := by
  have hsent := statesOk_send h
  obtain ⟨-, -, -, htimeout, -, hidle, -⟩ := send_eq_some h
  have hinv : ∀ c e, StatesOk c ∧ Timely c → StatesOk (c.step e) ∧ Timely (c.step e) :=
    fun c e hc => ⟨hc.1.step e, hc.2.step e⟩
  have hrun : (c.run es).StatesOk ∧ (c.run es).Timely :=
    exec_invariant hinv ⟨hsent, timely_of_held (.inl hidle)⟩ es
  obtain ⟨hstates, htimely⟩ := hrun
  have hdeadline : (c.run es).timeout = now + T1 * 64 := (timeout_run c es).trans htimeout
  refine ⟨htimely.exists_quiet, fun timer ack htask => ⟨htimely.task timer ack htask, ?_⟩,
    fun wait hwaiting hbounded => ?_, fun wait hwaiting hunbounded hmsgs hopen ms => ?_⟩
  · exact endsBy htimely htask
  · rw [← hdeadline]
    exact returnsBy hstates htimely hwaiting fun hwait =>
      hbounded ((htimely.unbounded wait hwaiting).mp hwait)
  · obtain rfl := (htimely.unbounded wait hwaiting).mpr hunbounded
    exact quiet_untilReceived hwaiting hmsgs hopen

/-- An `OPTIONS` whose final response is waited for, with a second transmission. -/
theorem run_releases_options :
    (run (new "z9hG4bK1" (.toLocalhost .options false) 0)
      [.receiveFinalResponse, .elapse 500, .poll]).Releases 32000 := by
  have hsend : send "z9hG4bK1" (.toLocalhost .options false) 0 =
      some (new "z9hG4bK1" (.toLocalhost .options false) 0) := rfl
  exact run_releases hsend _

end ClientTransaction

end Rssip
