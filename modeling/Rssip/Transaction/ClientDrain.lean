import Rssip.Transaction.ClientCalls

namespace Rssip

open Lib

/-!
# Draining a client transaction

A user that asks for provisional responses until it is told that there is none, and then for
the final response, is given every response once and in order.

* `DrainStep` — the protocol, as a condition on the steps of a run;
* `Draining`, `Finishing` — where the responses are while the calls go on: what the calls have
  returned, followed by what is in the channel, is what has arrived;
* `AfterFinal.step` — a step once the final response has arrived;
* `run_drain` — what the calls return in a run that follows the protocol.
-/

/-- The messages that are delivered. -/
def delivered (es : List ClientEvent) : List IncomingMessage :=
  es.filterMap fun
    | .deliver msg => some msg
    | _ => none

/-- The time that passes. -/
def elapsed (es : List ClientEvent) : Nat :=
  (es.map fun
    | .elapse ms => ms
    | _ => 0).sum

/-- Only a delivery delivers a message. -/
theorem delivered_cons_of_ne {e : ClientEvent} (h : ∀ msg, e ≠ .deliver msg)
    (es : List ClientEvent) : delivered (e :: es) = delivered es := by
  cases e with
  | deliver msg => exact absurd rfl (h msg)
  | _ => rfl

/-- Time passes only with its own step. -/
theorem elapsed_of_ne {e : ClientEvent} (h : ∀ ms, e ≠ .elapse ms) : elapsed [e] = 0 := by
  cases e with
  | elapse ms => exact absurd rfl (h ms)
  | _ => rfl

/-- The time of a run is the time of its first step and that of the others. -/
theorem elapsed_cons (e : ClientEvent) (es : List ClientEvent) :
    elapsed (e :: es) = elapsed [e] + elapsed es := by
  simp [elapsed]

namespace ClientTransaction

/-- What `receive_provisional_response` returns for a provisional response. -/
def gave (p : IncomingResponse) : CallResult := .provisional (.ok (some p))

/-- What the calls return for the provisional responses `ps` and the final response `f`. -/
def drained (ps : List IncomingResponse) (f : IncomingResponse) : List CallResult :=
  ps.map gave ++ [.provisional (.ok none), .final (.ok f)]

/-- The last call has returned that there is no provisional response. -/
def ToldNone (c : ClientTransaction) : Prop :=
  c.results.getLast? = some (.provisional (.ok none))

instance (c : ClientTransaction) : Decidable c.ToldNone :=
  inferInstanceAs (Decidable (c.results.getLast? = some (.provisional (.ok none))))

/-- The condition on a step of a user that drains the transaction.  It asks for provisional
    responses until it is told that there is none, then for the final response, and does not
    give up the transaction. -/
def DrainStep (c : ClientTransaction) : ClientEvent → Prop
  | .receiveProvisionalResponse => c.activity = .idle → ¬ c.ToldNone
  | .receiveFinalResponse => c.activity = .idle → c.ToldNone
  | .cancel => ∀ wait, c.activity ≠ .final wait
  | .drop => c.activity ≠ .idle
  | .deliver _ | .close | .elapse _ | .poll | .subscribeState | .recvState _ => True

/-- The next call of such a user. -/
def drainCall (c : ClientTransaction) : ClientEvent :=
  if c.ToldNone then .receiveFinalResponse else .receiveProvisionalResponse

/-- The user makes its next call, unless it waits for one already, and that is polled. -/
def drainRound (c : ClientTransaction) : ClientTransaction := (c.step c.drainCall).step .poll

/-- The next call follows the protocol. -/
theorem drainStep_drainCall (c : ClientTransaction) : c.DrainStep c.drainCall := by
  unfold drainCall
  by_cases htold : c.ToldNone
  · rw [if_pos htold]
    exact fun _ => htold
  · rw [if_neg htold]
    exact fun _ => htold

/-! ### The provisional responses -/

/-- The provisional responses `ps` have arrived, and after them the messages `later`: what the
    calls have returned, followed by what is in the channel, is what has arrived. -/
structure Draining (ps : List IncomingResponse) (later : List IncomingMessage)
    (c : ClientTransaction) : Prop where
  states : c.StatesOk
  state_le : c.state ≤ .proceeding
  activity : c.activity = .idle ∨ ∃ seen wait, c.activity = .provisional seen wait
  split : ∃ done queued, ps = done ++ queued ∧ c.results = done.map gave ∧
    c.channel.messages = queued.map .response ++ later

/-- All of `ps` were returned, the user was told so, and the final response is the next
    message. -/
structure Finishing (ps : List IncomingResponse) (f : IncomingResponse)
    (c : ClientTransaction) : Prop where
  states : c.StatesOk
  state_le : c.state ≤ .proceeding
  activity : c.activity = .idle ∨ ∃ wait, c.activity = .final wait
  results : c.results = ps.map gave ++ [.provisional (.ok none)]
  next : c.channel.messages.head? = some (.response f)

/-- Where a transaction is in its draining once the final response has arrived. -/
inductive AfterFinal (ps : List IncomingResponse) (f : IncomingResponse)
    (c : ClientTransaction) : Prop
  | draining {rest : List IncomingMessage} (h : Draining ps (.response f :: rest) c)
  | finishing (h : Finishing ps f c)
  | finished (hsettled : c.Settled) (hresults : c.results = drained ps f)

/-- A call for a provisional response leaves the machine in `Proceeding` at most. -/
theorem proceed_state_le {seen : State} {m : StateMachine} (h : m.state ≤ .proceeding) :
    (proceed seen m).state ≤ .proceeding := by
  unfold proceed
  split
  · exact le_refl _
  · exact h

/-- A user that got a provisional response from each call was not told that there is none. -/
theorem not_toldNone_of_gave {c : ClientTransaction} {done : List IncomingResponse}
    (h : c.results = done.map gave) : ¬ c.ToldNone := by
  intro htold
  rw [ToldNone, h, List.getLast?_map] at htold
  cases hlast : done.getLast? with
  | none => rw [hlast] at htold; cases htold
  | some p => rw [hlast] at htold; simp [gave] at htold

/-- **A poll while provisional responses are asked for**: it keeps what has arrived in order,
    or tells the user that the next response is no provisional one. -/
theorem Draining.poll {ps : List IncomingResponse} {later : List IncomingMessage}
    {c : ClientTransaction} (h : Draining ps later c)
    (hps : ∀ p ∈ ps, p.code.isProvisional = true)
    (hlater : ∀ r, later.head? = some (.response r) → r.code.isProvisional = false)
    (hearly : later = [] → c.channel.closed = false ∧ c.now < c.timeout) :
    Draining ps later c.poll ∨
      (later ≠ [] ∧ c.poll.StatesOk ∧ c.poll.state ≤ .proceeding ∧ c.poll.activity = .idle ∧
        c.poll.results = ps.map gave ++ [.provisional (.ok none)] ∧
        c.poll.channel.messages = later) := by
  have hstates := h.states.poll
  obtain ⟨done, queued, rfl, hresults, hmsgs⟩ := h.split
  rcases h.activity with hidle | ⟨seen, wait, hactivity⟩
  · rw [poll_of_idle hidle]
    exact .inl h
  rcases poll_provisional_cases hactivity with
    ⟨r, rest, hnext, hprovisional, hrest, -, hnew, hmachine, hidle⟩ |
    ⟨hnot, hopen, hsame, -, hnew, hmachine, hidle⟩ |
    ⟨hempty, hopen, hsame, ⟨hlate, -⟩ | ⟨hnew, hmachine, wait', hwaits⟩⟩
  · -- the next message is returned
    have hle : c.poll.state ≤ .proceeding := by
      rw [state, hmachine]
      exact proceed_state_le h.state_le
    cases queued with
    | nil =>
      rw [List.map_nil, List.nil_append] at hmsgs
      rw [hlater r (by rw [← hmsgs, hnext]; rfl)] at hprovisional
      cases hprovisional
    | cons q queued =>
      rw [hnext, List.map_cons, List.cons_append, List.cons.injEq] at hmsgs
      obtain ⟨hq, htail⟩ := hmsgs
      cases hq
      refine .inl ⟨hstates, hle, .inl hidle, done ++ [r], queued, by simp, ?_, hrest.trans htail⟩
      rw [hnew, hresults, List.map_append]
      rfl
  · -- nothing is returned, so every provisional response was
    have hle : c.poll.state ≤ .proceeding := by
      rw [state, hmachine]
      exact proceed_state_le h.state_le
    cases queued with
    | cons q queued =>
      have hq : q.code.isProvisional = true := hps q (by simp)
      rw [hnot q (by rw [hmsgs]; rfl)] at hq
      cases hq
    | nil =>
      rw [List.map_nil, List.nil_append] at hmsgs
      refine .inr ⟨fun hnil => ?_, hstates, hle, hidle, ?_, hsame.trans hmsgs⟩
      · exact hopen (hearly hnil).1 (hmsgs.trans hnil)
      · rw [hnew, hresults, List.append_nil]
  · -- the deadline passes only if the final response has not arrived
    rw [hempty, eq_comm, List.append_eq_nil_iff] at hmsgs
    exact absurd (hearly hmsgs.2).2 (Nat.not_lt.mpr hlate)
  · -- the call goes on waiting
    refine .inl ⟨hstates, ?_, .inr ⟨seen, wait', hwaits⟩, done, queued, rfl,
      hnew.trans hresults, ?_⟩
    · rw [state, hmachine]
      exact h.state_le
    · rw [hsame]
      exact hmsgs

/-- After a call of `receive_provisional_response` the transaction waits for one. -/
theorem Draining.call {ps : List IncomingResponse} {later : List IncomingMessage}
    {c : ClientTransaction} (h : Draining ps later c) :
    Draining ps later (c.step .receiveProvisionalResponse) ∧
      (c.step .receiveProvisionalResponse).results = c.results ∧
      ∃ seen wait, (c.step .receiveProvisionalResponse).activity = .provisional seen wait := by
  have hstates := h.states.step .receiveProvisionalResponse
  rcases h.activity with hidle | ⟨seen, wait, hactivity⟩
  · obtain ⟨wait, hcall⟩ := call_provisional hidle h.state_le
    rw [hcall] at hstates ⊢
    exact ⟨⟨hstates, h.state_le, .inr ⟨_, wait, rfl⟩, h.split⟩, rfl, _, wait, rfl⟩
  · have hcall : c.step .receiveProvisionalResponse = c := by
      rw [step, if_neg (by simp [hactivity])]
    rw [hcall]
    exact ⟨h, rfl, seen, wait, hactivity⟩

/-- Neither the user nor the passing of time changes where the responses are. -/
theorem Draining.step_of_frame {ps : List IncomingResponse} {later : List IncomingMessage}
    {c : ClientTransaction} (h : Draining ps later c) {e : ClientEvent} (hstep : c.DrainStep e)
    (hpoll : e ≠ .poll) (hdeliver : ∀ msg, e ≠ .deliver msg) : Draining ps later (c.step e) := by
  have hstates := h.states.step e
  obtain ⟨done, queued, hsplit, hresults, hmsgs⟩ := h.split
  cases e with
  | poll => exact absurd rfl hpoll
  | deliver msg => exact absurd rfl (hdeliver msg)
  | close => exact ⟨hstates, h.state_le, h.activity, done, queued, hsplit, hresults, hmsgs⟩
  | elapse ms => exact ⟨hstates, h.state_le, h.activity, done, queued, hsplit, hresults, hmsgs⟩
  | recvState i => exact ⟨hstates, h.state_le, h.activity, done, queued, hsplit, hresults, hmsgs⟩
  | subscribeState =>
    by_cases hidle : c.activity = .idle
    · rw [step, if_pos hidle] at hstates ⊢
      exact ⟨hstates, h.state_le, h.activity, done, queued, hsplit, hresults, hmsgs⟩
    · rw [step, if_neg hidle]
      exact h
  | drop =>
    rw [step, if_neg hstep]
    exact h
  | cancel =>
    rcases h.activity with hidle | ⟨seen, wait, hactivity⟩
    · have hcancel : c.step .cancel = c := by rw [step, cancel, hidle]
      rw [hcancel]
      exact h
    · -- the call is given up, and nothing was taken for it
      have hcancel : c.step .cancel = c.become .idle := by rw [step, cancel, hactivity]
      rw [hcancel] at hstates ⊢
      exact ⟨hstates, h.state_le, .inl rfl, done, queued, hsplit, hresults, hmsgs⟩
  | receiveProvisionalResponse => exact h.call.1
  | receiveFinalResponse =>
    -- not before the user has been told that there are no more
    by_cases hidle : c.activity = .idle
    · exact absurd (hstep hidle) (not_toldNone_of_gave hresults)
    · rw [step, if_neg hidle]
      exact h

/-- A message enters the channel. -/
theorem step_deliver {c : ClientTransaction} (msg : IncomingMessage)
    (hopen : c.channel.closed = false) :
    c.step (.deliver msg) = { c with channel := c.channel.send msg } := by
  rw [step, hopen]
  rfl

/-- A message that comes while the transaction is drained is one more of those to come. -/
theorem Draining.deliver {ps : List IncomingResponse} {later : List IncomingMessage}
    {c : ClientTransaction} (h : Draining ps later c) (hopen : c.channel.closed = false)
    (msg : IncomingMessage) : Draining ps (later ++ [msg]) (c.step (.deliver msg)) := by
  obtain ⟨done, queued, hsplit, hresults, hmsgs⟩ := h.split
  have hstates := h.states.step (.deliver msg)
  rw [step_deliver msg hopen] at hstates ⊢
  refine ⟨hstates, h.state_le, h.activity, done, queued, hsplit, hresults, ?_⟩
  show (c.channel.send msg).messages = _
  rw [PeekableReceiver.messages_send, hmsgs, List.append_assoc]

/-- One more provisional response arrives. -/
theorem Draining.deliver_provisional {ps : List IncomingResponse} {c : ClientTransaction}
    (h : Draining ps [] c) (hopen : c.channel.closed = false) (p : IncomingResponse) :
    Draining (ps ++ [p]) [] (c.step (.deliver (.response p))) := by
  obtain ⟨hstates, hle, hactivity, done, queued, hsplit, hresults, hmsgs⟩ :=
    h.deliver hopen (.response p)
  refine ⟨hstates, hle, hactivity, done, queued ++ [p], ?_, hresults, ?_⟩
  · rw [hsplit, List.append_assoc]
  · rw [hmsgs, List.map_append, List.append_nil]
    rfl

/-! ### Before the final response -/

/-- While provisional responses are asked for, only time and the last sender's leaving change
    the deadline and the channel's being open. -/
theorem step_frame_of_provisional {c : ClientTransaction}
    (hactivity : c.activity = .idle ∨ ∃ seen wait, c.activity = .provisional seen wait)
    {e : ClientEvent} (hclose : e ≠ .close) :
    (c.step e).timeout = c.timeout ∧ (c.step e).now = c.now + elapsed [e] ∧
      (c.step e).channel.closed = c.channel.closed := by
  by_cases he : e = .poll
  · subst he
    show c.poll.timeout = c.timeout ∧ c.poll.now = c.now + 0 ∧
      c.poll.channel.closed = c.channel.closed
    rcases hactivity with hidle | ⟨seen, wait, hactivity⟩
    · rw [poll_of_idle hidle]
      exact ⟨rfl, rfl, rfl⟩
    simp only [poll, hactivity]
    rcases c.pollResponse_cases (fun r => r.code.isProvisional) wait with
      ⟨r, rest, channel, -, -, -, hclosed, hpoll⟩ | ⟨channel, -, -, -, hclosed, hpoll⟩ |
      ⟨-, -, ⟨wait', hpoll⟩ | ⟨-, hpoll⟩ | hpoll⟩
    · simp only [hpoll, finishProvisional]
      split <;> exact ⟨rfl, rfl, hclosed⟩
    · simp only [hpoll, finishProvisional]
      split <;> exact ⟨rfl, rfl, hclosed⟩
    all_goals
      simp only [hpoll]
      exact ⟨rfl, rfl, rfl⟩
  · have hframed := framed_step c he
    refine ⟨hframed.timeout, ?_, hframed.closed hclose⟩
    -- only the passing of time moves the clock
    by_cases helapse : ∃ ms, e = .elapse ms
    · obtain ⟨ms, rfl⟩ := helapse
      rfl
    · have hother : ∀ ms, e ≠ .elapse ms := fun ms h => helapse ⟨ms, h⟩
      rw [hframed.now hother, elapsed_of_ne hother]
      rfl

/-- **The run up to the final response.** -/
theorem Draining.run {ps ps' : List IncomingResponse} {c : ClientTransaction}
    (h : Draining ps [] c) (hopen : c.channel.closed = false) {es : List ClientEvent}
    (hdelivered : delivered es = ps'.map .response)
    (hps : ∀ p ∈ ps ++ ps', p.code.isProvisional = true) (hclose : .close ∉ es)
    (hearly : c.now + elapsed es < c.timeout) (hdrain : Meets ClientTransaction.step DrainStep c es) :
    Draining (ps ++ ps') [] (c.run es) ∧ (c.run es).channel.closed = false := by
  induction es generalizing ps ps' c with
  | nil =>
    rw [List.map_eq_nil_iff.mp hdelivered.symm, List.append_nil]
    exact ⟨h, hopen⟩
  | cons e es ih =>
    rw [List.mem_cons, not_or] at hclose
    obtain ⟨htimeout, hnow, hclosed⟩ := step_frame_of_provisional h.activity (Ne.symm hclose.1)
    have hearly' : (c.step e).now + elapsed es < (c.step e).timeout := by
      rw [elapsed_cons] at hearly
      omega
    have hopen' : (c.step e).channel.closed = false := hclosed.trans hopen
    by_cases hdeliver : ∃ msg, e = .deliver msg
    · obtain ⟨msg, rfl⟩ := hdeliver
      -- what arrives is the next provisional response
      cases ps' with
      | nil => cases hdelivered
      | cons p ps' =>
        obtain ⟨rfl, htail⟩ := List.cons.inj hdelivered
        have hnext := ih (h.deliver_provisional hopen p) hopen' htail
          (by rw [List.append_assoc]; exact hps) hclose.2 hearly' hdrain.2
        rw [List.append_assoc] at hnext
        exact hnext
    · have hother : ∀ msg, e ≠ .deliver msg := fun msg he => hdeliver ⟨msg, he⟩
      rw [delivered_cons_of_ne hother] at hdelivered
      refine ih ?_ hopen' hdelivered hps hclose.2 hearly' hdrain.2
      by_cases hpoll : e = .poll
      · subst hpoll
        have hnow : c.now < c.timeout := by omega
        rcases h.poll (fun p hp => hps p (List.mem_append_left _ hp)) (by simp)
          (fun _ => ⟨hopen, hnow⟩) with hpolled | ⟨hne, -⟩
        · exact hpolled
        · exact absurd rfl hne
      · exact h.step_of_frame hdrain.1 hpoll hother

/-! ### After the final response -/

/-- Nothing is returned any more once the transaction is out of the user's hands. -/
theorem results_step_of_settled {c : ClientTransaction} (h : c.Settled) (e : ClientEvent) :
    (c.step e).results = c.results := by
  have hidle : c.activity ≠ .idle := by
    intro hidle
    rw [Settled, hidle] at h
    exact h
  by_cases he : e = .poll
  · subst he
    show c.poll.results = c.results
    rw [Settled] at h
    cases hactivity : c.activity with
    | idle => exact absurd hactivity hidle
    | provisional seen wait => rw [hactivity] at h; exact h.elim
    | final wait => rw [hactivity] at h; exact h.elim
    | dropped => rw [poll_of_dropped hactivity]
    | completed timer ack =>
      rw [poll_of_completed hactivity, (pollCompleted_results timer ack c).1]
  · -- a call would need the transaction in the user's hands
    obtain ⟨new, htrace, hnew, -⟩ := (framed_step c he).trace
    rw [results, htrace, hnew hidle, List.append_nil]
    rfl

/-- In the last phase the user was told that there is no provisional response left. -/
theorem toldNone_of_finishing {ps : List IncomingResponse} {f : IncomingResponse}
    {c : ClientTransaction} (h : Finishing ps f c) : c.ToldNone := by
  rw [ToldNone, h.results, List.getLast?_append]
  rfl

/-- A poll of `receive_final_response` returns the final response. -/
theorem Finishing.poll {ps : List IncomingResponse} {f : IncomingResponse}
    {c : ClientTransaction} (h : Finishing ps f c) (hf : f.code.isFinal = true) {wait : Wait}
    (hactivity : c.activity = .final wait) :
    c.poll.Settled ∧ c.poll.results = drained ps f := by
  rcases poll_final_cases h.states hactivity with
    ⟨r, rest, hmsgs, -, hnew, hsettled, -⟩ | ⟨hnot, -⟩ | ⟨hempty, -⟩
  · have hr : r = f := by
      have hnext := h.next
      rw [hmsgs] at hnext
      cases hnext
      rfl
    refine ⟨hsettled, ?_⟩
    rw [hnew, h.results, hr, drained, List.append_assoc]
    rfl
  · rw [hnot f h.next] at hf
    cases hf
  · have hnext := h.next
    rw [hempty] at hnext
    cases hnext

/-- After a call of `receive_final_response` the transaction waits for it. -/
theorem Finishing.call {ps : List IncomingResponse} {f : IncomingResponse}
    {c : ClientTransaction} (h : Finishing ps f c) :
    Finishing ps f (c.step .receiveFinalResponse) ∧
      ∃ wait, (c.step .receiveFinalResponse).activity = .final wait := by
  have hstates := h.states.step .receiveFinalResponse
  rcases h.activity with hidle | ⟨wait, hactivity⟩
  · obtain ⟨wait, hcall⟩ := call_final hidle h.state_le
    rw [hcall] at hstates ⊢
    exact ⟨⟨hstates, h.state_le, .inr ⟨wait, rfl⟩, h.results, h.next⟩, wait, rfl⟩
  · have hcall : c.step .receiveFinalResponse = c := by
      rw [ClientTransaction.step, if_neg (by simp [hactivity])]
    rw [hcall]
    exact ⟨h, wait, hactivity⟩

/-- **A step while the final response is waited for.** -/
theorem Finishing.step {ps : List IncomingResponse} {f : IncomingResponse}
    {c : ClientTransaction} (h : Finishing ps f c) (hf : f.code.isFinal = true) {e : ClientEvent}
    (hstep : c.DrainStep e) :
    Finishing ps f (c.step e) ∨ ((c.step e).Settled ∧ (c.step e).results = drained ps f) := by
  have hstates := h.states.step e
  cases e with
  | close => exact .inl ⟨hstates, h.state_le, h.activity, h.results, h.next⟩
  | elapse ms => exact .inl ⟨hstates, h.state_le, h.activity, h.results, h.next⟩
  | recvState i => exact .inl ⟨hstates, h.state_le, h.activity, h.results, h.next⟩
  | deliver msg =>
    -- what comes behind the final response does not displace it
    by_cases hclosed : c.channel.closed = true
    · rw [ClientTransaction.step, if_pos hclosed]
      exact .inl h
    · rw [step_deliver msg (Bool.not_eq_true _ ▸ hclosed)] at hstates ⊢
      refine .inl ⟨hstates, h.state_le, h.activity, h.results, ?_⟩
      show (c.channel.send msg).messages.head? = _
      rw [PeekableReceiver.messages_send, List.head?_append, h.next]
      rfl
  | subscribeState =>
    by_cases hidle : c.activity = .idle
    · rw [ClientTransaction.step, if_pos hidle] at hstates ⊢
      exact .inl ⟨hstates, h.state_le, h.activity, h.results, h.next⟩
    · rw [ClientTransaction.step, if_neg hidle]
      exact .inl h
  | drop =>
    rw [ClientTransaction.step, if_neg hstep]
    exact .inl h
  | cancel =>
    rcases h.activity with hidle | ⟨wait, hactivity⟩
    · have hcancel : c.step .cancel = c := by rw [ClientTransaction.step, cancel, hidle]
      rw [hcancel]
      exact .inl h
    · exact absurd hactivity (hstep wait)
  | receiveProvisionalResponse =>
    -- the user was told that there is none, and does not ask again
    by_cases hidle : c.activity = .idle
    · exact absurd (toldNone_of_finishing h) (hstep hidle)
    · rw [ClientTransaction.step, if_neg hidle]
      exact .inl h
  | receiveFinalResponse => exact .inl h.call.1
  | poll =>
    show Finishing ps f c.poll ∨ (c.poll.Settled ∧ c.poll.results = drained ps f)
    rcases h.activity with hidle | ⟨wait, hactivity⟩
    · rw [poll_of_idle hidle]
      exact .inl h
    · exact .inr (h.poll hf hactivity)

/-- A response is not final and provisional at once. -/
theorem isProvisional_of_isFinal {r : IncomingResponse} (h : r.code.isFinal = true) :
    r.code.isProvisional = false := by
  rw [StatusCode.isFinal, Bool.not_eq_true'] at h
  exact h

/-- A poll while provisional responses are asked for, once the final response has arrived. -/
theorem AfterFinal.poll_draining {ps : List IncomingResponse} {f : IncomingResponse}
    {rest : List IncomingMessage} {c : ClientTransaction}
    (h : Draining ps (.response f :: rest) c) (hps : ∀ p ∈ ps, p.code.isProvisional = true)
    (hf : f.code.isFinal = true) : AfterFinal ps f c.poll := by
  have hlater : ∀ r, (IncomingMessage.response f :: rest).head? = some (.response r) →
      r.code.isProvisional = false := by
    intro r hr
    cases hr
    exact isProvisional_of_isFinal hf
  rcases h.poll hps hlater nofun with hpolled | ⟨-, hstates, hle, hidle, hresults, hmsgs⟩
  · exact .draining hpolled
  · exact .finishing ⟨hstates, hle, .inl hidle, hresults, by rw [hmsgs]; rfl⟩

/-- **A step once the final response has arrived.** -/
theorem AfterFinal.step {ps : List IncomingResponse} {f : IncomingResponse}
    {c : ClientTransaction} (h : AfterFinal ps f c)
    (hps : ∀ p ∈ ps, p.code.isProvisional = true) (hf : f.code.isFinal = true) {e : ClientEvent}
    (hstep : c.DrainStep e) : AfterFinal ps f (c.step e) := by
  cases h with
  | finished hsettled hresults =>
    exact .finished (settled_step hsettled e).1 ((results_step_of_settled hsettled e).trans hresults)
  | finishing h =>
    rcases h.step hf hstep with hfinishing | ⟨hsettled, hresults⟩
    · exact .finishing hfinishing
    · exact .finished hsettled hresults
  | draining h =>
    by_cases hdeliver : ∃ msg, e = .deliver msg
    · obtain ⟨msg, rfl⟩ := hdeliver
      by_cases hclosed : c.channel.closed = true
      · rw [ClientTransaction.step, if_pos hclosed]
        exact .draining h
      · exact .draining (h.deliver (Bool.not_eq_true _ ▸ hclosed) msg)
    · by_cases hpoll : e = .poll
      · subst hpoll
        exact poll_draining h hps hf
      · exact .draining (h.step_of_frame hstep hpoll fun msg he => hdeliver ⟨msg, he⟩)

/-- Once the final response has arrived a draining run stays within its phases, by induction on its
    steps. -/
theorem AfterFinal.run {ps : List IncomingResponse} {f : IncomingResponse}
    {c : ClientTransaction} (h : AfterFinal ps f c)
    (hps : ∀ p ∈ ps, p.code.isProvisional = true) (hf : f.code.isFinal = true)
    {es : List ClientEvent} (hdrain : Meets ClientTransaction.step DrainStep c es) :
    AfterFinal ps f (c.run es) := by
  induction es generalizing c with
  | nil => exact h
  | cons e es ih => exact ih (h.step hps hf hdrain.1) hdrain.2

/-- In every phase the results are a start of what the draining comes to. -/
theorem AfterFinal.prefix_drained {ps : List IncomingResponse} {f : IncomingResponse}
    {c : ClientTransaction} (h : AfterFinal ps f c) : c.results <+: drained ps f := by
  cases h with
  | draining h =>
    obtain ⟨done, queued, rfl, hresults, -⟩ := h.split
    rw [hresults, drained, List.map_append, List.append_assoc]
    exact List.prefix_append _ _
  | finishing h =>
    rw [h.results, drained]
    exact ⟨[.final (.ok f)], by simp⟩
  | finished hsettled hresults => exact ⟨[], (List.append_nil _).trans hresults⟩

/-- The draining comes to one result for each provisional response and two more. -/
theorem length_drained (ps : List IncomingResponse) (f : IncomingResponse) :
    (drained ps f).length = ps.length + 2 := by
  simp [drained]

/-- All of the results are there once the transaction is out of the user's hands. -/
theorem AfterFinal.results_of_settled {ps : List IncomingResponse} {f : IncomingResponse}
    {c : ClientTransaction} (h : AfterFinal ps f c) (hsettled : c.Settled) :
    c.results = drained ps f := by
  rw [Settled] at hsettled
  cases h with
  | finished _ hresults => exact hresults
  | draining h =>
    rcases h.activity with hidle | ⟨seen, wait, hactivity⟩
    · rw [hidle] at hsettled; exact hsettled.elim
    · rw [hactivity] at hsettled; exact hsettled.elim
  | finishing h =>
    rcases h.activity with hidle | ⟨wait, hactivity⟩
    · rw [hidle] at hsettled; exact hsettled.elim
    · rw [hactivity] at hsettled; exact hsettled.elim

/-! ### Progress -/

/-- A poll of `receive_provisional_response` returns if there is a message. -/
theorem length_results_poll {c : ClientTransaction} {seen : State} {wait : Wait}
    (hactivity : c.activity = .provisional seen wait) (hmsgs : c.channel.messages ≠ []) :
    c.poll.results.length = c.results.length + 1 := by
  rcases poll_provisional_cases hactivity with
    ⟨r, rest, -, -, -, -, hnew, -⟩ | ⟨-, -, -, -, hnew, -⟩ | ⟨hempty, -⟩
  · rw [hnew, List.length_append, List.length_singleton]
  · rw [hnew, List.length_append, List.length_singleton]
  · exact absurd hempty hmsgs

/-- **Every round returns one more result**, until all of them are there. -/
theorem AfterFinal.drainRound {ps : List IncomingResponse} {f : IncomingResponse}
    {c : ClientTransaction} (h : AfterFinal ps f c)
    (hps : ∀ p ∈ ps, p.code.isProvisional = true) (hf : f.code.isFinal = true) :
    AfterFinal ps f c.drainRound ∧
      (c.results.length + 1 ≤ c.drainRound.results.length ∨ c.drainRound.results = drained ps f) := by
  have hcall : AfterFinal ps f (c.step c.drainCall) := h.step hps hf (drainStep_drainCall c)
  refine ⟨hcall.step hps hf trivial, ?_⟩
  show c.results.length + 1 ≤ (c.step c.drainCall).poll.results.length ∨
    (c.step c.drainCall).poll.results = drained ps f
  cases h with
  | finished hsettled hresults =>
    refine .inr ?_
    have hsettled' := (settled_step hsettled c.drainCall).1
    exact (results_step_of_settled hsettled' .poll).trans
      ((results_step_of_settled hsettled c.drainCall).trans hresults)
  | finishing h =>
    -- the user asks for the final response, and gets it
    have hfinal : c.drainCall = .receiveFinalResponse := if_pos (toldNone_of_finishing h)
    obtain ⟨hfinishing, wait, hactivity⟩ := h.call
    rw [hfinal]
    exact .inr (hfinishing.poll hf hactivity).2
  | draining h =>
    have hprovisional : c.drainCall = .receiveProvisionalResponse := by
      obtain ⟨done, queued, -, hresults, -⟩ := h.split
      exact if_neg (not_toldNone_of_gave hresults)
    obtain ⟨hdraining, hsame, seen, wait, hactivity⟩ := h.call
    have hmsgs : (c.step .receiveProvisionalResponse).channel.messages ≠ [] := by
      obtain ⟨done, queued, -, -, hmsgs⟩ := hdraining.split
      simp [hmsgs]
    rw [hprovisional, length_results_poll hactivity hmsgs, hsame]
    exact .inl (le_refl _)

/-- As many rounds as there are results to come return all of them. -/
theorem AfterFinal.rounds {ps : List IncomingResponse} {f : IncomingResponse}
    (hps : ∀ p ∈ ps, p.code.isProvisional = true) (hf : f.code.isFinal = true) (n : Nat) :
    ∀ {c : ClientTransaction}, AfterFinal ps f c → ps.length + 2 ≤ c.results.length + n →
      (ClientTransaction.drainRound^[n] c).results = drained ps f := by
  induction n with
  | zero =>
    intro c h hlen
    refine h.prefix_drained.eq_of_length_le ?_
    rw [length_drained]
    exact hlen
  | succ n ih =>
    intro c h hlen
    obtain ⟨hnext, hmore | hall⟩ := h.drainRound hps hf
    · exact ih hnext (by omega)
    · exact ih hnext (by rw [hall, length_drained]; omega)

/-! ### Runs -/

/-- What the calls have returned stays. -/
theorem results_prefix_run {c : ClientTransaction} (h : c.StatesOk) (es : List ClientEvent) :
    c.results <+: (c.run es).results := by
  have hinv : ∀ c' e, StatesOk c' ∧ c.results <+: c'.results →
      StatesOk (step c' e) ∧ c.results <+: (step c' e).results := by
    rintro c' e ⟨hok, hpre⟩
    obtain ⟨new, hresults, -⟩ := step_results hok e
    rw [hresults]
    exact ⟨hok.step e, hpre.trans (List.prefix_append _ _)⟩
  exact (exec_invariant hinv ⟨h, List.prefix_refl _⟩ es).2

/-- A client transaction starts with nothing to be drained. -/
theorem draining_send {generated : String} {outgoing : OutgoingRequest} {now : Nat}
    {c : ClientTransaction} (h : send generated outgoing now = some c) :
    Draining [] [] c ∧ c.channel.closed = false := by
  obtain ⟨-, hmachine, hchannel, -, -, hidle, htrace⟩ := send_eq_some h
  refine ⟨⟨statesOk_send h, ?_, .inl hidle, [], [], rfl, ?_, ?_⟩, ?_⟩
  · rw [state, hmachine, StateMachine.state_new]
    split <;> decide
  · rw [results, htrace]
    rfl
  · rw [hchannel]
    rfl
  · rw [hchannel]
    rfl

/-- **Draining loses nothing.** Provisional responses, then a final one, arrive in this order
    before the deadline of the transaction, however the calls and the polls of its user are
    scheduled.  All along a run that follows the protocol the calls have returned these
    responses in order, each once, as far as they got; when the last call has returned, they
    have returned all of them; and enough further calls lead there. -/
theorem run_drain {generated : String} {outgoing : OutgoingRequest} {now : Nat}
    {c : ClientTransaction} (h : send generated outgoing now = some c)
    {ps : List IncomingResponse} (hps : ∀ p ∈ ps, p.code.isProvisional = true)
    {f : IncomingResponse} (hf : f.code.isFinal = true) {es₁ es₂ : List ClientEvent}
    (hdelivered : delivered es₁ = ps.map .response) (hclose : .close ∉ es₁)
    (hearly : c.now + elapsed es₁ < c.timeout)
    (hdrain : Meets step DrainStep c (es₁ ++ .deliver (.response f) :: es₂)) :
    Always step (fun c => c.results <+: drained ps f) c (es₁ ++ .deliver (.response f) :: es₂) ∧
      let c' := c.run (es₁ ++ .deliver (.response f) :: es₂)
      (c'.Settled → c'.results = drained ps f) ∧
        ∀ n, ps.length + 2 ≤ n → (drainRound^[n] c').results = drained ps f := by
  obtain ⟨hstart, hopen⟩ := draining_send h
  obtain ⟨hdrain₁, -, hdrain₂⟩ := meets_append.mp hdrain
  obtain ⟨hbefore, hopen₁⟩ := hstart.run hopen hdelivered hps hclose hearly hdrain₁
  have hafter : AfterFinal ps f (c.run (es₁ ++ .deliver (.response f) :: es₂)) := by
    have harrived : AfterFinal ps f ((c.run es₁).step (.deliver (.response f))) :=
      .draining (hbefore.deliver hopen₁ (.response f))
    rw [run, exec_append]
    exact harrived.run hps hf hdrain₂
  refine ⟨?_, hafter.results_of_settled, fun n hn => ?_⟩
  · -- what was returned earlier is the beginning of what is returned in the end
    rintro es' ⟨rest, hrest⟩
    have hok : (c.run es').StatesOk := (statesOk_send h).run es'
    refine (results_prefix_run hok rest).trans ?_
    have hwhole : (c.run es').run rest = c.run (es₁ ++ .deliver (.response f) :: es₂) := by
      rw [← hrest, run, run, run, exec_append]
    rw [hwhole]
    exact hafter.prefix_drained
  · exact AfterFinal.rounds hps hf n hafter (by omega)

/-- An `INVITE` is sent again once, a call is given up, and the responses come in a burst. -/
theorem run_drain_ringing :
    (drainRound^[3] ((new "z9hG4bK1" (.toLocalhost .invite false) 0).run
      ([.receiveProvisionalResponse, .elapse 600, .poll, .cancel,
          .deliver (.response (.ofCode .ringing))] ++
        .deliver (.response (.ofCode .ok)) ::
          [.receiveProvisionalResponse, .elapse 40000]))).results =
      drained [.ofCode .ringing] (.ofCode .ok) := by
  have hsend : send "z9hG4bK1" (.toLocalhost .invite false) 0 =
      some (new "z9hG4bK1" (.toLocalhost .invite false) 0) := rfl
  have hps : ∀ p ∈ [IncomingResponse.ofCode .ringing], p.code.isProvisional = true := by
    simp
    decide
  have hwaits : ((new "z9hG4bK1" (.toLocalhost .invite false) 0).run
      [.receiveProvisionalResponse, .elapse 600, .poll]).activity =
      .provisional .calling (.retransmitting 1000 1600) := by decide
  refine (run_drain hsend hps (by decide) rfl (by simp) (by decide) ?_).2.2 3 (by decide)
  refine ⟨fun _ => by decide, trivial, trivial, fun wait hfinal => ?_, trivial, trivial,
    fun _ => by decide, trivial, trivial⟩
  cases hwaits.symm.trans hfinal

end ClientTransaction

end Rssip
