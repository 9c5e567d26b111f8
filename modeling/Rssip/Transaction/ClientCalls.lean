import Rssip.Transaction.ClientResponses

namespace Rssip

open Lib

/-!
# What the calls of a client transaction return

* `results` — what the calls have returned so far, in order;
* `poll_provisional_cases`, `poll_final_cases` — what a poll of a waiting call adds to it;
* `run_panicked_iff` — when no call panics: `receive_final_response` is not called once the
  transaction has timed out;
* `run_proceeding_iff` — when `Proceeding` means that a provisional response was returned:
  `receive_provisional_response` finds nothing but provisional responses before the first one.
-/

namespace ClientTransaction

/-- What a call returns, if the output is its return. -/
def returnedResult : ClientOutput → Option CallResult
  | .returned res => some res
  | .sent _ | .received _ => none

/-- What the calls have returned, in order. -/
def results (c : ClientTransaction) : List CallResult := c.trace.filterMap returnedResult

section

variable (c : ClientTransaction)

/-- To set the state returns nothing. -/
@[simp] theorem results_setState (s : State) : (c.setState s).results = c.results := rfl

/-- To change who holds the transaction returns nothing. -/
@[simp] theorem results_become (activity : ClientActivity) :
    (c.become activity).results = c.results := rfl

/-- To record an output adds a result exactly if it is a return. -/
theorem results_record (out : ClientOutput) :
    (c.record out).results = c.results ++ (returnedResult out).toList := by
  unfold results record
  rw [List.filterMap_append]
  cases out <;> rfl

/-- To take a message out of the channel returns nothing. -/
@[simp] theorem results_received (msg : IncomingMessage) :
    (c.record (.received msg)).results = c.results :=
  (results_record c _).trans (List.append_nil _)

/-- To transmit a request returns nothing. -/
@[simp] theorem results_sendRequest (request : OutgoingRequest) :
    (c.sendRequest request).results = c.results :=
  (results_record c _).trans (List.append_nil _)

/-- A return adds its result. -/
@[simp] theorem results_ret (res : CallResult) : (c.ret res).results = c.results ++ [res] :=
  results_record c _

end

/-! ### A poll of a waiting call -/

/-- The state machine once `receive_provisional_response`, which saw the state `seen`, has
    returned without an error. -/
def proceed (seen : State) (m : StateMachine) : StateMachine :=
  if seen ≠ .proceeding then m.setState .proceeding else m

/-- A call for a provisional response that ends without an error returns what it got, and leaves the
    machine in `Proceeding`. -/
theorem finishProvisional_ok (seen : State) (res : Option IncomingResponse)
    (c : ClientTransaction) :
    (c.finishProvisional seen (.ok res)).results = c.results ++ [.provisional (.ok res)] ∧
      (c.finishProvisional seen (.ok res)).stateMachine = proceed seen c.stateMachine ∧
      (c.finishProvisional seen (.ok res)).activity = .idle ∧
      (c.finishProvisional seen (.ok res)).channel = c.channel := by
  by_cases hseen : seen ≠ .proceeding
  · simp only [finishProvisional, proceed, if_pos hseen]
    exact ⟨by simp, rfl, rfl, rfl⟩
  · simp only [finishProvisional, proceed, if_neg hseen]
    exact ⟨by simp, rfl, rfl, rfl⟩

/-- **What a poll of `receive_provisional_response` comes to**: it returns the next message if
    that is a provisional response, returns nothing if it is not or none can come, runs into the
    deadline, or goes on waiting. -/
theorem poll_provisional_cases {c : ClientTransaction} {seen : State} {wait : Wait}
    (hactivity : c.activity = .provisional seen wait) :
    (∃ r rest, c.channel.messages = .response r :: rest ∧ r.code.isProvisional = true ∧
        c.poll.channel.messages = rest ∧ c.poll.channel.closed = c.channel.closed ∧
        c.poll.results = c.results ++ [.provisional (.ok (some r))] ∧
        c.poll.stateMachine = proceed seen c.stateMachine ∧ c.poll.activity = .idle) ∨
      ((∀ r, c.channel.messages.head? = some (.response r) → r.code.isProvisional = false) ∧
        (c.channel.closed = false → c.channel.messages ≠ []) ∧
        c.poll.channel.messages = c.channel.messages ∧
        c.poll.channel.closed = c.channel.closed ∧
        c.poll.results = c.results ++ [.provisional (.ok none)] ∧
        c.poll.stateMachine = proceed seen c.stateMachine ∧ c.poll.activity = .idle) ∨
      (c.channel.messages = [] ∧ c.channel.closed = false ∧ c.poll.channel = c.channel ∧
        ((c.timeout ≤ c.now ∧
            c.poll.results = c.results ++ [.provisional (.error (.transaction .timeout))] ∧
            c.poll.stateMachine = c.stateMachine.setState .terminated ∧
            c.poll.activity = .idle) ∨
          (c.poll.results = c.results ∧ c.poll.stateMachine = c.stateMachine ∧
            ∃ wait', c.poll.activity = .provisional seen wait'))) := by
  simp only [poll, hactivity]
  rcases c.pollResponse_cases (fun r => r.code.isProvisional) wait with
    ⟨r, rest, channel, hmsgs, hprovisional, hrest, hclosed, hpoll⟩ |
    ⟨channel, hcond, hopen, hmsgs, hclosed, hpoll⟩ |
    ⟨hmsgs, hclosed, ⟨wait', hpoll⟩ | ⟨hlate, hpoll⟩ | hpoll⟩
  · -- a provisional response is taken off
    simp only [hpoll]
    obtain ⟨hresults, hmachine, hidle, hchannel⟩ := finishProvisional_ok seen (some r)
      ({ c with channel := channel }.record (.received (.response r)))
    refine .inl ⟨r, rest, hmsgs, hprovisional, ?_, ?_, ?_, hmachine, hidle⟩
    · rw [hchannel]
      exact hrest
    · rw [hchannel]
      exact hclosed
    · rw [hresults, results_received]
      rfl
  · -- the next message is put back, or there will be none
    simp only [hpoll]
    obtain ⟨hresults, hmachine, hidle, hchannel⟩ :=
      finishProvisional_ok seen none { c with channel := channel }
    refine .inr (.inl ⟨hcond, hopen, ?_, ?_, hresults, hmachine, hidle⟩)
    · rw [hchannel]
      exact hmsgs
    · rw [hchannel]
      exact hclosed
  · -- the request is sent again
    simp only [hpoll]
    exact .inr (.inr ⟨hmsgs, hclosed, rfl, .inr ⟨results_sendRequest _ _, rfl, wait', rfl⟩⟩)
  · -- the deadline has passed
    simp only [hpoll]
    exact .inr (.inr ⟨hmsgs, hclosed, rfl, .inl ⟨hlate, results_ret _ _, rfl, rfl⟩⟩)
  · -- no timer has fired
    simp only [hpoll]
    exact .inr (.inr ⟨hmsgs, hclosed, rfl, .inr ⟨rfl, rfl, wait, rfl⟩⟩)

/-- What `receive_final_response` returns for a final response. -/
theorem finishResponse_results {c : ClientTransaction} {r : IncomingResponse}
    (hle : c.state ≤ .proceeding) (hkind : c.isInvite = true → c.state ≠ .trying)
    (hfinal : r.code.isFinal = true) :
    (c.finishResponse r).results = c.results ++ [.final (.ok r)] ∧
      (c.finishResponse r).Settled ∧
      ∃ s, s ≠ .proceeding ∧ (c.finishResponse r).stateMachine = c.stateMachine.setState s := by
  rcases finishResponse_cases hle hkind hfinal with
    ⟨-, hfinish⟩ | ⟨-, -, ack, timer, -, hfinish⟩ | ⟨-, -, timer, hfinish⟩
  · rw [hfinish]
    exact ⟨by simp, trivial, .terminated, by decide, rfl⟩
  · rw [hfinish]
    exact ⟨by simp, trivial, .completed, by decide, rfl⟩
  · rw [hfinish]
    exact ⟨by simp, trivial, .completed, by decide, rfl⟩

/-- **What a poll of `receive_final_response` comes to**: it returns the next message if that is
    a final response, fails if it is not or none can come, runs into the deadline, or goes on
    waiting. -/
theorem poll_final_cases {c : ClientTransaction} (hok : c.StatesOk) {wait : Wait}
    (hactivity : c.activity = .final wait) :
    (∃ r rest, c.channel.messages = .response r :: rest ∧ r.code.isFinal = true ∧
        c.poll.results = c.results ++ [.final (.ok r)] ∧ c.poll.Settled ∧
        ∃ s, s ≠ .proceeding ∧ c.poll.stateMachine = c.stateMachine.setState s) ∨
      ((∀ r, c.channel.messages.head? = some (.response r) → r.code.isFinal = false) ∧
        (c.channel.closed = false → c.channel.messages ≠ []) ∧
        c.poll.results = c.results ++ [.final (.error .channelClosed)] ∧ c.poll.Settled ∧
        c.poll.stateMachine = c.stateMachine) ∨
      (c.channel.messages = [] ∧ c.channel.closed = false ∧ c.poll.channel = c.channel ∧
        ((c.timeout ≤ c.now ∧
            c.poll.results = c.results ++ [.final (.error (.transaction .timeout))] ∧
            c.poll.Settled ∧ c.poll.stateMachine = c.stateMachine.setState .terminated) ∨
          (c.poll.results = c.results ∧ c.poll.stateMachine = c.stateMachine ∧
            ∃ wait', c.poll.activity = .final wait'))) := by
  have hphase : c.state ≤ .proceeding := hok.admits hactivity
  -- a poll of the call is one of the channel, of the timers, and then the rest of the call
  simp only [poll, hactivity]
  rcases c.pollResponse_cases (fun r => r.code.isFinal) wait with
    ⟨r, rest, channel, hmsgs, hfinal, -, -, hpoll⟩ | ⟨channel, hcond, hopen, -, -, hpoll⟩ |
    ⟨hmsgs, hclosed, ⟨wait', hpoll⟩ | ⟨hlate, hpoll⟩ | hpoll⟩
  · simp only [hpoll, finishFinal]
    have hresults := finishResponse_results
      (c := ({ c with channel := channel }.record (.received (.response r)))) (r := r)
      hphase hok.kind hfinal
    rw [results_received] at hresults
    exact .inl ⟨r, rest, hmsgs, hfinal, hresults⟩
  -- nothing was received: the channel counts as closed
  · simp only [hpoll, finishFinal]
    exact .inr (.inl ⟨hcond, hopen, results_ret _ _, trivial, rfl⟩)
  · simp only [hpoll]
    exact .inr (.inr ⟨hmsgs, hclosed, rfl, .inr ⟨results_sendRequest _ _, rfl, wait', rfl⟩⟩)
  · simp only [hpoll, finishFinal]
    exact .inr (.inr ⟨hmsgs, hclosed, rfl, .inl ⟨hlate, results_ret _ _, trivial, rfl⟩⟩)
  · simp only [hpoll]
    exact .inr (.inr ⟨hmsgs, hclosed, rfl, .inr ⟨rfl, rfl, wait, rfl⟩⟩)

/-- A pass of the task that outlives the final response returns nothing. -/
theorem pollCompleted_results (timer : Nat) (ack : Option OutgoingRequest)
    (c : ClientTransaction) :
    (c.pollCompleted timer ack).results = c.results ∧
      ((c.pollCompleted timer ack).stateMachine = c.stateMachine ∨
        (c.pollCompleted timer ack).stateMachine = c.stateMachine.setState .terminated) := by
  rcases c.channel.pollRecv_cases with
    ⟨msg, rest, channel, -, hpoll, -, -⟩ | ⟨-, -, hpoll⟩ | ⟨-, -, hpoll⟩
  · simp only [pollCompleted, hpoll]
    split
    · exact ⟨by simp; rfl, .inl rfl⟩
    · exact ⟨by simp; rfl, .inl rfl⟩
    · exact ⟨by simp; rfl, .inr rfl⟩
  · simp only [pollCompleted, hpoll]
    exact ⟨rfl, .inr rfl⟩
  · simp only [pollCompleted, hpoll]
    split
    · exact ⟨rfl, .inr rfl⟩
    · exact ⟨rfl, .inl rfl⟩

/-! ### Calls that panic -/

/-- A poll ends no call but one that was admitted. -/
theorem poll_results {c : ClientTransaction} (h : c.StatesOk) :
    ∃ new, c.poll.results = c.results ++ new ∧ .panicked ∉ new := by
  -- at most one result is added, and it is that of the call that waits
  cases hactivity : c.activity with
  | idle =>
    rw [poll_of_idle hactivity]
    exact ⟨[], (List.append_nil _).symm, by simp⟩
  | dropped =>
    rw [poll_of_dropped hactivity]
    exact ⟨[], (List.append_nil _).symm, by simp⟩
  | completed timer ack =>
    rw [poll_of_completed hactivity, (pollCompleted_results timer ack c).1]
    exact ⟨[], (List.append_nil _).symm, by simp⟩
  | provisional seen wait =>
    rcases poll_provisional_cases hactivity with ⟨r, rest, -, -, -, -, hresults, -⟩ |
      ⟨-, -, -, -, hresults, -⟩ | ⟨-, -, -, ⟨-, hresults, -⟩ | ⟨hresults, -⟩⟩
    · exact ⟨_, hresults, by simp⟩
    · exact ⟨_, hresults, by simp⟩
    · exact ⟨_, hresults, by simp⟩
    · exact ⟨[], hresults.trans (List.append_nil _).symm, by simp⟩
  | final wait =>
    rcases poll_final_cases h hactivity with ⟨r, rest, -, -, hresults, -⟩ |
      ⟨-, -, hresults, -⟩ | ⟨-, -, -, ⟨-, hresults, -⟩ | ⟨hresults, -⟩⟩
    · exact ⟨_, hresults, by simp⟩
    · exact ⟨_, hresults, by simp⟩
    · exact ⟨_, hresults, by simp⟩
    · exact ⟨[], hresults.trans (List.append_nil _).symm, by simp⟩

/-- **What a step adds to the results**, and when a panic is among it: when the final response
    is asked for after the transaction has timed out. -/
theorem step_results {c : ClientTransaction} (h : c.StatesOk) (e : ClientEvent) :
    ∃ new, (c.step e).results = c.results ++ new ∧
      (.panicked ∈ new ↔
        e = .receiveFinalResponse ∧ c.activity = .idle ∧ c.state = .terminated) := by
  have hnone : ∀ {new : List CallResult}, (.panicked ∉ new) → e ≠ .receiveFinalResponse →
      (.panicked ∈ new ↔
        e = .receiveFinalResponse ∧ c.activity = .idle ∧ c.state = .terminated) :=
    fun hnew hne => iff_of_false hnew fun hcall => hne hcall.1
  cases e with
  | close => exact ⟨[], (List.append_nil _).symm, hnone (by simp) (by simp)⟩
  | elapse ms => exact ⟨[], (List.append_nil _).symm, hnone (by simp) (by simp)⟩
  | recvState i => exact ⟨[], (List.append_nil _).symm, hnone (by simp) (by simp)⟩
  | deliver msg =>
    refine ⟨[], ?_, hnone (by simp) (by simp)⟩
    simp only [step]
    split <;> exact (List.append_nil _).symm
  | drop =>
    refine ⟨[], ?_, hnone (by simp) (by simp)⟩
    simp only [step]
    split <;> exact (List.append_nil _).symm
  | subscribeState =>
    refine ⟨[], ?_, hnone (by simp) (by simp)⟩
    simp only [step]
    split <;> exact (List.append_nil _).symm
  | cancel =>
    refine ⟨[], ?_, hnone (by simp) (by simp)⟩
    simp only [step, cancel]
    split <;> exact (List.append_nil _).symm
  | receiveProvisionalResponse =>
    by_cases hidle : c.activity = .idle
    · by_cases hle : c.state ≤ .proceeding
      · obtain ⟨wait, hcall⟩ := call_provisional hidle hle
        rw [hcall]
        exact ⟨[], (List.append_nil _).symm, hnone (by simp) (by simp)⟩
      · -- after the final response there is nothing to wait for
        refine ⟨[.provisional (.ok none)], ?_, hnone (by simp) (by simp)⟩
        rw [step, if_pos hidle]
        simp only [receiveProvisionalResponse, if_neg hle]
        exact results_ret _ _
    · rw [step, if_neg hidle]
      exact ⟨[], (List.append_nil _).symm, hnone (by simp) (by simp)⟩
  | receiveFinalResponse =>
    by_cases hidle : c.activity = .idle
    · -- idle, the transaction is in its first two states or has timed out
      have hphase : c.state ≤ .proceeding ∨ c.state = .terminated := h.admits hidle
      rcases hphase with hle | hterminated
      · obtain ⟨wait, hcall⟩ := call_final hidle hle
        rw [hcall]
        refine ⟨[], (List.append_nil _).symm, iff_of_false (by simp) ?_⟩
        rintro ⟨-, -, hterminated⟩
        rw [hterminated] at hle
        exact absurd hle (by decide)
      · -- the `unreachable!()` arm
        refine ⟨[.panicked], ?_, iff_of_true (by simp) ⟨rfl, hidle, hterminated⟩⟩
        rw [step, if_pos hidle]
        simp only [receiveFinalResponse, startWait, hterminated]
        exact results_ret _ _
    · rw [step, if_neg hidle]
      exact ⟨[], (List.append_nil _).symm, iff_of_false (by simp) fun hcall => hidle hcall.2.1⟩
  | poll =>
    obtain ⟨new, hresults, hnew⟩ := poll_results h
    exact ⟨new, hresults, hnone hnew (by simp)⟩

/-- The condition on a step: the final response is not asked for once the transaction has timed
    out. -/
def FinalStep (c : ClientTransaction) : ClientEvent → Prop
  | .receiveFinalResponse => c.activity = .idle → c.state ≠ .terminated
  | _ => True

/-- The condition asks for nothing but that the final response is not waited for in the last state.
    -/
theorem finalStep_iff (c : ClientTransaction) (e : ClientEvent) :
    c.FinalStep e ↔
      ¬ (e = .receiveFinalResponse ∧ c.activity = .idle ∧ c.state = .terminated) := by
  cases e <;> simp [FinalStep]

/-- **When no call panics.** All along a run no call reaches the `unreachable!()` of
    `receive_response_if` exactly when `receive_final_response` is never called after the
    transaction has timed out. -/
theorem run_panicked_iff {generated : String} {outgoing : OutgoingRequest} {now : Nat}
    {c : ClientTransaction} (h : send generated outgoing now = some c) (es : List ClientEvent) :
    Always step (fun c => .panicked ∉ c.results) c es ↔ Meets step FinalStep c es := by
  have hnew : CallResult.panicked ∉ c.results := by
    obtain ⟨-, -, -, -, -, -, htrace⟩ := send_eq_some h
    rw [results, htrace]
    exact List.not_mem_nil
  have hinv : ∀ c e, StatesOk c → StatesOk (c.step e) := fun c e hok => hok.step e
  refine always_iff_meets hinv ?_ (statesOk_send h) hnew es
  intro c e hok hpanicked
  obtain ⟨new, hresults, hiff⟩ := step_results hok e
  rw [hresults, List.mem_append, not_or, finalStep_iff, hiff]
  exact and_iff_right hpanicked

/-- An `INVITE` that rings and is answered. -/
theorem run_panicked_answered :
    Always step (fun c => .panicked ∉ c.results) (new "z9hG4bK1" (.toLocalhost .invite false) 0)
      [.receiveProvisionalResponse, .deliver (.response (.ofCode .ringing)), .poll,
        .deliver (.response (.ofCode .ok)), .receiveFinalResponse, .poll] := by
  have hsend : send "z9hG4bK1" (.toLocalhost .invite false) 0 =
      some (new "z9hG4bK1" (.toLocalhost .invite false) 0) := rfl
  exact (run_panicked_iff hsend _).mpr
    ⟨trivial, trivial, trivial, trivial, fun _ => by decide, trivial, trivial⟩

/-- After its deadline an `INVITE` that nobody answers can not be asked for the final
    response. -/
theorem not_forall_run_panicked :
    ¬ ∀ (generated : String) (outgoing : OutgoingRequest) (now : Nat) (c : ClientTransaction),
      send generated outgoing now = some c → ∀ es,
        Always step (fun c => .panicked ∉ c.results) c es := by
  intro hall
  have h := hall "z9hG4bK1" (.toLocalhost .invite true) 0 _ rfl
    [.receiveProvisionalResponse, .elapse 32000, .poll, .receiveFinalResponse]
  exact h _ (List.prefix_refl _) (by decide)

/-! ### What `Proceeding` means -/

/-- A call has returned a provisional response. -/
def HasProvisional (c : ClientTransaction) : Prop :=
  ∃ r, r.code.isProvisional = true ∧ .provisional (.ok (some r)) ∈ c.results

/-- The condition on a step: until a provisional response was returned, a call that waits for
    one finds a provisional response, or has to go on waiting. -/
def ProceedingStep (c : ClientTransaction) : ClientEvent → Prop
  | .poll =>
    match c.activity with
    | .provisional seen _ => seen ≠ .proceeding →
        (c.channel.messages = [] ∧ c.channel.closed = false) ∨
          ∃ r, c.channel.messages.head? = some (.response r) ∧ r.code.isProvisional = true
    | .idle | .final _ | .completed _ _ | .dropped => True
  | _ => True

/-- The states a transaction has been in are no later than its state. -/
theorem StatesOk.le_of_mem {c : ClientTransaction} (h : c.StatesOk) {s : State}
    (hs : s ∈ c.stateMachine.history) : s ≤ c.state := by
  have hpairwise : c.stateMachine.history.Pairwise (· < ·) :=
    List.isChain_iff_pairwise.mp (h.edges.imp fun _ _ => ClientEdge.lt)
  obtain ⟨before, hhistory⟩ := List.getLast?_eq_some_iff.mp h.machine.last
  rw [hhistory] at hs hpairwise
  rcases List.mem_append.mp hs with hbefore | hlast
  · obtain ⟨-, -, hlt⟩ := List.pairwise_append.mp hpairwise
    exact le_of_lt (hlt s hbefore _ List.mem_cons_self)
  · exact le_of_eq (List.mem_singleton.mp hlast)

/-- A call that saw an earlier state has not been in `Proceeding`. -/
theorem StatesOk.proceeding_not_mem {c : ClientTransaction} (h : c.StatesOk) {seen : State}
    {wait : Wait} (hactivity : c.activity = .provisional seen wait) (hseen : seen ≠ .proceeding) :
    .proceeding ∉ c.stateMachine.history := by
  intro hmem
  have hphase : (ClientActivity.provisional seen wait).Admits c.state := h.admits hactivity
  obtain ⟨rfl, hle⟩ := hphase
  have hge : State.proceeding ≤ c.state := h.le_of_mem hmem
  cases hstate : c.state with
  | proceeding => exact hseen hstate
  | calling | trying => rw [hstate] at hge; exact absurd hge (by decide)
  | completed | confirmed | terminated => rw [hstate] at hle; exact absurd hle (by decide)

/-- What a call of `receive_provisional_response` that waits depends on. -/
structure ProceedingOk (c : ClientTransaction) : Prop where
  states : c.StatesOk
  mem : c.HasProvisional → .proceeding ∈ c.stateMachine.history

/-- Results without a provisional response do not change whether one was returned. -/
theorem hasProvisional_append {c c' : ClientTransaction} {new : List CallResult}
    (hresults : c'.results = c.results ++ new)
    (hnew : ∀ r, CallResult.provisional (.ok (some r)) ∉ new) :
    c'.HasProvisional ↔ c.HasProvisional := by
  simp only [HasProvisional, hresults, List.mem_append, hnew, or_false]

/-- Another state does not change whether the transaction was `Proceeding`. -/
theorem mem_history_setState {m m' : StateMachine} {s : State}
    (h : m' = m.setState s) (hs : s ≠ .proceeding) :
    State.proceeding ∈ m'.history ↔ State.proceeding ∈ m.history := by
  rw [h, StateMachine.history_setState, List.mem_append, List.mem_singleton]
  exact or_iff_left hs.symm

/-- A step that is no poll returns no provisional response and does not lead to `Proceeding`. -/
theorem step_frame_of_ne_poll (c : ClientTransaction) {e : ClientEvent} (he : e ≠ .poll) :
    (c.step e).stateMachine.history = c.stateMachine.history ∧
      ((c.step e).HasProvisional ↔ c.HasProvisional) := by
  have hframed := framed_step c he
  obtain ⟨new, htrace, -, hnew⟩ := hframed.trace
  have hresults : (c.step e).results = c.results ++ new.filterMap returnedResult := by
    rw [results, htrace, List.filterMap_append]
    rfl
  refine ⟨hframed.history, hasProvisional_append hresults ?_⟩
  · -- a call that returns at once returns no response
    intro r hr
    obtain ⟨out, hout, hres⟩ := List.mem_filterMap.mp hr
    rcases hnew out hout with rfl | rfl <;> cases hres

/-- A poll of anything but `receive_provisional_response` does neither. -/
theorem poll_frame {c : ClientTransaction} (h : c.StatesOk)
    (hactivity : ∀ seen wait, c.activity ≠ .provisional seen wait) :
    (State.proceeding ∈ c.poll.stateMachine.history ↔
        State.proceeding ∈ c.stateMachine.history) ∧
      (c.poll.HasProvisional ↔ c.HasProvisional) := by
  cases hnow : c.activity with
  | provisional seen wait => exact absurd hnow (hactivity seen wait)
  | idle =>
    rw [poll_of_idle hnow]
    exact ⟨Iff.rfl, Iff.rfl⟩
  | dropped =>
    rw [poll_of_dropped hnow]
    exact ⟨Iff.rfl, Iff.rfl⟩
  | completed timer ack =>
    obtain ⟨hresults, hmachine⟩ := pollCompleted_results timer ack c
    rw [poll_of_completed hnow]
    refine ⟨?_, hasProvisional_append (hresults.trans (List.append_nil _).symm) (by simp)⟩
    rcases hmachine with hmachine | hmachine
    · rw [hmachine]
    · exact mem_history_setState hmachine (by decide)
  -- a final response enters a state, but not `Proceeding`
  | final wait =>
    rcases poll_final_cases h hnow with ⟨r, rest, -, -, hresults, -, s, hs, hmachine⟩ |
      ⟨-, -, hresults, -, hmachine⟩ |
      ⟨-, -, -, ⟨-, hresults, -, hmachine⟩ | ⟨hresults, hmachine, -⟩⟩
    · exact ⟨mem_history_setState hmachine hs, hasProvisional_append hresults (by simp)⟩
    · exact ⟨by rw [hmachine], hasProvisional_append hresults (by simp)⟩
    · exact ⟨mem_history_setState hmachine (by decide),
        hasProvisional_append hresults (by simp)⟩
    · exact ⟨by rw [hmachine],
        hasProvisional_append (hresults.trans (List.append_nil _).symm) (by simp)⟩

/-- After a call that has returned, `Proceeding` is in the history exactly if the call has set it,
    or it was there before. -/
theorem mem_history_proceed {m m' : StateMachine} {seen : State} (h : m' = proceed seen m) :
    State.proceeding ∈ m'.history ↔ seen ≠ .proceeding ∨ State.proceeding ∈ m.history := by
  rw [h, proceed]
  by_cases hseen : seen ≠ .proceeding
  · rw [if_pos hseen, StateMachine.history_setState]
    exact iff_of_true (List.mem_append_right _ List.mem_cons_self) (.inl hseen)
  · rw [if_neg hseen]
    exact (or_iff_right hseen).symm

/-- `Proceeding` is one of the states that the transaction has been in only if a provisional
    response was returned. -/
def ProceedingMeans (c : ClientTransaction) : Prop :=
  State.proceeding ∈ c.stateMachine.history → c.HasProvisional

/-- **What a poll of `receive_provisional_response` does to the meaning of `Proceeding`**: it
    keeps it exactly when it meets `ProceedingStep`. -/
theorem ProceedingOk.poll_provisional {c : ClientTransaction} (h : c.ProceedingOk)
    {seen : State} {wait : Wait} (hactivity : c.activity = .provisional seen wait) :
    (c.poll.HasProvisional → State.proceeding ∈ c.poll.stateMachine.history) ∧
      (c.ProceedingMeans → (c.poll.ProceedingMeans ↔ c.ProceedingStep .poll)) := by
  have hcond : c.ProceedingStep .poll ↔ (seen ≠ .proceeding →
      (c.channel.messages = [] ∧ c.channel.closed = false) ∨
        ∃ r, c.channel.messages.head? = some (.response r) ∧ r.code.isProvisional = true) := by
    simp only [ProceedingStep, hactivity]
  have hseen : seen = .proceeding → State.proceeding ∈ c.stateMachine.history := by
    have hphase : (ClientActivity.provisional seen wait).Admits c.state := h.states.admits hactivity
    obtain ⟨rfl, -⟩ := hphase
    intro hproceeding
    rw [← hproceeding]
    exact List.mem_of_getLast? h.states.machine.last
  rw [hcond]
  rcases poll_provisional_cases hactivity with
    ⟨r, rest, hmsgs, hprovisional, -, -, hresults, hmachine, -⟩ |
    ⟨hnot, hopen, -, -, hresults, hmachine, -⟩ |
    ⟨hmsgs, hopen, -, ⟨-, hresults, hmachine, -⟩ | ⟨hresults, hmachine, -⟩⟩
  · -- a provisional response is returned
    have hhas : c.poll.HasProvisional :=
      ⟨r, hprovisional, by rw [hresults]; exact List.mem_append_right _ List.mem_cons_self⟩
    refine ⟨fun _ => ?_, fun _ => iff_of_true (fun _ => hhas) fun _ => .inr ⟨r, ?_, hprovisional⟩⟩
    · rw [mem_history_proceed hmachine]
      by_cases hproceeding : seen = .proceeding
      · exact .inr (hseen hproceeding)
      · exact .inl hproceeding
    · rw [hmsgs]
      rfl
  · -- nothing is returned, and the state is `Proceeding` all the same
    have hsame : c.poll.HasProvisional ↔ c.HasProvisional :=
      hasProvisional_append hresults (by simp)
    refine ⟨fun hhas => ?_, fun hmeans => ?_⟩
    · rw [mem_history_proceed hmachine]
      exact .inr (h.mem (hsame.mp hhas))
    · rw [ProceedingMeans, mem_history_proceed hmachine, hsame]
      by_cases hproceeding : seen = .proceeding
      · exact iff_of_true (fun _ => hmeans (hseen hproceeding)) (absurd hproceeding)
      · refine iff_of_false (fun hall => ?_) fun hall => ?_
        · exact h.states.proceeding_not_mem hactivity hproceeding
            (h.mem (hall (.inl hproceeding)))
        · rcases hall hproceeding with ⟨hempty, hnotClosed⟩ | ⟨r, hhead, hprovisional⟩
          · exact hopen hnotClosed hempty
          · rw [hnot r hhead] at hprovisional
            cases hprovisional
  · -- a timeout leads to `Terminated`
    have hsame : c.poll.HasProvisional ↔ c.HasProvisional :=
      hasProvisional_append hresults (by simp)
    have hmem := mem_history_setState hmachine (by decide)
    refine ⟨fun hhas => hmem.mpr (h.mem (hsame.mp hhas)), fun hmeans => ?_⟩
    exact iff_of_true (fun hp => hsame.mpr (hmeans (hmem.mp hp))) fun _ => .inl ⟨hmsgs, hopen⟩
  · -- the call goes on waiting
    have hsame : c.poll.HasProvisional ↔ c.HasProvisional :=
      hasProvisional_append (hresults.trans (List.append_nil _).symm) (by simp)
    rw [hmachine]
    refine ⟨fun hhas => h.mem (hsame.mp hhas), fun hmeans => ?_⟩
    refine iff_of_true (fun hp => ?_) fun _ => .inl ⟨hmsgs, hopen⟩
    rw [hmachine] at hp
    exact hsame.mpr (hmeans hp)

/-- **What a step does to the meaning of `Proceeding`.** -/
theorem ProceedingOk.step {c : ClientTransaction} (h : c.ProceedingOk) (e : ClientEvent) :
    (c.step e).ProceedingOk ∧
      (c.ProceedingMeans → ((c.step e).ProceedingMeans ↔ c.ProceedingStep e)) := by
  have hstates := h.states.step e
  -- only a poll in the proceeding state can add to the history
  by_cases he : e = .poll
  · subst he
    show c.poll.ProceedingOk ∧ (_ → (c.poll.ProceedingMeans ↔ _))
    by_cases hwaits : ∃ seen wait, c.activity = .provisional seen wait
    · obtain ⟨seen, wait, hactivity⟩ := hwaits
      obtain ⟨hmem, hiff⟩ := h.poll_provisional hactivity
      exact ⟨⟨hstates, hmem⟩, hiff⟩
    · have hother : ∀ seen wait, c.activity ≠ .provisional seen wait :=
        fun seen wait hactivity => hwaits ⟨seen, wait, hactivity⟩
      obtain ⟨hhistory, hhas⟩ := poll_frame h.states hother
      refine ⟨⟨hstates, fun hp => hhistory.mpr (h.mem (hhas.mp hp))⟩, fun hmeans => ?_⟩
      refine iff_of_true (fun hp => hhas.mpr (hmeans (hhistory.mp hp))) ?_
      unfold ProceedingStep
      cases hactivity : c.activity with
      | provisional seen wait => exact absurd hactivity (hother seen wait)
      | idle | final _ | completed _ _ | dropped => trivial
  · obtain ⟨hhistory, hhas⟩ := step_frame_of_ne_poll c he
    refine ⟨⟨hstates, fun hp => ?_⟩, fun hmeans => ?_⟩
    · rw [hhistory]
      exact h.mem (hhas.mp hp)
    · refine iff_of_true (fun hp => ?_) (by cases e <;> trivial)
      rw [hhistory] at hp
      exact hhas.mpr (hmeans hp)

/-- **When `Proceeding` means that a provisional response was received.** All along a run the
    state is, or has been, `Proceeding` only if a call has returned a provisional response,
    exactly when every step meets `ProceedingStep`. -/
theorem run_proceeding_iff {generated : String} {outgoing : OutgoingRequest} {now : Nat}
    {c : ClientTransaction} (h : send generated outgoing now = some c) (es : List ClientEvent) :
    Always step ProceedingMeans c es ↔ Meets step ProceedingStep c es := by
  obtain ⟨-, hmachine, -, -, -, -, htrace⟩ := send_eq_some h
  have hnone : ¬ c.HasProvisional := by
    rintro ⟨r, -, hmem⟩
    rw [results, htrace] at hmem
    exact absurd hmem List.not_mem_nil
  have hnew : c.ProceedingMeans := by
    intro hp
    rw [hmachine, StateMachine.history_new, List.mem_singleton] at hp
    split at hp <;> cases hp
  have hinv : ∀ c e, ProceedingOk c → ProceedingOk (c.step e) := fun c e hok => (hok.step e).1
  refine always_iff_meets hinv (fun c e hok => (hok.step e).2)
    ⟨statesOk_send h, fun hhas => absurd hhas hnone⟩ hnew es

/-- An `INVITE` that rings, and is then answered. -/
theorem run_proceeding_ringing :
    Always step ProceedingMeans (new "z9hG4bK1" (.toLocalhost .invite false) 0)
      [.receiveProvisionalResponse, .poll, .deliver (.response (.ofCode .ringing)), .poll,
        .deliver (.response (.ofCode .ok)), .receiveProvisionalResponse, .poll] := by
  have hsend : send "z9hG4bK1" (.toLocalhost .invite false) 0 =
      some (new "z9hG4bK1" (.toLocalhost .invite false) 0) := rfl
  refine (run_proceeding_iff hsend _).mpr ⟨trivial, ?_, trivial, ?_, trivial, trivial, ?_, trivial⟩
  · exact fun _ => .inl ⟨rfl, rfl⟩
  · exact fun _ => .inr ⟨_, rfl, rfl⟩
  · exact fun hseen => absurd rfl hseen

/-- The queued final response alone leads to `Proceeding`: the call returns `Ok(None)` and sets the
    state. -/
theorem not_forall_run_proceeding :
    ¬ ∀ (generated : String) (outgoing : OutgoingRequest) (now : Nat) (c : ClientTransaction),
      send generated outgoing now = some c → ∀ es, Always step ProceedingMeans c es := by
  intro hall
  have h := hall "z9hG4bK1" (.toLocalhost .invite false) 0 _ rfl
    [.deliver (.response (.ofCode .ok)), .receiveProvisionalResponse, .poll]
  obtain ⟨r, -, hmem⟩ := h _ (List.prefix_refl _) (by decide)
  have hresults : ((new "z9hG4bK1" (.toLocalhost .invite false) 0).run
      [.deliver (.response (.ofCode .ok)), .receiveProvisionalResponse, .poll]).results =
      [.provisional (.ok none)] := by decide
  rw [show exec step _ _ = (new "z9hG4bK1" (.toLocalhost .invite false) 0).run _ from rfl,
    hresults] at hmem
  simp at hmem

end ClientTransaction

end Rssip
