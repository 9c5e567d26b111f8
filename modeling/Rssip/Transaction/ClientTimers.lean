import Rssip.Lib.Timed
import Rssip.Transaction.ClientStates

namespace Rssip

open Lib

/-!
# Retransmissions of a request

Over an unreliable transport a call that waits for the first response sends the request again,
after an interval that doubles each time.  For other requests than `INVITE` the gaps ought to be
at most `T2`; the interval of the call is not capped.

* `dueAt`, `sentAt` — when the transmissions ought to come, and when they do;
* `RetransPoll` — everything a poll of such a call can do;
* `RetransClient` — a transaction with the times of its transmissions;
* `RetransClient.Capped` — the transmissions come when they ought to;
* `run_capped_iff` — they do as long as the call does not wait for the sixth one.
-/

/-- When the transmission after `k` others is due, with gaps of at most `T2`. -/
def dueAt (k : Nat) : Nat := ((List.range k).map retransGap).sum

/-- When it comes, with gaps that double. -/
def sentAt (k : Nat) : Nat := (2 ^ k - 1) * T1

theorem sentAt_succ (k : Nat) : sentAt (k + 1) = sentAt k + 2 ^ k * T1 := by
  have hpos : 0 < 2 ^ k := Nat.two_pow_pos k
  unfold sentAt
  rw [Nat.pow_succ, ← Nat.add_mul]
  congr 1
  omega

theorem sentAt_le {j k : Nat} (h : j ≤ k) : sentAt j ≤ sentAt k := by
  have hpow : 2 ^ j ≤ 2 ^ k := Nat.pow_le_pow_right (by decide) h
  exact Nat.mul_le_mul_right T1 (Nat.sub_le_sub_right hpow 1)

/-- Up to the fifth they are the same. -/
theorem dueAt_eq_sentAt {k : Nat} (h : k ≤ 4) : dueAt k = sentAt k := by
  have hk : k = 0 ∨ k = 1 ∨ k = 2 ∨ k = 3 ∨ k = 4 := by omega
  rcases hk with rfl | rfl | rfl | rfl | rfl
  all_goals decide

/-- How the call that holds the transaction waits. -/
def ClientActivity.waiting : ClientActivity → Option Wait
  | .provisional _ wait | .final wait => some wait
  | .idle | .completed _ _ | .dropped => none

/-- A transmission. -/
def ClientOutput.isSent : ClientOutput → Bool
  | .sent _ => true
  | .received _ | .returned _ => false

/-- A call returns with a timeout. -/
def ClientOutput.isTimeout : ClientOutput → Bool
  | .returned (.provisional (.error (.transaction .timeout)))
  | .returned (.final (.error (.transaction .timeout))) => true
  | _ => false

theorem ClientOutput.isSent_of_isTimeout {out : ClientOutput} (h : out.isTimeout = true) :
    out.isSent = false := by
  cases out with
  | sent request => cases h
  | received msg | returned res => rfl

namespace ClientTransaction

variable {c : ClientTransaction}

/-! ### One poll -/

/-- What a poll of a call that waits in the loop of retransmissions does: how the call waits then,
    and what is put out. -/
inductive RetransPoll (interval expires : Nat) (c : ClientTransaction) :
    Option Wait → List ClientOutput → Prop
  | ended {outs} (hchannel : c.channel.messages ≠ [] ∨ c.channel.closed = true)
      (houts : ∀ out ∈ outs, out.isSent = false ∧ out.isTimeout = false) :
      RetransPoll interval expires c none outs
  | resent (hdue : expires ≤ c.now) : RetransPoll interval expires c
      (some (.retransmitting (interval * 2) (c.now + interval * 2))) [.sent c.request]
  | timedOut {out} (hearly : c.now < expires) (hlate : c.timeout ≤ c.now)
      (hout : out.isTimeout = true) : RetransPoll interval expires c none [out]
  | waits (hearly : c.now < expires) (hbefore : c.now < c.timeout) :
      RetransPoll interval expires c (some (.retransmitting interval expires)) []

/-- One pass of the loop of retransmissions. -/
theorem pollResponse_retransmitting (cond : IncomingResponse → Bool) (interval expires : Nat)
    (c : ClientTransaction) :
    (∃ r channel, c.channel.messages ≠ [] ∧
        c.pollResponse cond (.retransmitting interval expires) = (.done (.ok (some r)),
          { c with channel := channel }.record (.received (.response r)))) ∨
      (∃ channel, (c.channel.messages ≠ [] ∨ c.channel.closed = true) ∧
        c.pollResponse cond (.retransmitting interval expires) =
          (.done (.ok none), { c with channel := channel })) ∨
      (expires ≤ c.now ∧ c.pollResponse cond (.retransmitting interval expires) =
          (.waiting (.retransmitting (interval * 2) (c.now + interval * 2)),
            c.sendRequest c.request)) ∨
      (c.now < expires ∧ c.timeout ≤ c.now ∧
        c.pollResponse cond (.retransmitting interval expires) =
          (.done (.error (.transaction .timeout)), c.setState .terminated)) ∨
      (c.now < expires ∧ c.now < c.timeout ∧
        c.pollResponse cond (.retransmitting interval expires) =
          (.waiting (.retransmitting interval expires), c)) := by
  unfold pollResponse
  rcases c.pollRecvIf_cases cond with
    ⟨r, rest, channel, hmsgs, -, -, -, hpoll⟩ | ⟨channel, -, hopen, -, -, hpoll⟩ | ⟨-, -, hpoll⟩
  · rw [hpoll]
    refine .inl ⟨r, channel, ?_, rfl⟩
    rw [hmsgs]
    exact List.cons_ne_nil _ _
  · rw [hpoll]
    refine .inr (.inl ⟨channel, ?_, rfl⟩)
    cases hclosed : c.channel.closed with
    | false => exact .inl (hopen hclosed)
    | true => exact .inr rfl
  · rw [hpoll]
    simp only []
    -- the interval is looked at before the deadline
    by_cases hexpired : expires ≤ c.now
    · exact .inr (.inr (.inl ⟨hexpired, if_pos hexpired⟩))
    · rw [if_neg hexpired]
      by_cases hdeadline : c.timeout ≤ c.now
      · exact .inr (.inr (.inr (.inl ⟨not_le.mp hexpired, hdeadline, if_pos hdeadline⟩)))
      · exact .inr (.inr (.inr (.inr ⟨not_le.mp hexpired, not_le.mp hdeadline,
          if_neg hdeadline⟩)))

/-- A final response to another request than `INVITE`, over an unreliable transport. -/
theorem finishResponse_nonInvite (hinvite : c.isInvite = false) (hreliable : c.isReliable = false)
    (r : IncomingResponse) :
    c.finishResponse r =
      ((c.setState .completed).ret (.final (.ok r))).become (.completed (c.now + T4) none) := by
  have hinvite' : (c.setState .completed).isInvite = false := hinvite
  unfold finishResponse
  simp only [hinvite, hreliable, Bool.false_and, Bool.or_false, Bool.false_eq_true, if_false,
    hinvite']
  rfl

/-- The trace after a poll, with how the call waits. -/
def RetransPolled (interval expires : Nat) (c c' : ClientTransaction) : Prop :=
  ∃ outs, c'.trace = c.trace ++ outs ∧ RetransPoll interval expires c c'.activity.waiting outs

/-- The rest of a call of `receive_provisional_response` that found something. -/
theorem retransPolled_provisional (interval expires : Nat) (seen : State)
    (response : Option IncomingResponse)
    (hchannel : c.channel.messages ≠ [] ∨ c.channel.closed = true) {c₁ : ClientTransaction}
    {outs : List ClientOutput} (htrace : c₁.trace = c.trace ++ outs)
    (houts : ∀ out ∈ outs, out.isSent = false ∧ out.isTimeout = false) :
    RetransPolled interval expires c (c₁.finishProvisional seen (.ok response)) := by
  have hall : ∀ out ∈ outs ++ [.returned (.provisional (.ok response))],
      out.isSent = false ∧ out.isTimeout = false :=
    List.forall_mem_append.mpr ⟨houts, List.forall_mem_singleton.mpr ⟨rfl, rfl⟩⟩
  have htrace' : c₁.trace ++ [.returned (.provisional (.ok response))] =
      c.trace ++ (outs ++ [.returned (.provisional (.ok response))]) := by
    rw [htrace, List.append_assoc]
  unfold finishProvisional
  simp only []
  split
  · exact ⟨_, htrace', .ended hchannel hall⟩
  · exact ⟨_, htrace', .ended hchannel hall⟩

/-- A pass of the loop, with what the call does behind it. -/
theorem retransPolled_pass (cond : IncomingResponse → Bool) (interval expires : Nat)
    {finish : Except Error (Option IncomingResponse) → ClientTransaction → ClientTransaction}
    {resume : Wait → ClientActivity} (hresume : ∀ wait, (resume wait).waiting = some wait)
    (hresponse : ∀ r channel, c.channel.messages ≠ [] →
      RetransPolled interval expires c
        (finish (.ok (some r)) ({ c with channel := channel }.record (.received (.response r)))))
    (hnone : ∀ channel, c.channel.messages ≠ [] ∨ c.channel.closed = true →
      RetransPolled interval expires c (finish (.ok none) { c with channel := channel }))
    (htimeout : ∃ out, out.isTimeout = true ∧
      (finish (.error (.transaction .timeout)) (c.setState .terminated)).trace =
        c.trace ++ [out] ∧
      (finish (.error (.transaction .timeout)) (c.setState .terminated)).activity.waiting = none) :
    RetransPolled interval expires c
      (match c.pollResponse cond (.retransmitting interval expires) with
        | (.done res, c) => finish res c
        | (.waiting wait, c) => c.become (resume wait)) := by
  rcases pollResponse_retransmitting cond interval expires c with
    ⟨r, channel, hmsgs, hpoll⟩ | ⟨channel, hchannel, hpoll⟩ | ⟨hdue, hpoll⟩ |
    ⟨hearly, hlate, hpoll⟩ | ⟨hearly, hbefore, hpoll⟩
  · rw [hpoll]
    exact hresponse r channel hmsgs
  · rw [hpoll]
    exact hnone channel hchannel
  · -- the request is sent again, and the interval doubles
    rw [hpoll]
    refine ⟨[.sent c.request], rfl, ?_⟩
    show RetransPoll interval expires c (resume _).waiting _
    rw [hresume]
    exact .resent hdue
  · rw [hpoll]
    obtain ⟨out, hout, htrace, hwaiting⟩ := htimeout
    refine ⟨[out], htrace, ?_⟩
    rw [hwaiting]
    exact .timedOut hearly hlate hout
  · rw [hpoll]
    refine ⟨[], (List.append_nil _).symm, ?_⟩
    show RetransPoll interval expires c (resume _).waiting _
    rw [hresume]
    exact .waits hearly hbefore

/-- **What a poll of a call in the loop of retransmissions does.** -/
theorem retransPolled (hinvite : c.isInvite = false) (hreliable : c.isReliable = false)
    {interval expires : Nat}
    (hwaiting : c.activity.waiting = some (.retransmitting interval expires)) :
    RetransPolled interval expires c c.poll := by
  unfold poll
  cases hactivity : c.activity with
  | idle | completed _ _ | dropped =>
    rw [hactivity] at hwaiting
    cases hwaiting
  | provisional seen wait =>
    rw [hactivity] at hwaiting
    obtain rfl := Option.some.inj hwaiting
    refine retransPolled_pass _ interval expires (fun _ => rfl) (fun r channel hmsgs => ?_)
      (fun channel hchannel => ?_) ⟨_, rfl, rfl, rfl⟩
    · exact retransPolled_provisional interval expires seen (some r) (.inl hmsgs) rfl
        (List.forall_mem_singleton.mpr ⟨rfl, rfl⟩)
    · exact retransPolled_provisional interval expires seen none hchannel
        (List.append_nil _).symm (List.forall_mem_nil _)
  | final wait =>
    rw [hactivity] at hwaiting
    obtain rfl := Option.some.inj hwaiting
    refine retransPolled_pass _ interval expires (fun _ => rfl) (fun r channel hmsgs => ?_)
      (fun channel hchannel => ?_) ⟨_, rfl, rfl, rfl⟩
    · -- the call returns the response, and a task takes over
      simp only [finishFinal]
      rw [finishResponse_nonInvite]
      · refine ⟨[.received (.response r), .returned (.final (.ok r))],
          List.append_assoc _ _ _, .ended (.inl hmsgs) ?_⟩
        exact List.forall_mem_cons.mpr ⟨⟨rfl, rfl⟩, List.forall_mem_singleton.mpr ⟨rfl, rfl⟩⟩
      · exact hinvite
      · exact hreliable
    · exact ⟨[.returned (.final (.error .channelClosed))], rfl,
        .ended hchannel (List.forall_mem_singleton.mpr ⟨rfl, rfl⟩)⟩

/-! ### Time -/

/-- The clock of a client transaction. -/
def clock : Clock step where
  now := now
  elapse := .elapse
  now_elapse _ _ := rfl
  elapse_add c ms ms' := by
    show { c with now := c.now + ms + ms' } = { c with now := c.now + (ms + ms') }
    rw [Nat.add_assoc]
  now_step c e he := by
    by_cases hpoll : e = .poll
    · subst hpoll
      exact now_poll c
    · exact (framed_step c hpoll).now he

/-- A poll changes nothing. -/
def Quiet (c : ClientTransaction) : Prop := c.poll = c

/-- A call with nothing to do waits for a timer that is still to come. -/
theorem early_of_quiet (hinvite : c.isInvite = false) (hreliable : c.isReliable = false)
    {interval expires : Nat}
    (hwaiting : c.activity.waiting = some (.retransmitting interval expires))
    (hquiet : c.Quiet) : c.now < expires ∧ c.now < c.timeout := by
  obtain ⟨outs, htrace, hpoll⟩ := retransPolled hinvite hreliable hwaiting
  have hsame : c.poll = c := hquiet
  rw [hsame] at htrace hpoll
  have houts : outs = [] := List.append_right_eq_self.mp htrace.symm
  generalize c.activity.waiting = waiting at hwaiting hpoll
  cases hpoll with
  | ended _ _ => cases hwaiting
  | resent _ => cases houts
  | timedOut _ _ _ => cases hwaiting
  | waits hearly hbefore => exact ⟨hearly, hbefore⟩

/-- A call with no message waits for its timers. -/
theorem poll_eq_self (interval expires : Nat)
    (hwaiting : c.activity.waiting = some (.retransmitting interval expires))
    (hmsgs : c.channel.messages = []) (hopen : c.channel.closed = false)
    (hexpires : c.now < expires) (htimeout : c.now < c.timeout) : c.poll = c := by
  have hwaits : ∀ cond, c.pollResponse cond (.retransmitting interval expires) =
      (.waiting (.retransmitting interval expires), c) := by
    intro cond
    -- with nothing in the channel and both timers ahead, waiting is all that is left
    rcases pollResponse_retransmitting cond interval expires c with
      ⟨_, _, hne, -⟩ | ⟨_, hended, -⟩ | ⟨hdue, -⟩ | ⟨-, hlate, -⟩ | ⟨-, -, hpoll⟩
    · exact absurd hmsgs hne
    · rcases hended with hne | hclosed
      · exact absurd hmsgs hne
      · rw [hopen] at hclosed
        cases hclosed
    · exact absurd hdue hexpires.not_ge
    · exact absurd hlate htimeout.not_ge
    · exact hpoll
  unfold poll
  cases hactivity : c.activity with
  | idle | dropped => rfl
  | completed _ _ =>
    rw [hactivity] at hwaiting
    cases hwaiting
  | provisional seen wait | final wait =>
    rw [hactivity] at hwaiting
    obtain rfl := Option.some.inj hwaiting
    simp only [hwaits, become]
    rw [← hactivity]

/-- Time passes in a call with no message up to the next timer. -/
theorem promptStep_waiting (interval expires : Nat) {ms : Nat}
    (hwaiting : c.activity.waiting = some (.retransmitting interval expires))
    (hmsgs : c.channel.messages = []) (hopen : c.channel.closed = false)
    (hexpires : c.now + ms ≤ expires) (htimeout : c.now + ms ≤ c.timeout) :
    clock.PromptStep Quiet c (.elapse ms) := by
  rintro ms' heq d hd
  obtain rfl := ClientEvent.elapse.inj heq
  have hnow : (c.step (.elapse d)).now < c.now + ms := Nat.add_lt_add_left hd c.now
  have hpoll : (c.step (.elapse d)).poll = c.step (.elapse d) := by
    refine poll_eq_self interval expires hwaiting hmsgs hopen ?_ ?_
    · exact hnow.trans_le hexpires
    · exact hnow.trans_le htimeout
  exact hpoll

/-! ### One step -/

/-- What is put out in a step. -/
def outputs (c : ClientTransaction) (e : ClientEvent) : List ClientOutput :=
  (c.step e).trace.drop c.trace.length

theorem outputs_poll {outs : List ClientOutput} (h : c.poll.trace = c.trace ++ outs) :
    c.outputs .poll = outs := by
  show c.poll.trace.drop c.trace.length = outs
  rw [h, List.drop_left]

theorem ne_idle_of_waiting {wait : Wait} (h : c.activity.waiting = some wait) :
    c.activity ≠ .idle := by
  intro hidle
  rw [hidle] at h
  cases h

/-- Only a poll of a call that waits puts something out. -/
theorem outputs_other {wait : Wait} (h : c.activity.waiting = some wait) {e : ClientEvent}
    (he : e ≠ .poll) : c.outputs e = [] := by
  obtain ⟨new, htrace, hnew, -⟩ := (framed_step c he).trace
  unfold outputs
  rw [htrace, hnew (ne_idle_of_waiting h), List.append_nil, List.drop_length]

/-- A call that waits goes on with it, or is given up. -/
theorem waiting_other {wait : Wait} (h : c.activity.waiting = some wait) {e : ClientEvent}
    (he : e ≠ .poll) :
    (c.step e).activity = c.activity ∨
      (∀ ms, e ≠ .elapse ms) ∧ (c.step e).activity.waiting = none := by
  have hbusy := ne_idle_of_waiting h
  cases e with
  | poll => exact absurd rfl he
  | close | elapse _ | recvState _ => exact .inl rfl
  | deliver msg =>
    simp only [step]
    split
    · exact .inl rfl
    · exact .inl rfl
  | receiveProvisionalResponse | receiveFinalResponse | drop | subscribeState =>
    simp only [step, if_neg hbusy]
    exact .inl trivial
  | cancel =>
    -- a call that is cancelled does not wait any more
    refine .inr ⟨by simp, ?_⟩
    simp only [step, cancel]
    cases hactivity : c.activity with
    | provisional _ _ | final _ => rfl
    | idle | completed _ _ | dropped =>
      rw [hactivity] at h
      cases h

end ClientTransaction

/-! ### The times of the transmissions -/

/-- A transaction whose user waits for the first response: when the request was sent first, at
    what times it was sent, whether the call is over, and when it timed out. -/
structure RetransClient where
  client : ClientTransaction
  start : Nat
  sends : List Nat
  ended : Bool := false
  timedOut : Option Nat := none

namespace RetransClient

/-- The times of the transmissions go along with the transaction, up to its first response. -/
def step (w : RetransClient) (e : ClientEvent) : RetransClient :=
  let client := w.client.step e
  let outs := w.client.outputs e
  { client := client
    start := w.start
    sends :=
      if w.ended then w.sends
      else w.sends ++ (outs.filter ClientOutput.isSent).map fun _ => client.now
    ended := w.ended || client.activity.waiting.isNone
    timedOut :=
      if !w.ended && outs.any ClientOutput.isTimeout then some client.now else w.timedOut }

/-- A call of a transaction that has sent its request just now. -/
def ofCall (c : ClientTransaction) : RetransClient where
  client := c
  start := c.now
  sends := (c.trace.filter ClientOutput.isSent).map fun _ => c.now

/-- The request was sent when it ought to be, none of its transmissions is late, and the call times
    out at `64 * T1` when there is no response. -/
structure Capped (w : RetransClient) : Prop where
  sends : w.sends = (List.range w.sends.length).map fun k => w.start + dueAt k
  next : w.ended = false → w.client.now ≤ w.start + dueAt w.sends.length
  deadline : w.ended = false → w.client.now ≤ w.start + T1 * 64
  timeout : w.ended = false → w.client.now = w.start + T1 * 64 → w.client.channel.messages = [] →
    w.client.channel.closed = false →
      (w.client.outputs .poll).any ClientOutput.isTimeout = true
  timedOut : ∀ t ∈ w.timedOut, t = w.start + T1 * 64

/-- Time passes while there is nothing to do. -/
def Prompt (w : RetransClient) (e : ClientEvent) : Prop :=
  ClientTransaction.clock.PromptStep ClientTransaction.Quiet w.client e

/-- The call does not wait any longer than up to the transmission that is due `T2` after the
    fifth one. -/
def WithinGap (w : RetransClient) (e : ClientEvent) : Prop :=
  ∀ ms, e = .elapse ms → w.ended = false → w.client.now + ms ≤ w.start + dueAt 5

/-- The call waits behind `n + 1` transmissions. -/
structure Waits (w : RetransClient) (n : Nat) : Prop where
  waiting : w.client.activity.waiting =
    some (.retransmitting (2 ^ n * T1) (w.start + sentAt (n + 1)))
  sends : w.sends = (List.range (n + 1)).map fun k => w.start + sentAt k
  since : w.start + sentAt n ≤ w.client.now
  next : w.client.now ≤ w.start + sentAt (n + 1)
  deadline : w.client.now ≤ w.start + T1 * 64

/-- What holds of the transaction as long as it waits for a response. -/
structure Ok (w : RetransClient) : Prop where
  isInvite : w.client.isInvite = false
  isReliable : w.client.isReliable = false
  timeout : w.client.timeout = w.start + T1 * 64
  waits : w.ended = false → ∃ n, w.Waits n

variable {w : RetransClient}

/-! ### While the call waits -/

/-- The next transmission does not come at the deadline. -/
theorem sentAt_ne_deadline (n : Nat) : sentAt (n + 1) ≠ T1 * 64 := by
  unfold sentAt T1
  rw [Nat.pow_succ]
  omega

/-- The call times out when it is polled at the deadline. -/
theorem Ok.outputs_timeout (h : w.Ok) {n : Nat} (hwaits : w.Waits n)
    (hnow : w.client.now = w.start + T1 * 64) (hmsgs : w.client.channel.messages = [])
    (hopen : w.client.channel.closed = false) :
    (w.client.outputs .poll).any ClientOutput.isTimeout = true := by
  obtain ⟨outs, htrace, hpoll⟩ :=
    ClientTransaction.retransPolled h.isInvite h.isReliable hwaits.waiting
  rw [ClientTransaction.outputs_poll htrace]
  have hnext := hwaits.next
  have hne := sentAt_ne_deadline n
  have htimeout := h.timeout
  generalize w.client.poll.activity.waiting = waiting at hpoll
  cases hpoll with
  | ended hchannel _ =>
    rcases hchannel with hne | hclosed
    · exact absurd hmsgs hne
    · rw [hopen] at hclosed
      cases hclosed
  | resent hdue => omega
  | timedOut _ _ hout => exact List.any_eq_true.mpr ⟨_, List.mem_singleton_self _, hout⟩
  | waits _ hbefore => omega

/-- The transmissions come when they ought to up to the sixth one. -/
theorem Ok.capped_iff (h : w.Ok) (hended : w.ended = false) {n : Nat} (hwaits : w.Waits n)
    (htimedOut : ∀ t ∈ w.timedOut, t = w.start + T1 * 64) :
    w.Capped ↔ w.client.now ≤ w.start + dueAt 5 := by
  have hlength : w.sends.length = n + 1 := by
    rw [hwaits.sends, List.length_map, List.length_range]
  have hfour : dueAt 4 = sentAt 4 := dueAt_eq_sentAt le_rfl
  have hlt : dueAt 4 < dueAt 5 := by decide
  constructor
  · intro hcapped
    have hnow := hcapped.next hended
    rw [hlength] at hnow
    rcases Nat.lt_trichotomy n 4 with hfew | rfl | hmany
    · have hdue : dueAt (n + 1) = sentAt (n + 1) := dueAt_eq_sentAt hfew
      have hle : sentAt (n + 1) ≤ sentAt 4 := sentAt_le hfew
      omega
    · exact hnow
    · -- the sixth transmission came after `15.5 s`
      have hsixth : w.sends[5]? = some (w.start + sentAt 5) := by
        rw [hwaits.sends, List.getElem?_map, List.getElem?_range (by omega)]
        rfl
      have hought : w.sends[5]? = some (w.start + dueAt 5) := by
        rw [hcapped.sends, hlength, List.getElem?_map, List.getElem?_range (by omega)]
        rfl
      have heq : w.start + sentAt 5 = w.start + dueAt 5 :=
        Option.some.inj (hsixth.symm.trans hought)
      have hne : sentAt 5 ≠ dueAt 5 := by decide
      omega
  · intro hnow
    -- the sixth transmission is still to come
    have hsince := hwaits.since
    have hnext := hwaits.next
    have hn : n ≤ 4 := by
      by_contra hmany
      have hle : sentAt 5 ≤ sentAt n := sentAt_le (not_le.mp hmany)
      have hlate : dueAt 5 < sentAt 5 := by decide
      omega
    refine ⟨?_, fun _ => ?_, fun _ => hwaits.deadline,
      fun _ hdeadline hmsgs hopen => h.outputs_timeout hwaits hdeadline hmsgs hopen, htimedOut⟩
    · rw [hlength, hwaits.sends]
      refine List.map_congr_left fun k hk => ?_
      rw [dueAt_eq_sentAt]
      exact (Nat.lt_succ_iff.mp (List.mem_range.mp hk)).trans hn
    · rw [hlength]
      -- up to the fifth transmission the timer is the one that ought to run, then it is too long
      rcases Nat.lt_or_eq_of_le hn with hfew | rfl
      · rw [dueAt_eq_sentAt hfew]
        exact hnext
      · exact hnow

/-- What a step of a call that waits does: it waits on, maybe behind one more transmission, or is
    over. -/
inductive CallStep (w : RetransClient) (e : ClientEvent) : RetransClient → Prop
  | waits {w'} (n : Nat) (hended : w'.ended = false) (hwaits : w'.Waits n)
      (htimedOut : w'.timedOut = w.timedOut)
      (hnow : (∀ ms, e ≠ .elapse ms) → w'.client.now = w.client.now) : CallStep w e w'
  | ended {w'} (hnot : ∀ ms, e ≠ .elapse ms) (hended : w'.ended = true) (hsends : w'.sends = w.sends)
      (htimedOut : ∀ t ∈ w'.timedOut, t ∈ w.timedOut ∨ t = w.start + T1 * 64) : CallStep w e w'

/-- The fields after a step that puts out `outs`. -/
theorem step_fields (hended : w.ended = false) {e : ClientEvent} {outs : List ClientOutput}
    (houts : w.client.outputs e = outs) :
    (w.step e).sends =
        w.sends ++ (outs.filter ClientOutput.isSent).map (fun _ => (w.client.step e).now) ∧
      (w.step e).ended = (w.client.step e).activity.waiting.isNone ∧
      (w.step e).timedOut = if outs.any ClientOutput.isTimeout then some (w.client.step e).now
        else w.timedOut := by
  unfold step
  simp only [hended, houts, Bool.not_false, Bool.true_and, Bool.false_or, Bool.false_eq_true,
    if_false, and_self]

/-- **What a poll of a call that waits does.** -/
theorem Ok.callStep_poll (h : w.Ok) (hended : w.ended = false) {n : Nat} (hwaits : w.Waits n) :
    CallStep w .poll (w.step .poll) := by
  have hnot : ∀ ms, ClientEvent.poll ≠ .elapse ms := fun _ heq => nomatch heq
  have hnow : (w.client.step .poll).now = w.client.now := w.client.now_poll
  obtain ⟨outs, htrace, hpoll⟩ :=
    ClientTransaction.retransPolled h.isInvite h.isReliable hwaits.waiting
  obtain ⟨hsends, hended', htimedOut⟩ :=
    step_fields hended (ClientTransaction.outputs_poll htrace)
  have hafter : (w.client.step .poll).activity.waiting = w.client.poll.activity.waiting := rfl
  rw [hafter] at hended'
  generalize hwaiting : w.client.poll.activity.waiting = waiting at hpoll hended'
  cases hpoll with
  | ended _ houts =>
    -- nothing was sent, and it is no timeout
    refine .ended hnot hended' ?_ fun t ht => .inl ?_
    · rw [hsends, List.filter_eq_nil_iff.mpr fun out hout => ?_]
      · exact List.append_nil _
      · rw [(houts out hout).1]
        exact Bool.false_ne_true
    · rw [htimedOut, if_neg] at ht
      · exact ht
      · intro hany
        obtain ⟨out, hout, htimeout⟩ := List.any_eq_true.mp hany
        rw [(houts out hout).2] at htimeout
        cases htimeout
  | resent hdue =>
    -- the clock has stopped at the timer
    have heq : w.client.now = w.start + sentAt (n + 1) := le_antisymm hwaits.next hdue
    refine .waits (n + 1) hended' ⟨?_, ?_, ?_, ?_, ?_⟩ htimedOut fun _ => hnow
    · refine hwaiting.trans ?_
      rw [sentAt_succ (n + 1), heq, ← Nat.mul_right_comm, ← Nat.pow_succ, Nat.add_assoc]
      rfl
    · rw [hsends, hwaits.sends, List.range_succ (n := n + 1), List.map_append, hnow, heq]
      rfl
    · exact (heq.symm.trans hnow.symm).le
    · exact hnow.le.trans (heq.le.trans (Nat.add_le_add_left (sentAt_le (Nat.le_succ _)) _))
    · exact hnow.le.trans hwaits.deadline
  | timedOut hearly hlate hout =>
    refine .ended hnot hended' ?_ fun t ht => .inr ?_
    · rw [hsends, List.filter_singleton, ClientOutput.isSent_of_isTimeout hout]
      exact List.append_nil _
    · rw [htimedOut, List.any_cons, hout, Bool.true_or, if_pos rfl] at ht
      rw [← Option.some.inj ht, hnow]
      exact le_antisymm hwaits.deadline (h.timeout.symm.trans_le hlate)
  | waits _ _ =>
    refine .waits n hended' ⟨hwaiting, ?_, ?_, ?_, ?_⟩ htimedOut fun _ => hnow
    · rw [hsends]
      exact (List.append_nil _).trans hwaits.sends
    · exact hwaits.since.trans hnow.ge
    · exact hnow.le.trans hwaits.next
    · exact hnow.le.trans hwaits.deadline

/-- What another step of such a call does. -/
theorem Ok.callStep_other (h : w.Ok) (hended : w.ended = false) {n : Nat} (hwaits : w.Waits n)
    {e : ClientEvent} (he : e ≠ .poll) (hprompt : w.Prompt e) : CallStep w e (w.step e) := by
  have houts := ClientTransaction.outputs_other hwaits.waiting he
  obtain ⟨hsends, hended', htimedOut⟩ := step_fields hended houts
  have hsends' : (w.step e).sends = w.sends := hsends.trans (List.append_nil _)
  have htimedOut' : (w.step e).timedOut = w.timedOut := htimedOut
  rcases ClientTransaction.waiting_other hwaits.waiting he with hsame | ⟨hnot, hnone⟩
  · -- the call goes on, and the clock stops at its timers
    have hnow : w.client.now ≤ (w.client.step e).now ∧
        (w.client.step e).now ≤ w.start + sentAt (n + 1) ∧
        (w.client.step e).now ≤ w.start + T1 * 64 := by
      by_cases helapse : ∀ ms, e ≠ .elapse ms
      · rw [(ClientTransaction.framed_step w.client he).now helapse]
        exact ⟨le_rfl, hwaits.next, hwaits.deadline⟩
      obtain ⟨ms, rfl⟩ := not_forall_not.mp helapse
      have hearly : ∀ d, (w.client.step (.elapse d)).Quiet →
          w.client.now + d < w.start + sentAt (n + 1) ∧
            w.client.now + d < w.client.timeout := fun d hquiet =>
        ClientTransaction.early_of_quiet (c := w.client.step (.elapse d)) h.isInvite h.isReliable
          hwaits.waiting hquiet
      refine ⟨Nat.le_add_right _ ms, ?_, ?_⟩
      · exact ClientTransaction.clock.le_of_prompt hprompt (fun d hquiet => (hearly d hquiet).1)
          hwaits.next
      · rw [← h.timeout]
        exact ClientTransaction.clock.le_of_prompt hprompt (fun d hquiet => (hearly d hquiet).2)
          (hwaits.deadline.trans h.timeout.ge)
    refine .waits n ?_ ⟨?_, ?_, ?_, ?_, ?_⟩ htimedOut' fun helapse => ?_
    · rw [hended', hsame, hwaits.waiting]
      rfl
    · show (w.client.step e).activity.waiting = _
      rw [hsame]
      exact hwaits.waiting
    · exact hsends'.trans hwaits.sends
    · exact hwaits.since.trans hnow.1
    · exact hnow.2.1
    · exact hnow.2.2
    · exact (ClientTransaction.framed_step w.client he).now helapse
  · refine .ended hnot ?_ hsends' fun t ht => .inl ?_
    · rw [hended', hnone]
      rfl
    · rw [← htimedOut']
      exact ht

theorem Ok.callStep (h : w.Ok) (hended : w.ended = false) {e : ClientEvent} (hprompt : w.Prompt e) :
    CallStep w e (w.step e) := by
  obtain ⟨n, hwaits⟩ := h.waits hended
  by_cases he : e = .poll
  · subst he
    exact h.callStep_poll hended hwaits
  · exact h.callStep_other hended hwaits he hprompt

/-! ### Runs -/

theorem Ok.step (h : w.Ok) {e : ClientEvent} (hprompt : w.Prompt e) : (w.step e).Ok where
  isInvite := by
    show decide ((w.client.step e).request.method = .invite) = false
    rw [w.client.request_step e]
    exact h.isInvite
  isReliable := by
    show (w.client.step e).request.targetInfo.transport.isReliable = false
    rw [w.client.request_step e]
    exact h.isReliable
  timeout := by
    show (w.client.step e).timeout = w.start + T1 * 64
    rw [w.client.timeout_step e]
    exact h.timeout
  waits := by
    -- a call that has ended does not wait again
    intro hended'
    cases hended : w.ended with
    | true =>
      have htrue : (w.step e).ended = true := by
        show (w.ended || _) = true
        rw [hended, Bool.true_or]
      rw [htrue] at hended'
      cases hended'
    | false =>
      have hstep := h.callStep hended hprompt
      cases hstep with
      | waits n _ hwaits _ _ => exact ⟨n, hwaits⟩
      | ended _ htrue _ _ =>
        rw [htrue] at hended'
        cases hended'

/-- Nothing happens behind the end of a call. -/
theorem step_ended (hended : w.ended = true) (e : ClientEvent) :
    (w.step e).sends = w.sends ∧ (w.step e).ended = true ∧ (w.step e).timedOut = w.timedOut := by
  unfold step
  simp only [hended, if_true, Bool.true_or, Bool.not_true, Bool.false_and, Bool.false_eq_true,
    if_false, and_self]

/-- The transmissions of a call that is over came when they ought to. -/
theorem capped_of_ended {w' : RetransClient} (hp : w.Capped) (hended : w'.ended = true)
    (hstart : w'.start = w.start) (hsends : w'.sends = w.sends)
    (htimedOut : ∀ t ∈ w'.timedOut, t ∈ w.timedOut ∨ t = w.start + T1 * 64) : w'.Capped := by
  have hnot : w'.ended ≠ false := by
    rw [hended]
    exact fun heq => nomatch heq
  refine ⟨?_, fun h => absurd h hnot, fun h => absurd h hnot, fun h => absurd h hnot,
    fun t ht => ?_⟩
  · rw [hstart, hsends]
    exact hp.sends
  · rw [hstart]
    exact (htimedOut t ht).elim (hp.timedOut t) id

/-- **A step keeps the transmissions where they ought to be exactly when the call does not wait
    for the sixth one in it.** -/
theorem Ok.capped_step_iff (h : w.Ok) (hp : w.Capped) {e : ClientEvent} (hprompt : w.Prompt e) :
    (w.step e).Capped ↔ w.WithinGap e := by
  cases hended : w.ended with
  | true =>
    obtain ⟨hsends, hended', htimedOut⟩ := step_ended hended e
    refine iff_of_true (capped_of_ended hp hended' rfl hsends fun t ht => .inl ?_) fun _ _ hopen => ?_
    · rw [← htimedOut]
      exact ht
    · rw [hended] at hopen
      cases hopen
  | false =>
    obtain ⟨n, hwaits⟩ := h.waits hended
    have hbefore := (h.capped_iff hended hwaits hp.timedOut).mp hp
    have hnext := h.step hprompt
    have hstart : (w.step e).start = w.start := rfl
    have hstep := h.callStep hended hprompt
    have helapsed : ∀ ms, e = .elapse ms → (w.step e).client.now = w.client.now + ms := by
      rintro ms rfl
      rfl
    generalize w.step e = w' at hstep hnext hstart helapsed
    -- of the steps after which the call waits, only the passing of time can come too late
    cases hstep with
    | waits n' hended' hwaits' htimedOut hnow =>
      rw [hnext.capped_iff hended' hwaits' ?_, hstart]
      · by_cases helapse : ∀ ms, e ≠ .elapse ms
        · rw [hnow helapse]
          exact iff_of_true hbefore fun ms heq => absurd heq (helapse ms)
        · obtain ⟨ms, rfl⟩ := not_forall_not.mp helapse
          rw [helapsed ms rfl]
          constructor
          · intro hle ms' heq _
            rw [← ClientEvent.elapse.inj heq]
            exact hle
          · intro hwithin
            exact hwithin ms rfl hended
      · rw [htimedOut, hstart]
        exact hp.timedOut
    | ended hnot hended' hsends htimedOut =>
      exact iff_of_true (capped_of_ended hp hended' hstart hsends htimedOut)
        fun ms heq => absurd heq (hnot ms)

/-- A call that begins right after the request was sent. -/
theorem ok_ofCall {generated : String} {outgoing : OutgoingRequest} {now : Nat}
    {c : ClientTransaction} (h : ClientTransaction.send generated outgoing now = some c)
    (hinvite : c.isInvite = false) (hreliable : c.isReliable = false) {call : ClientEvent}
    (hcall : call = .receiveProvisionalResponse ∨ call = .receiveFinalResponse) :
    (ofCall (c.step call)).Ok ∧ (ofCall (c.step call)).Capped := by
  obtain ⟨-, hmachine, -, htimeout, hnow, hidle, htrace⟩ := ClientTransaction.send_eq_some h
  -- a request other than `INVITE` begins in `Trying`
  rw [hinvite, if_neg Bool.false_ne_true] at hmachine
  have hstate : c.state = .trying := congrArg StateMachine.state hmachine
  have hstart : c.startWait = some (.retransmitting T1 (c.now + T1)) := by
    unfold ClientTransaction.startWait
    rw [hstate, hreliable]
    rfl
  have hactivity : ∃ activity, c.step call = c.become activity ∧
      activity.waiting = some (.retransmitting T1 (c.now + T1)) := by
    rcases hcall with rfl | rfl
    · refine ⟨.provisional .trying (.retransmitting T1 (c.now + T1)), ?_, rfl⟩
      simp only [ClientTransaction.step, if_pos hidle,
        ClientTransaction.receiveProvisionalResponse, hstate, hstart]
      rfl
    · refine ⟨.final (.retransmitting T1 (c.now + T1)), ?_, rfl⟩
      simp only [ClientTransaction.step, if_pos hidle, ClientTransaction.receiveFinalResponse,
        hstart]
  obtain ⟨activity, hstep, hwaiting⟩ := hactivity
  rw [hstep]
  have hwaits : (ofCall (c.become activity)).Waits 0 := by
    refine ⟨hwaiting, ?_, le_rfl, Nat.le_add_right _ _, Nat.le_add_right _ _⟩
    show (c.trace.filter ClientOutput.isSent).map (fun _ => c.now) = _
    rw [htrace]
    rfl
  have hok : (ofCall (c.become activity)).Ok := by
    refine ⟨hinvite, hreliable, ?_, fun _ => ⟨0, hwaits⟩⟩
    show c.timeout = c.now + T1 * 64
    rw [htimeout, hnow]
  have htimedOut : ∀ t ∈ (ofCall (c.become activity)).timedOut, t = c.now + T1 * 64 := by
    intro t ht
    cases ht
  exact ⟨hok, (hok.capped_iff rfl hwaits htimedOut).mpr (Nat.le_add_right _ _)⟩

/-- **When the gaps are capped.** Over an unreliable transport another request than `INVITE` is sent
    when it ought to be, all along a prompt run of a call that begins right away, exactly when the
    call does not wait for the sixth transmission. -/
theorem run_capped_iff {generated : String} {outgoing : OutgoingRequest} {now : Nat}
    {c : ClientTransaction} (h : ClientTransaction.send generated outgoing now = some c)
    (hinvite : c.isInvite = false) (hreliable : c.isReliable = false) {call : ClientEvent}
    (hcall : call = .receiveProvisionalResponse ∨ call = .receiveFinalResponse)
    {es : List ClientEvent} (hes : Meets step Prompt (ofCall (c.step call)) es) :
    Always step Capped (ofCall (c.step call)) es ↔
      Meets step WithinGap (ofCall (c.step call)) es := by
  obtain ⟨hok, hcapped⟩ := ok_ofCall h hinvite hreliable hcall
  have hinv : ∀ w e, Ok w → Prompt w e → Ok (step w e) := fun w e hw => hw.step
  have hstep : ∀ w e, Ok w → Capped w → Prompt w e → (Capped (step w e) ↔ WithinGap w e) :=
    fun w e hw hp hprompt => hw.capped_step_iff hp hprompt
  exact always_iff_meets_of_meets hinv hstep hok hcapped hes

/-- A step that lets no time pass is prompt. -/
theorem prompt_of_ne {e : ClientEvent} (h : ∀ ms, e ≠ .elapse ms) : w.Prompt e :=
  fun ms heq => absurd heq (h ms)

theorem prompt_poll : w.Prompt .poll := prompt_of_ne fun _ heq => nomatch heq

/-- A call for the final response to an `OPTIONS`. -/
def options : RetransClient :=
  ofCall ((ClientTransaction.new "z9hG4bK1" (.toLocalhost .options false) 0).step
    .receiveFinalResponse)

/-- The response to it. -/
def optionsOk : IncomingMessage :=
  .response { IncomingResponse.ofCode .ok with incomingInfo := .localhost .options none false }

/-- A response that comes after the second transmission. -/
theorem run_capped_options :
    Always step Capped options [.elapse 500, .poll, .elapse 300, .deliver optionsOk, .poll] := by
  have hsend : ClientTransaction.send "z9hG4bK1" (.toLocalhost .options false) 0 =
      some (.new "z9hG4bK1" (.toLocalhost .options false) 0) := rfl
  have hprompt : Meets step Prompt options
      [.elapse 500, .poll, .elapse 300, .deliver optionsOk, .poll] := by
    refine ⟨?_, prompt_poll, ?_, prompt_of_ne fun _ heq => (nomatch heq), prompt_poll, trivial⟩
    · exact ClientTransaction.promptStep_waiting 500 500 rfl rfl rfl (by decide) (by decide)
    · exact ClientTransaction.promptStep_waiting 1000 1500 rfl rfl rfl (by decide) (by decide)
  refine (run_capped_iff hsend rfl rfl (.inr rfl) hprompt).mpr ⟨?_, ?_, ?_, ?_, ?_, trivial⟩
  · rintro ms heq -
    rw [← ClientEvent.elapse.inj heq]
    decide
  · exact fun _ heq => nomatch heq
  · rintro ms heq -
    rw [← ClientEvent.elapse.inj heq]
    decide
  · exact fun _ heq => nomatch heq
  · exact fun _ heq => nomatch heq

/-- Without a response the sixth transmission is late: the interval is doubled beyond `T2`, to eight
    seconds. -/
theorem not_run_capped_options :
    ¬ ∀ es, Meets step Prompt options es → Always step Capped options es := by
  intro hall
  have hprompt : Meets step Prompt options [.elapse 500, .poll, .elapse 1000, .poll, .elapse 2000,
      .poll, .elapse 4000, .poll, .elapse 4001] := by
    refine ⟨?_, prompt_poll, ?_, prompt_poll, ?_, prompt_poll, ?_, prompt_poll, ?_, trivial⟩
    · exact ClientTransaction.promptStep_waiting 500 500 rfl rfl rfl (by decide) (by decide)
    · exact ClientTransaction.promptStep_waiting 1000 1500 rfl rfl rfl (by decide) (by decide)
    · exact ClientTransaction.promptStep_waiting 2000 3500 rfl rfl rfl (by decide) (by decide)
    · exact ClientTransaction.promptStep_waiting 4000 7500 rfl rfl rfl (by decide) (by decide)
    · exact ClientTransaction.promptStep_waiting 8000 15500 rfl rfl rfl (by decide) (by decide)
  have hlate := (hall _ hprompt _ (List.prefix_refl _)).next rfl
  revert hlate
  decide

end RetransClient

end Rssip
