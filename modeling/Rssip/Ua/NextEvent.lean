import Rssip.Ua.Dialog

namespace Rssip

open Lib

/-!
# Events of a session

An established session waits for the requests of the other side, and acts upon them.

* `Dialog.nextEvent` — one call of `next_event`;
* `Handled` — what became of a request;
* `run_refuses_iff` — when a request that is answered with an error is not acted upon: never, for
  `process_incoming_request` returns as if it had accepted it.
-/

/-- Why a session is over. -/
inductive Cause where
  | byeReceived
deriving DecidableEq

/-- The events of the signalling. -/
inductive SessionEvent where
  | terminated (cause : Cause)
  | reInvite (request : IncomingRequest)
  | options (request : IncomingRequest)
deriving DecidableEq

/-- How far a call of `next_event` came.  While it waits, an event of the media may still end
    it. -/
inductive NextEvent where
  | waits
  | event (e : SessionEvent)
  | error (e : Error)
  | panicked
deriving DecidableEq

/-- A call of `next_event`: its outcome, the dialog after it, and the responses sent meanwhile. -/
structure NextCall where
  outcome : NextEvent
  dialog : Dialog
  responses : List Response := []

/-- One call of `next_event`, with the reads of the channel, what comes of sending the response to
    a `BYE`, and the time. -/
def Dialog.nextEvent (receptions : List Reception) (sent : Except Error Unit) (now : Nat)
    (d : Dialog) : NextCall :=
  if d.state = .terminated then { outcome := .event (.terminated .byeReceived), dialog := d }
  else
    let received := d.receiveRequest receptions
    match received.result with
    -- an error takes the branch of the requests out of the `select!`
    | none | some (.error _) =>
      { outcome := .waits, dialog := received.dialog, responses := received.responses }
    | some (.ok request) =>
      match request.method with
      | .invite =>
        { outcome := .event (.reInvite request)
          dialog := received.dialog
          responses := received.responses }
      | .bye =>
        match ServerTransaction.fromRequest request now with
        | none =>
          { outcome := .panicked, dialog := received.dialog, responses := received.responses }
        | some byeTsx =>
          let final := received.dialog.finalResponse byeTsx .ok sent
          let responses := received.responses ++ final.responses
          match sent with
          | .ok () =>
            { outcome := .event (.terminated .byeReceived)
              dialog := { final.dialog with state := .terminated }
              responses := responses }
          | .error e => { outcome := .error e, dialog := final.dialog, responses := responses }
      -- the other methods are an `unimplemented!()`
      | _ => { outcome := .panicked, dialog := received.dialog, responses := received.responses }

/-! ### Requests one after the other -/

/-- What became of a request that was read. -/
structure Handled where
  /-- The responses of `process_incoming_request`. -/
  refusals : List Response
  /-- All responses. -/
  responses : List Response
  /-- `receive_request` has returned the request. -/
  returned : Bool
  before : Dialog
  after : Dialog
  terminated : Bool

/-- A request that is answered with an error is not acted upon. -/
def Handled.Refused (h : Handled) : Prop :=
  h.refusals ≠ [] →
    h.returned = false ∧ h.after = h.before ∧ h.responses.length = 1 ∧ h.terminated = false

/-- Who reads a request. -/
inductive Reader where
  /-- `next_event`, with what comes of the response to a `BYE`, and the time. -/
  | nextEvent (sent : Except Error Unit) (now : Nat)
  | waitForAck

/-- A request in the channel, what comes of sending an error to it, and who reads it. -/
structure InDialog where
  request : IncomingRequest
  sent : Except Error Unit
  reader : Reader

/-- A request as the dialog reads it. -/
def InDialog.reception (a : InDialog) : Reception := ⟨some (.request a.request), a.sent⟩

/-- A session, and what became of the requests so far. -/
structure Requests where
  dialog : Dialog
  panicked : Bool := false
  handled : List Handled := []

namespace Requests

/-- A call of the reader ends at once, or panicked before. -/
def Over (w : Requests) : Reader → Prop
  | .nextEvent _ _ => w.panicked ∨ w.dialog.state = .terminated
  | .waitForAck => w.panicked

instance (w : Requests) (reader : Reader) : Decidable (w.Over reader) := by
  cases reader
  · exact inferInstanceAs (Decidable (_ ∨ _))
  · exact inferInstanceAs (Decidable (_ = true))

/-- The request is read by one call. -/
def step (w : Requests) (a : InDialog) : Requests :=
  if w.Over a.reader then w
  else
    let refusals := (w.dialog.processIncomingRequest a.request a.sent).responses
    let returned := ((w.dialog.receiveRequest [a.reception]).result.map Except.isOk).getD false
    match a.reader with
    | .nextEvent sent now =>
      let next := w.dialog.nextEvent [a.reception] sent now
      { dialog := next.dialog
        panicked := next.outcome = .panicked
        handled :=
          { refusals := refusals
            responses := next.responses
            returned := returned
            before := w.dialog
            after := next.dialog
            terminated := next.outcome = .event (.terminated .byeReceived) } :: w.handled }
    | .waitForAck =>
      let waited := w.dialog.waitForAck [some a.reception]
      { dialog := waited.dialog
        handled :=
          { refusals := refusals
            responses := waited.responses
            returned := returned
            before := w.dialog
            after := waited.dialog
            terminated := false } :: w.handled }

/-- No request that was answered with an error has been acted upon. -/
def Refuses (w : Requests) : Prop := ∀ h ∈ w.handled, h.Refused

/-- The request, if it is read, is accepted, or the error to it cannot be sent. -/
def Accepts (w : Requests) (a : InDialog) : Prop :=
  w.Over a.reader ∨ ¬ w.dialog.InvalidCseq a.request ∨ a.sent ≠ .ok ()

/-- A request that is answered with an error is returned like any other. -/
theorem receiveRequest_of_invalid {d : Dialog} {a : InDialog} (h : d.InvalidCseq a.request)
    (hsent : a.sent = .ok ()) :
    (d.processIncomingRequest a.request a.sent).responses ≠ [] ∧
      (d.receiveRequest [a.reception]).result = some (.ok a.request) := by
  have hprocessed := Dialog.processIncomingRequest_of_invalid h a.sent
  rw [hsent] at hprocessed
  constructor
  · rw [hsent, hprocessed]
    exact List.cons_ne_nil _ _
  · rw [Dialog.receiveRequest]
    simp only [InDialog.reception, Dialog.receive, hsent, hprocessed]
    rfl

/-- Nothing is sent to a request that is accepted. -/
theorem refusals_eq_nil {d : Dialog} {a : InDialog}
    (h : ¬ d.InvalidCseq a.request ∨ a.sent ≠ .ok ()) :
    (d.processIncomingRequest a.request a.sent).responses = [] := by
  unfold Dialog.processIncomingRequest
  by_cases hinvalid : d.InvalidCseq a.request
  · rw [if_pos hinvalid]
    cases hsent : a.sent with
    | ok u => exact absurd hsent (h.resolve_left (not_not_intro hinvalid))
    | error e => rfl
  · rw [if_neg hinvalid]

/-- **A step lets the session refuse** exactly when there is nothing to refuse. -/
theorem refuses_step_iff {w : Requests} (h : w.Refuses) (a : InDialog) :
    (w.step a).Refuses ↔ w.Accepts a := by
  unfold Accepts step
  by_cases hover : w.Over a.reader
  · rw [if_pos hover]
    exact iff_of_true h (.inl hover)
  · rw [if_neg hover, or_iff_right hover]
    by_cases haccepted : ¬ w.dialog.InvalidCseq a.request ∨ a.sent ≠ .ok ()
    · have hnil := refusals_eq_nil haccepted
      refine iff_of_true ?_ haccepted
      cases a.reader with
      | nextEvent _ _ | waitForAck =>
        exact List.forall_mem_cons.mpr ⟨fun hne => absurd hnil hne, h⟩
    · refine iff_of_false (fun hrefuses => ?_) haccepted
      obtain ⟨hinvalid, hsent⟩ := not_or.mp haccepted
      obtain ⟨hanswered, hreturned⟩ :=
        receiveRequest_of_invalid (not_not.mp hinvalid) (not_not.mp hsent)
      -- the request was answered, and returned all the same
      cases hreader : a.reader with
      | nextEvent _ _ | waitForAck =>
        rw [hreader] at hrefuses
        obtain ⟨hnot, -⟩ := hrefuses _ List.mem_cons_self hanswered
        rw [hreturned] at hnot
        cases hnot

/-- **When a refused request is not acted upon.** All along a run no request that is answered with
    an error is returned to the user agent, changes the dialog, gets a second response or ends
    the session, exactly when none of the requests that are read gets such an answer. -/
theorem run_refuses_iff (d : Dialog) (es : List InDialog) :
    Always step Refuses { dialog := d } es ↔ Meets step Accepts { dialog := d } es := by
  have hstep : ∀ (w : Requests) a, True → w.Refuses → ((w.step a).Refuses ↔ w.Accepts a) :=
    fun _ a _ h => refuses_step_iff h a
  have hinv : ∀ (w : Requests) (a : InDialog), True → True := fun _ _ h => h
  have hstart : Refuses { dialog := d } := fun _ h => nomatch h
  exact always_iff_meets hinv hstep trivial hstart es

/-- A `BYE` that is not above the last number is answered with an error and returned, as it is to
    `wait_for_ack`; an established session answers it twice, and ends with it. -/
theorem not_run_refuses_bye :
    ((Dialog.invited.receiveRequest [⟨some (.request (.inDialog .bye 1)), .ok ()⟩]).result =
        some (.ok (.inDialog .bye 1))) ∧
      ¬ Always step Refuses { dialog := Dialog.invited }
        [⟨.inDialog .bye 1, .ok (), .waitForAck⟩] ∧
      ¬ Always step Refuses { dialog := Dialog.invited }
        [⟨.inDialog .bye 1, .ok (), .nextEvent (.ok ()) 0⟩] := by
  refine ⟨by decide, fun h => ?_, fun h => ?_⟩
  · obtain ⟨hnot, -⟩ := h _ (List.prefix_refl _) _ List.mem_cons_self (List.cons_ne_nil _ _)
    cases hnot
  · obtain ⟨-, -, -, hnot⟩ :=
      h _ (List.prefix_refl _) _ List.mem_cons_self (List.cons_ne_nil _ _)
    cases hnot

end Requests

end Rssip
