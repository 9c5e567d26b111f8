import Rssip.Ua.Dialog

namespace Rssip

open Lib

/-!
# The headers of a response

What a response repeats from its request, and what it adds.

* `createResponse_split` — the copied headers, and behind them one of each of the others;
* `createResponse_mirrors` — the response to a received request mirrors its headers;
* `createResponse_toTag_iff` — when the responses to a request have one and the same tag.
-/

/-! ### The parts of a response -/

/-- The headers a response repeats: every `Via`, and the recorded routes. -/
def IncomingRequest.copied (request : IncomingRequest) : Headers :=
  .via request.incomingInfo.mandatoryHeaders.via ::
    (request.request.headers.filter Header.isVia).drop 1 ++
      request.request.headers.filter Header.isRecordRoute

theorem createResponse_split (request : IncomingRequest) (code : StatusCode)
    (reason : Option String) :
    let mandatoryHeaders := request.incomingInfo.mandatoryHeaders
    (Endpoint.createResponse request code reason).headers = request.copied ++
      [.callId mandatoryHeaders.callId, .fromHdr mandatoryHeaders.fromHdr,
        .toHdr (mandatoryHeaders.toHdr.forResponse code mandatoryHeaders.via.branch),
        .cSeq mandatoryHeaders.cseq] := rfl

theorem isVia_of_mem_otherVias {headers : Headers} {h : Header}
    (hmem : h ∈ (headers.filter Header.isVia).drop 1) : h.isVia = true :=
  (List.mem_filter.mp (List.mem_of_mem_drop hmem)).2

/-- What is neither a `Via` nor a recorded route is not among the copied headers. -/
theorem filterMap_copied {α : Type} {f : Header → Option α} (hvia : ∀ v, f (.via v) = none)
    (hroute : ∀ r, f (.recordRoute r) = none) (request : IncomingRequest) :
    request.copied.filterMap f = [] := by
  refine List.filterMap_eq_nil_iff.mpr fun h hh => ?_
  rw [IncomingRequest.copied, List.cons_append, List.mem_cons, List.mem_append] at hh
  rcases hh with rfl | hother | hrecorded
  · exact hvia _
  · have hkind := isVia_of_mem_otherVias hother
    cases h with
    | via v => exact hvia v
    | _ => cases hkind
  · have hkind := (List.mem_filter.mp hrecorded).2
    cases h with
    | recordRoute r => exact hroute r
    | _ => cases hkind

/-- The `Via`s of a response. -/
theorem filter_isVia_createResponse (request : IncomingRequest) (code : StatusCode)
    (reason : Option String) :
    (Endpoint.createResponse request code reason).headers.filter Header.isVia =
      .via request.incomingInfo.mandatoryHeaders.via ::
        (request.request.headers.filter Header.isVia).drop 1 := by
  have hothers : ((request.request.headers.filter Header.isVia).drop 1).filter Header.isVia =
      (request.request.headers.filter Header.isVia).drop 1 :=
    List.filter_eq_self.mpr fun h hh => isVia_of_mem_otherVias hh
  have hrecorded : (request.request.headers.filter Header.isRecordRoute).filter Header.isVia =
      [] := by
    refine List.filter_eq_nil_iff.mpr fun h hh => ?_
    have hkind := (List.mem_filter.mp hh).2
    cases h with
    | recordRoute r => exact Bool.false_ne_true
    | _ => cases hkind
  rw [createResponse_split, IncomingRequest.copied, List.filter_append, List.filter_append,
    List.filter_cons_of_pos rfl, hothers, hrecorded, List.append_nil]
  exact List.append_nil _

/-- The recorded routes of a response. -/
theorem filter_isRecordRoute_createResponse (request : IncomingRequest) (code : StatusCode)
    (reason : Option String) :
    (Endpoint.createResponse request code reason).headers.filter Header.isRecordRoute =
      request.request.headers.filter Header.isRecordRoute := by
  have hothers : ((request.request.headers.filter Header.isVia).drop 1).filter
      Header.isRecordRoute = [] := by
    refine List.filter_eq_nil_iff.mpr fun h hh => ?_
    have hkind := isVia_of_mem_otherVias hh
    cases h with
    | via v => exact Bool.false_ne_true
    | _ => cases hkind
  rw [createResponse_split, IncomingRequest.copied, List.filter_append, List.filter_append,
    List.filter_cons_of_neg Bool.false_ne_true, hothers, List.nil_append, List.filter_filter]
  simp only [Bool.and_self]
  exact List.append_nil _

/-- The other headers of a response, by their types. -/
theorem filterMap_createResponse {α : Type} {f : Header → Option α}
    (hvia : ∀ v, f (.via v) = none) (hroute : ∀ r, f (.recordRoute r) = none)
    (request : IncomingRequest) (code : StatusCode) (reason : Option String) :
    let mandatoryHeaders := request.incomingInfo.mandatoryHeaders
    (Endpoint.createResponse request code reason).headers.filterMap f =
      [.callId mandatoryHeaders.callId, .fromHdr mandatoryHeaders.fromHdr,
        .toHdr (mandatoryHeaders.toHdr.forResponse code mandatoryHeaders.via.branch),
        .cSeq mandatoryHeaders.cseq].filterMap f := by
  intro mandatoryHeaders
  rw [createResponse_split, List.filterMap_append, filterMap_copied hvia hroute]
  rfl

/-! ### What a response mirrors -/

theorem filter_isVia_of_findSome? {headers : Headers} {via : Via}
    (h : headers.findSome? (fun h => match h with | .via v => some v | _ => none) = some via) :
    headers.filter Header.isVia = .via via :: (headers.filter Header.isVia).drop 1 := by
  induction headers with
  | nil => cases h
  | cons header headers ih =>
    cases header with
    | via v =>
      cases h
      rfl
    | _ => exact ih h

/-- The topmost `Via` of a received request is the first one, with the address of the sender. -/
theorem IncomingRequest.Received.via {r : IncomingRequest} (h : r.Received) :
    ∃ topmost, r.request.headers.filter Header.isVia =
        .via topmost :: (r.request.headers.filter Header.isVia).drop 1 ∧
      r.incomingInfo.mandatoryHeaders.via =
        { topmost with received := some r.incomingInfo.transportMsg.packet.source.ip } := by
  obtain ⟨mandatoryHeaders, htryFrom, hinfo⟩ := h
  have htop := tryFrom_via htryFrom
  rw [foldl_add_via] at htop
  exact ⟨mandatoryHeaders.via, filter_isVia_of_findSome? htop, by rw [hinfo]; rfl⟩

theorem To.forResponse_of_isSome {h : To} (htag : h.tag.isSome) (code : StatusCode)
    (branch : Option String) : h.forResponse code branch = h := by
  rw [To.forResponse, if_neg]
  rintro ⟨hnone, -⟩
  rw [Option.isNone_iff_eq_none] at hnone
  rw [hnone] at htag
  cases htag

theorem To.forResponse_untagged (h : To) (code : StatusCode) (branch : Option String) :
    { h.forResponse code branch with tag := h.tag } = h := by
  unfold To.forResponse
  split <;> rfl

/-- **The headers of a response mirror those of its request.** Every `Via` of the request comes
    back in its place, with the address of the sender in the topmost one, and every recorded
    route; `From`, `Call-ID` and `CSeq` come back once each, and so does `To`, with its tag if it
    has one. -/
theorem createResponse_mirrors {request : IncomingRequest} (hreceived : request.Received)
    (code : StatusCode) (reason : Option String) :
    let response := Endpoint.createResponse request code reason
    let mandatoryHeaders := request.incomingInfo.mandatoryHeaders
    (∃ topmost others, request.request.headers.filter Header.isVia = .via topmost :: others ∧
        response.headers.filter Header.isVia =
          .via { topmost with
            received := some request.incomingInfo.transportMsg.packet.source.ip } :: others) ∧
      response.headers.filter Header.isRecordRoute =
        request.request.headers.filter Header.isRecordRoute ∧
      response.headers.filterMap Header.fromHdr? = [mandatoryHeaders.fromHdr] ∧
      response.headers.filterMap Header.callId? = [mandatoryHeaders.callId] ∧
      response.headers.filterMap Header.cseq? = [mandatoryHeaders.cseq] ∧
      ∃ toHdr, response.headers.filterMap Header.toHdr? = [toHdr] ∧
        { toHdr with tag := mandatoryHeaders.toHdr.tag } = mandatoryHeaders.toHdr ∧
        (mandatoryHeaders.toHdr.tag.isSome → toHdr = mandatoryHeaders.toHdr) := by
  intro response mandatoryHeaders
  obtain ⟨topmost, hvias, htop⟩ := hreceived.via
  -- one lemma for each kind of header that is copied
  refine ⟨⟨topmost, _, hvias, ?_⟩, filter_isRecordRoute_createResponse request code reason,
    ?_, ?_, ?_, mandatoryHeaders.toHdr.forResponse code mandatoryHeaders.via.branch, ?_, ?_, ?_⟩
  · rw [filter_isVia_createResponse, htop]
  · exact filterMap_createResponse (fun _ => rfl) (fun _ => rfl) request code reason
  · exact filterMap_createResponse (fun _ => rfl) (fun _ => rfl) request code reason
  · exact filterMap_createResponse (fun _ => rfl) (fun _ => rfl) request code reason
  · exact filterMap_createResponse (fun _ => rfl) (fun _ => rfl) request code reason
  · exact To.forResponse_untagged _ code _
  · exact fun htag => To.forResponse_of_isSome htag code _

/-- The answer to an `OPTIONS` has its `Via`, with the address of the sender. -/
theorem createResponse_mirrors_options :
    (Endpoint.createResponse .optionsFromLocalhost .ok none).headers.filter Header.isVia =
      [.via { MandatoryHeaders.localhost.via with received := some SocketAddr.localhost.ip }] := by
  have hreceived : IncomingRequest.optionsFromLocalhost.Received := ⟨_, rfl, rfl⟩
  obtain ⟨⟨topmost, others, hvias, hmirrored⟩, -⟩ := createResponse_mirrors hreceived .ok none
  rw [hmirrored]
  cases hvias
  rfl

/-! ### The tag of a response -/

/-- The tag of the first `To`. -/
def Response.toTag (response : Response) : Option String :=
  (response.headers.findSome? Header.toHdr?).bind To.tag

theorem findSome?_createResponse (request : IncomingRequest) (code : StatusCode)
    (reason : Option String) :
    (Endpoint.createResponse request code reason).headers.findSome? Header.toHdr? =
      some (request.incomingInfo.mandatoryHeaders.toHdr.forResponse code
        request.incomingInfo.mandatoryHeaders.via.branch) := by
  have htoHdrs : (Endpoint.createResponse request code reason).headers.filterMap Header.toHdr? =
      [request.incomingInfo.mandatoryHeaders.toHdr.forResponse code
        request.incomingInfo.mandatoryHeaders.via.branch] :=
    filterMap_createResponse (fun _ => rfl) (fun _ => rfl) request code reason
  rw [← List.head?_filterMap, htoHdrs]
  rfl

/-- **The tag of a response to a request without one** is the branch of the topmost `Via`. -/
theorem toTag_createResponse {request : IncomingRequest}
    (htag : request.incomingInfo.mandatoryHeaders.toHdr.tag = none) {code : StatusCode}
    (hcode : 100 < code.asU16) (reason : Option String) :
    (Endpoint.createResponse request code reason).toTag = request.branch := by
  rw [Response.toTag, findSome?_createResponse, Option.bind_some, To.forResponse,
    if_pos ⟨Option.isNone_iff_eq_none.mpr htag, hcode⟩]
  rfl

theorem findSome?_mapTo (f : To → To) (headers : Headers) :
    (headers.mapTo f).findSome? Header.toHdr? = (headers.findSome? Header.toHdr?).map f := by
  induction headers with
  | nil => rfl
  | cons header headers ih =>
    cases header with
    | toHdr t => rfl
    | _ => exact ih

/-- A header behind the `To` does not hide it. -/
theorem findSome?_ite_append {headers : Headers} {t : To}
    (h : headers.findSome? Header.toHdr? = some t) (p : Prop) [Decidable p] (added : Header) :
    (if p then headers ++ [added] else headers).findSome? Header.toHdr? = some t := by
  by_cases hp : p
  · rw [if_pos hp, List.findSome?_append, h]
    rfl
  · rw [if_neg hp]
    exact h

/-- **The tag of a response of a dialog** is the local tag of the dialog. -/
theorem toTag_dialog (d : Dialog) (serverTsx : ServerTransaction) {code : StatusCode}
    (hcode : 100 < code.asU16) (reason : Option String) :
    (d.createResponse serverTsx code reason).toTag = some d.dialogId.localTag := by
  have hne : code.asU16 ≠ 100 := by omega
  have hto := findSome?_createResponse serverTsx.request code reason
  unfold Response.toTag Dialog.createResponse
  simp only [if_pos hne]
  rw [findSome?_mapTo, findSome?_ite_append (findSome?_ite_append (findSome?_ite_append hto _ _)
    _ _) _ _]
  rfl

/-- The responses are given the same tag. -/
def TagsAgree (response response' : Response) : Prop :=
  ∃ tag, response.toTag = some tag ∧ response'.toTag = some tag

/-- **When the responses to a request have a tag**, and the same one.  Responses of a dialog
    always have; those of the endpoint have exactly when the topmost `Via` has a branch. -/
theorem createResponse_toTag_iff {request : IncomingRequest}
    (htag : request.incomingInfo.mandatoryHeaders.toHdr.tag = none) {code code' : StatusCode}
    (hcode : 100 < code.asU16) (hcode' : 100 < code'.asU16) (reason reason' : Option String) :
    (TagsAgree (Endpoint.createResponse request code reason)
        (Endpoint.createResponse request code' reason') ↔ request.branch.isSome) ∧
      ∀ (d : Dialog) (serverTsx : ServerTransaction), serverTsx.request = request →
        TagsAgree (d.createResponse serverTsx code reason)
          (d.createResponse serverTsx code' reason') := by
  refine ⟨?_, fun d serverTsx _ => ?_⟩
  · unfold TagsAgree
    rw [toTag_createResponse htag hcode, toTag_createResponse htag hcode',
      Option.isSome_iff_exists]
    exact exists_congr fun tag => and_self_iff
  · exact ⟨d.dialogId.localTag, toTag_dialog d serverTsx hcode reason,
      toTag_dialog d serverTsx hcode' reason'⟩

/-- An `OPTIONS` that rings and is answered. -/
theorem createResponse_toTag_options :
    TagsAgree (Endpoint.createResponse .optionsFromLocalhost .ringing none)
      (Endpoint.createResponse .optionsFromLocalhost .ok none) :=
  (createResponse_toTag_iff rfl (by decide) (by decide) none none).1.mpr rfl

/-- An `OPTIONS` from a client that puts no branch into its `Via`. -/
def IncomingRequest.withoutBranch : IncomingRequest where
  request := { reqLine := ⟨.options, Uri.localhost⟩
               headers := (optionsOkHeaders none).intoHeaders }
  incomingInfo := .ofMessage (optionsOkHeaders none) (.fromLocalhost [])

/-- Its responses have no tag: the one that the endpoint sets is the branch of the `Via`, and there
    is none. -/
theorem not_createResponse_toTag :
    ¬ ∀ request : IncomingRequest, request.Received →
      request.incomingInfo.mandatoryHeaders.toHdr.tag = none →
        ∀ code code' reason reason', 100 < StatusCode.asU16 code → 100 < StatusCode.asU16 code' →
          TagsAgree (Endpoint.createResponse request code reason)
            (Endpoint.createResponse request code' reason') := by
  intro hall
  obtain ⟨tag, htag, -⟩ := hall .withoutBranch ⟨optionsOkHeaders none, rfl, rfl⟩ rfl .ringing .ok
    none none (by decide) (by decide)
  rw [show (Endpoint.createResponse .withoutBranch .ringing none).toTag = none from rfl] at htag
  cases htag

end Rssip
