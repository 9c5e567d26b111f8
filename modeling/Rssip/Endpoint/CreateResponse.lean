import Rssip.Endpoint.Receive
import Rssip.Transaction.Client
import Rssip.Transaction.Server

namespace Rssip

open Lib

/-!
# Responses and the keys of their requests

A response repeats the headers of its request by which the transactions on both sides know it.

* `Endpoint.createResponse` — the response to a request;
* `tryFrom_createResponse` — the mandatory headers of a response are those of its request;
* `newKey3261_inj` — what a key tells of its transaction;
* `keys_route` — requests, responses, retransmissions and acknowledgements have the keys of their
  transactions, and no others.
-/

/-! ### Responses -/

/-- Whether the header is a `Via`. -/
def Header.isVia : Header → Bool
  | .via _ => true
  | _ => false

/-- Whether the header is a `Record-Route`. -/
def Header.isRecordRoute : Header → Bool
  | .recordRoute _ => true
  | _ => false

/-- The `To` of a response: except for a `100`, it has a tag. -/
def To.forResponse (code : StatusCode) (branch : Option String) (h : To) : To :=
  if h.tag.isNone ∧ 100 < code.asU16 then { h with tag := branch } else h

/-- A response has the `Via` and `Record-Route` headers of its request, and its mandatory ones, with
    a tag for `To` that is the branch of the request. -/
def Endpoint.createResponse (request : IncomingRequest) (code : StatusCode)
    (reason : Option String) : Response where
  statusLine := ⟨code, reason.getD code.reason⟩
  headers :=
    let allHdrs := request.request.headers
    let mandatoryHeaders := request.incomingInfo.mandatoryHeaders
    -- the topmost one is taken from the extracted headers, where `received` was set
    let otherVias := (allHdrs.filter Header.isVia).drop 1
    let rr := allHdrs.filter Header.isRecordRoute
    let toHdr := mandatoryHeaders.toHdr.forResponse code mandatoryHeaders.via.branch
    [.via mandatoryHeaders.via] ++ otherVias ++ rr ++
      [.callId mandatoryHeaders.callId, .fromHdr mandatoryHeaders.fromHdr, .toHdr toHdr,
        .cSeq mandatoryHeaders.cseq]

/-- Behind the topmost `Via`, the others and the recorded routes are passed over. -/
theorem foldl_add_passed (found : FoundHeaders) (hvia : found.via.isSome) {hs : Headers}
    (h : ∀ header ∈ hs, header.isVia ∨ header.isRecordRoute) :
    hs.foldl FoundHeaders.add found = found := by
  induction hs with
  | nil => rfl
  | cons header hs ih =>
    obtain ⟨hheader, hhs⟩ := List.forall_mem_cons.mp h
    have hadd : found.add header = found := by
      cases header with
      | via v =>
        rw [FoundHeaders.add, if_neg]
        rw [Option.isNone_iff_eq_none]
        exact Option.isSome_iff_ne_none.mp hvia
      | recordRoute _ => rfl
      | _ => simp [Header.isVia, Header.isRecordRoute] at hheader
    rw [List.foldl_cons, hadd]
    exact ih hhs

/-- **The mandatory headers of a response** are those of its request, but for the tag. -/
theorem tryFrom_createResponse (request : IncomingRequest) (code : StatusCode)
    (reason : Option String) :
    let mandatoryHeaders := request.incomingInfo.mandatoryHeaders
    MandatoryHeaders.tryFrom (Endpoint.createResponse request code reason).headers =
      .ok { mandatoryHeaders with
              toHdr := mandatoryHeaders.toHdr.forResponse code mandatoryHeaders.via.branch } := by
  intro mandatoryHeaders
  -- what is copied behind the first `Via` are no mandatory headers
  have hpassed : ∀ header ∈ (request.request.headers.filter Header.isVia).drop 1 ++
      request.request.headers.filter Header.isRecordRoute,
      header.isVia ∨ header.isRecordRoute := by
    intro header hheader
    rcases List.mem_append.mp hheader with hvia | hroute
    · exact Or.inl (List.mem_filter.mp (List.mem_of_mem_drop hvia)).2
    · exact Or.inr (List.mem_filter.mp hroute).2
  have hfold := foldl_add_passed { via := some mandatoryHeaders.via } rfl hpassed
  have hheaders : (Endpoint.createResponse request code reason).headers.foldl FoundHeaders.add {} =
      { via := some mandatoryHeaders.via
        fromHdr := some mandatoryHeaders.fromHdr
        toHdr := some (mandatoryHeaders.toHdr.forResponse code mandatoryHeaders.via.branch)
        callId := some mandatoryHeaders.callId
        cseq := some mandatoryHeaders.cseq } := by
    rw [Endpoint.createResponse]
    dsimp only
    rw [List.append_assoc [_], List.foldl_append, List.foldl_append]
    exact congrArg (List.foldl FoundHeaders.add · _) hfold
  rw [MandatoryHeaders.tryFrom, hheaders]
  rfl

/-! ### Keys -/

/-- Two methods of one transaction: the same, or `INVITE` and `ACK` in either order. -/
def SipMethod.SameTransaction (m m' : SipMethod) : Prop :=
  m = m' ∨ (m = .invite ∨ m = .ack) ∧ (m' = .invite ∨ m' = .ack)

namespace TransactionKey

/-- **What a key tells of its transaction.** -/
theorem newKey3261_inj {role role' : Role} {m m' : SipMethod} {branch branch' : String} :
    newKey3261 role m branch = newKey3261 role' m' branch' ↔
      role = role' ∧ branch = branch' ∧ m.SameTransaction m' := by
  unfold newKey3261 SipMethod.SameTransaction
  rw [rfc3261.injEq, Rfc3261.mk.injEq]
  refine and_congr_right fun _ => and_congr_right fun _ => ?_
  by_cases hm : m = .invite ∨ m = .ack
  · by_cases hm' : m' = .invite ∨ m' = .ack
    · simp [hm, hm']
    · have hne : m ≠ m' := fun h => hm' (h ▸ hm)
      simp [hm, hm', hne]
  · by_cases hm' : m' = .invite ∨ m' = .ack
    · have hne : m ≠ m' := fun h => hm (h ▸ hm')
      simp [hm, hm', hne]
    · simp [hm, hm']

theorem fromIncomingInfo_eq_some_iff {info : IncomingInfo} {role : Role} {key : TransactionKey} :
    fromIncomingInfo info role = some key ↔ ∃ branch,
      info.mandatoryHeaders.via.branch = some branch ∧ rfc3261BranchId.toList <+: branch.toList ∧
        key = newKey3261 role info.mandatoryHeaders.cseq.method branch := by
  unfold fromIncomingInfo
  cases info.mandatoryHeaders.via.branch with
  | none => simp
  | some branch =>
    by_cases hcookie : rfc3261BranchId.toList <+: branch.toList
    · simp [hcookie, eq_comm]
    · simp [hcookie]

end TransactionKey

/-! ### Requests on both sides -/

/-- The request was received: its mandatory headers are taken out of its headers. -/
def IncomingRequest.Received (r : IncomingRequest) : Prop :=
  ∃ mandatoryHeaders, MandatoryHeaders.tryFrom r.request.headers = .ok mandatoryHeaders ∧
    r.incomingInfo = .ofMessage mandatoryHeaders r.incomingInfo.transportMsg

/-- The same for a response. -/
def IncomingResponse.Received (r : IncomingResponse) : Prop :=
  ∃ mandatoryHeaders, MandatoryHeaders.tryFrom r.response.headers = .ok mandatoryHeaders ∧
    r.incomingInfo = .ofMessage mandatoryHeaders r.incomingInfo.transportMsg

/-- The `CSeq` of a request repeats its method. -/
def IncomingRequest.MethodAgrees (r : IncomingRequest) : Prop :=
  r.incomingInfo.mandatoryHeaders.cseq.method = r.method

/-- The branch of the topmost `Via` of a request. -/
def IncomingRequest.branch (r : IncomingRequest) : Option String :=
  r.incomingInfo.mandatoryHeaders.via.branch

/-- The topmost `Via` is the first one. -/
theorem foldl_add_via (found : FoundHeaders) (hs : Headers) :
    (hs.foldl FoundHeaders.add found).via =
      found.via.or (hs.findSome? fun h => match h with | .via v => some v | _ => none) := by
  induction hs generalizing found with
  | nil => simp
  | cons h hs ih =>
    rw [List.foldl_cons, ih]
    cases h with
    | via v =>
      cases hfound : found.via with
      | none => simp [FoundHeaders.add, hfound]
      | some top => simp [FoundHeaders.add, hfound]
    | _ => rfl

theorem required_eq_ok_iff {α : Type} {header : Option α} {name : String} {h : α} :
    MandatoryHeaders.required header name = .ok h ↔ header = some h := by
  cases header <;> simp [MandatoryHeaders.required]

theorem tryFrom_via {hs : Headers} {mandatoryHeaders : MandatoryHeaders}
    (h : MandatoryHeaders.tryFrom hs = .ok mandatoryHeaders) :
    (hs.foldl FoundHeaders.add {}).via = some mandatoryHeaders.via := by
  obtain ⟨via, hvia, h⟩ := except_bind_eq_ok_iff.mp h
  obtain ⟨fromHdr, -, h⟩ := except_bind_eq_ok_iff.mp h
  obtain ⟨toHdr, -, h⟩ := except_bind_eq_ok_iff.mp h
  obtain ⟨callId, -, h⟩ := except_bind_eq_ok_iff.mp h
  obtain ⟨cseq, -, h⟩ := except_bind_eq_ok_iff.mp h
  injection h with h
  rw [← h]
  exact required_eq_ok_iff.mp hvia

/-- The first `Via` of a request with a branch has that branch. -/
theorem viaBranch_via {generated branch : String} {hs hs' : Headers}
    (h : Headers.viaBranch generated hs = some (branch, hs')) :
    ∃ via, hs'.findSome? (fun h => match h with | .via v => some v | _ => none) = some via ∧
      via.branch = some branch := by
  induction hs generalizing hs' with
  | nil => cases h
  | cons header hs ih =>
    cases header with
    | via v =>
      rw [Headers.viaBranch] at h
      cases hbranch : v.branch with
      | none =>
        simp only [hbranch, Option.some.injEq, Prod.mk.injEq] at h
        rw [← h.1, ← h.2]
        exact ⟨_, rfl, rfl⟩
      | some b =>
        simp only [hbranch, Option.some.injEq, Prod.mk.injEq] at h
        rw [← h.1, ← h.2]
        exact ⟨v, rfl, hbranch⟩
    | _ =>
      obtain ⟨⟨b, tl⟩, htl, heq⟩ := Option.map_eq_some_iff.mp h
      obtain ⟨rfl, rfl⟩ := Prod.mk.inj heq
      obtain ⟨via, hvia, hbranch⟩ := ih htl
      exact ⟨via, hvia, hbranch⟩

/-- The branch of the topmost `Via` of a request that is sent. -/
def OutgoingRequest.branch (o : OutgoingRequest) : Option String :=
  (o.request.headers.foldl FoundHeaders.add {}).via.bind Via.branch

/-- The key of a client transaction is made of the method and the branch of its request. -/
theorem ClientTransaction.key_of_send {generated : String} {outgoing : OutgoingRequest} {now : Nat}
    {c : ClientTransaction} (h : ClientTransaction.send generated outgoing now = some c) :
    ∃ branch, c.request.branch = some branch ∧
      c.key = TransactionKey.newKey3261 .uac c.request.method branch := by
  unfold ClientTransaction.send at h
  split_ifs at h
  obtain rfl := Option.some.inj h
  rw [OutgoingRequest.branch, foldl_add_via]
  dsimp only [ClientTransaction.new, OutgoingRequest.withBranch, OutgoingRequest.method]
  cases hvia : Headers.viaBranch generated outgoing.request.headers with
  | none => exact ⟨generated, rfl, rfl⟩
  | some found =>
    obtain ⟨via, htop, hbranch⟩ := viaBranch_via hvia
    refine ⟨found.1, ?_, rfl⟩
    dsimp only
    rw [htop]
    exact hbranch

/-- The key of a server transaction is made of the branch and the `CSeq` of its request. -/
theorem ServerTransaction.key_of_fromRequest {r : IncomingRequest} {now : Nat}
    {s : ServerTransaction} (h : ServerTransaction.fromRequest r now = some s) :
    ∃ branch, s.request.branch = some branch ∧ s.request = r ∧
      s.transactionKey =
        TransactionKey.newKey3261 .uas r.incomingInfo.mandatoryHeaders.cseq.method branch := by
  unfold ServerTransaction.fromRequest at h
  split_ifs at h
  obtain ⟨key, hkey, rfl⟩ := Option.map_eq_some_iff.mp h
  obtain ⟨branch, hbranch, -, hkey⟩ := TransactionKey.fromIncomingInfo_eq_some_iff.mp hkey
  exact ⟨branch, hbranch, rfl, hkey⟩

/-! ### Routing -/

/-- **A response comes back to the transaction of its request.** -/
theorem fromResponse_createResponse {generated : String} {outgoing : OutgoingRequest} {now : Nat}
    {c : ClientTransaction} (hsend : ClientTransaction.send generated outgoing now = some c)
    {r : IncomingRequest} (hr : r.request = c.request.request) (hreceived : r.Received)
    (hmethod : r.MethodAgrees) (hcookie : r.incomingInfo.mandatoryHeaders.HasMagicCookie)
    {code : StatusCode} {reason : Option String} {res : IncomingResponse}
    (hres : res.response = Endpoint.createResponse r code reason) (hback : res.Received) :
    TransactionKey.fromResponse res = some c.key := by
  obtain ⟨branch, hbranch, hkey⟩ := ClientTransaction.key_of_send hsend
  obtain ⟨mandatoryHeaders, htryFrom, hinfo⟩ := hreceived
  obtain ⟨backHeaders, htryBack, hbackInfo⟩ := hback
  obtain ⟨branch', hbranch', hpre⟩ := hcookie
  -- the server reads the branch that the client has put into the request
  have hsame : branch' = branch := by
    rw [OutgoingRequest.branch, ← hr, tryFrom_via htryFrom] at hbranch
    rw [hinfo] at hbranch'
    exact Option.some.inj (hbranch'.symm.trans hbranch)
  -- the response repeats the topmost `Via` and the `CSeq`
  have hheaders := tryFrom_createResponse r code reason
  rw [← hres, htryBack, Except.ok.injEq] at hheaders
  have hmethod' : r.incomingInfo.mandatoryHeaders.cseq.method = c.request.method := by
    rw [hmethod, IncomingRequest.method, hr]
    rfl
  refine TransactionKey.fromIncomingInfo_eq_some_iff.mpr ⟨branch', ?_, hpre, ?_⟩
  · rw [hbackInfo, hheaders]
    exact hbranch'
  · rw [hkey, hbackInfo, hheaders, hsame, ← hmethod']
    rfl

/-- **A retransmission, and the `ACK` for an `INVITE`, come to the transaction of the request.** -/
theorem fromRequest_sameTransaction {r r' : IncomingRequest} {now : Nat} {s : ServerTransaction}
    (h : ServerTransaction.fromRequest r now = some s) (hmethod : r.MethodAgrees)
    (hmethod' : r'.MethodAgrees) (hbranch : r'.branch = r.branch)
    (hsame : r'.method.SameTransaction r.method) :
    TransactionKey.fromRequest r' = some s.transactionKey := by
  unfold ServerTransaction.fromRequest at h
  split_ifs at h
  obtain ⟨key, hkey, rfl⟩ := Option.map_eq_some_iff.mp h
  obtain ⟨branch, htop, hpre, hkey⟩ := TransactionKey.fromIncomingInfo_eq_some_iff.mp hkey
  refine TransactionKey.fromIncomingInfo_eq_some_iff.mpr
    ⟨branch, hbranch.trans htop, hpre, ?_⟩
  show key = _
  rw [hkey, TransactionKey.newKey3261_inj]
  refine ⟨rfl, rfl, ?_⟩
  rw [show r.incomingInfo.mandatoryHeaders.cseq.method = r.method from hmethod,
    show r'.incomingInfo.mandatoryHeaders.cseq.method = r'.method from hmethod']
  rcases hsame with heq | ⟨hm', hm⟩
  · exact Or.inl heq.symm
  · exact Or.inr ⟨hm, hm'⟩

theorem exists_fromRequest {r : IncomingRequest} (hack : r.method ≠ .ack)
    (hcookie : r.incomingInfo.mandatoryHeaders.HasMagicCookie) (now : Nat) :
    ∃ s, ServerTransaction.fromRequest r now = some s := by
  obtain ⟨branch, hbranch, hpre⟩ := hcookie
  have hkey : TransactionKey.fromRequest r = some _ :=
    TransactionKey.fromIncomingInfo_eq_some_iff.mpr ⟨branch, hbranch, hpre, rfl⟩
  rw [ServerTransaction.fromRequest, if_neg hack, hkey]
  exact ⟨_, rfl⟩

/-- **Keys route every message to its transaction.** A response that is made for the request of a
    client transaction has the key of that transaction; a retransmission of the request of a
    server transaction, and the `ACK` for its `INVITE`, have the key of that one; and keys tell
    transactions apart by their side, branch and method. -/
theorem keys_route :
    (∀ generated outgoing now c, ClientTransaction.send generated outgoing now = some c →
      ∀ r : IncomingRequest, r.request = c.request.request → r.Received → r.MethodAgrees →
        r.incomingInfo.mandatoryHeaders.HasMagicCookie →
          ∀ code reason (res : IncomingResponse),
            res.response = Endpoint.createResponse r code reason → res.Received →
              TransactionKey.fromResponse res = some c.key) ∧
    (∀ (r : IncomingRequest) now, r.method ≠ .ack → r.MethodAgrees →
      r.incomingInfo.mandatoryHeaders.HasMagicCookie →
        ∃ s, ServerTransaction.fromRequest r now = some s ∧
          ∀ r' : IncomingRequest, r'.MethodAgrees → r'.branch = r.branch →
            (r'.method = r.method ∨ r.method = .invite ∧ r'.method = .ack) →
              TransactionKey.fromRequest r' = some s.transactionKey) ∧
    (∀ generated outgoing now c generated' outgoing' now' c',
      ClientTransaction.send generated outgoing now = some c →
      ClientTransaction.send generated' outgoing' now' = some c' → c.key = c'.key →
        c.request.branch = c'.request.branch ∧
          c.request.method.SameTransaction c'.request.method) ∧
    (∀ r now s r' now' s', ServerTransaction.fromRequest r now = some s → r.MethodAgrees →
      ServerTransaction.fromRequest r' now' = some s' → r'.MethodAgrees →
        s.transactionKey = s'.transactionKey →
          r.branch = r'.branch ∧ r.method.SameTransaction r'.method) ∧
    ∀ generated outgoing now c r now' s,
      ClientTransaction.send generated outgoing now = some c →
      ServerTransaction.fromRequest r now' = some s → c.key ≠ s.transactionKey := by
  refine ⟨?_, ?_, ?_, ?_, ?_⟩
  -- responses
  · intro generated outgoing now c hsend r hr hreceived hmethod hcookie code reason res hres hback
    exact fromResponse_createResponse hsend hr hreceived hmethod hcookie hres hback
  -- retransmissions, and the `ACK`
  · intro r now hack hmethod hcookie
    obtain ⟨s, hs⟩ := exists_fromRequest hack hcookie now
    refine ⟨s, hs, fun r' hmethod' hbranch hsame => ?_⟩
    refine fromRequest_sameTransaction hs hmethod hmethod' hbranch ?_
    rcases hsame with heq | ⟨hinvite, hack'⟩
    · exact Or.inl heq
    · exact Or.inr ⟨Or.inr hack', Or.inl hinvite⟩
  -- two clients, two servers, and one of each
  · intro generated outgoing now c generated' outgoing' now' c' hsend hsend' heq
    obtain ⟨branch, hbranch, hkey⟩ := ClientTransaction.key_of_send hsend
    obtain ⟨branch', hbranch', hkey'⟩ := ClientTransaction.key_of_send hsend'
    rw [hkey, hkey', TransactionKey.newKey3261_inj] at heq
    exact ⟨by rw [hbranch, hbranch', heq.2.1], heq.2.2⟩
  · intro r now s r' now' s' hs hmethod hs' hmethod' heq
    obtain ⟨branch, hbranch, rfl, hkey⟩ := ServerTransaction.key_of_fromRequest hs
    obtain ⟨branch', hbranch', rfl, hkey'⟩ := ServerTransaction.key_of_fromRequest hs'
    rw [hkey, hkey', TransactionKey.newKey3261_inj, hmethod, hmethod'] at heq
    exact ⟨by rw [hbranch, hbranch', heq.2.1], heq.2.2⟩
  · intro generated outgoing now c r now' s hsend hs heq
    obtain ⟨branch, -, hkey⟩ := ClientTransaction.key_of_send hsend
    obtain ⟨branch', -, -, hkey'⟩ := ServerTransaction.key_of_fromRequest hs
    rw [hkey, hkey', TransactionKey.newKey3261_inj] at heq
    exact absurd heq.1 (by decide)

/-- The headers of an `OPTIONS` from `localhost`. -/
def MandatoryHeaders.localhost : MandatoryHeaders :=
  (IncomingInfo.localhost .options none false).mandatoryHeaders

/-- A request with these headers, as it is sent. -/
def OutgoingRequest.optionsToLocalhost : OutgoingRequest :=
  let o := OutgoingRequest.toLocalhost .options false
  { o with request := { o.request with headers := MandatoryHeaders.localhost.intoHeaders } }

/-- The same request, as it is received. -/
def IncomingRequest.optionsFromLocalhost : IncomingRequest :=
  ⟨OutgoingRequest.optionsToLocalhost.request,
    .ofMessage MandatoryHeaders.localhost (.fromLocalhost [])⟩

/-- Its response goes back, a retransmission goes to its transaction, and the two transactions
    have keys of their own. -/
theorem keys_route_options :
    ∃ c s, ClientTransaction.send "" .optionsToLocalhost 0 = some c ∧
      ServerTransaction.fromRequest .optionsFromLocalhost 0 = some s ∧
      (∃ res : IncomingResponse,
        res.response = Endpoint.createResponse .optionsFromLocalhost .ok none ∧
          TransactionKey.fromResponse res = some c.key) ∧
      TransactionKey.fromRequest .optionsFromLocalhost = some s.transactionKey ∧
      c.key ≠ s.transactionKey := by
  obtain ⟨hresponse, hrequest, -, -, hsides⟩ := keys_route
  have hmethod : IncomingRequest.optionsFromLocalhost.MethodAgrees := rfl
  have hcookie : IncomingRequest.optionsFromLocalhost.incomingInfo.mandatoryHeaders.HasMagicCookie :=
    ⟨"z9hG4bK1", rfl, by decide⟩
  have hsend : ClientTransaction.send "" .optionsToLocalhost 0 =
      some (ClientTransaction.new "" .optionsToLocalhost 0) := rfl
  obtain ⟨s, hs, hretransmission⟩ := hrequest .optionsFromLocalhost 0 (by decide) hmethod hcookie
  refine ⟨_, s, hsend, hs, ?_, hretransmission _ hmethod rfl (Or.inl rfl), ?_⟩
  · refine ⟨⟨Endpoint.createResponse .optionsFromLocalhost .ok none,
      .ofMessage ?_ (.fromLocalhost [])⟩, rfl, ?_⟩
    · exact { MandatoryHeaders.localhost with
                via := { MandatoryHeaders.localhost.via with
                           received := some SocketAddr.localhost.ip }
                toHdr := { MandatoryHeaders.localhost.toHdr with tag := some "z9hG4bK1" } }
    · exact hresponse _ _ _ _ hsend .optionsFromLocalhost rfl ⟨_, rfl, rfl⟩ hmethod hcookie _ _ _
        rfl ⟨_, rfl, rfl⟩
  · exact hsides _ _ _ _ _ _ _ hsend hs

end Rssip
