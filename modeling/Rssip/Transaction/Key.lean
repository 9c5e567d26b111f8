import Rssip.Transport.Outgoing

namespace Rssip

open Lib

/-!
# Transaction keys

What the transaction table is keyed by.

* `TransactionKey.newKey3261` — role, branch and method; an `INVITE` and its `ACK` share a key;
* `TransactionKey.fromRequest`, `TransactionKey.fromResponse` — the key a received message is
  looked up by; `none` where the code has a `todo!()`.
-/

/-- Client or server. -/
inductive Role where
  | uac
  | uas
deriving DecidableEq

/-- The beginning of every branch that RFC 3261 elements generate. -/
def rfc3261BranchId : String := "z9hG4bK"

/-- A key for messages whose branch does not identify the transaction. -/
structure Rfc2543 where
  cseq : UInt32
  fromTag : Option String
  toTag : Option String
  callId : String
  viaHostPort : HostPort
  method : Option SipMethod
deriving DecidableEq

/-- A key by the branch: the side, the branch and the method, which is left out for `INVITE` and
    `ACK`. -/
structure Rfc3261 where
  role : Role
  branch : String
  method : Option SipMethod
deriving DecidableEq

/-- The key under which a transaction is entered in its table. -/
inductive TransactionKey where
  | rfc2543 (key : Rfc2543)
  | rfc3261 (key : Rfc3261)
deriving DecidableEq

namespace TransactionKey

/-- The branch, if the key has one. -/
def branch : TransactionKey → Option String
  | rfc2543 _ => none
  | rfc3261 key => some key.branch

/-- The key by a branch.  An `INVITE` and its `ACK` have the same one. -/
def newKey3261 (role : Role) (method : SipMethod) (branch : String) : TransactionKey :=
  let method := if method = .invite ∨ method = .ack then none else some method
  rfc3261 ⟨role, branch, method⟩

/-- The key of a received message.  Without a branch of RFC 3261 there is none: the code panics
    there. -/
def fromIncomingInfo (info : IncomingInfo) (role : Role) : Option TransactionKey :=
  match info.mandatoryHeaders.via.branch with
  | some branch =>
    if rfc3261BranchId.toList <+: branch.toList then
      some (newKey3261 role info.mandatoryHeaders.cseq.method branch)
    else none
  | none => none

/-- The key of a request that came in: that of a server transaction. -/
def fromRequest (request : IncomingRequest) : Option TransactionKey :=
  fromIncomingInfo request.incomingInfo .uas

/-- The key of a response that came in: that of a client transaction. -/
def fromResponse (response : IncomingResponse) : Option TransactionKey :=
  fromIncomingInfo response.incomingInfo .uac

end TransactionKey

end Rssip
