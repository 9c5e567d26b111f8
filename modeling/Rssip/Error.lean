import Rssip.Utils.Scanner

namespace Rssip

/-!
# Errors

The error type of the crate.  The variants that wrap an error of another crate carry what the
code of this one puts into them, or nothing.

* `ParseError` — a kind and the position of the scanner when the error was made;
* `Error` — the crate's errors;
* `Failure` — how a parse can end without a value: an error, a panic of the code (an
  arithmetic overflow), or, for the model only, a loop that outran its bound.
-/

/-- What the parser did not find. -/
inductive ParseErrorKind where
  | syntaxError (s : String)
  | port
  | scheme
  | statusCode
  | host
  | sipMethod
  | version
  | uri
  | param
  | transport
  | scanner (kind : ScannerErrorKind)
deriving DecidableEq

/-- What the parser did not find, and where. -/
structure ParseError where
  kind : ParseErrorKind
  position : Position
deriving DecidableEq

/-- A scanner's error as a parse error. -/
def ParseError.ofScanner (e : ScannerError) : ParseError := ⟨.scanner e.kind, e.position⟩

/-- The errors of transactions. -/
inductive TransactionError where
  | ackCannotCreateTransaction
  | failedToSendMessage (text : String)
  | timeout
  | invalidState
deriving DecidableEq

/-- The errors of the crate. -/
inductive Error where
  | parse (e : ParseError)
  | transport (text : String)
  | transaction (e : TransactionError)
  | dialog (text : String)
  | missingHeader (name : String)
  | io (text : String)
  | channelClosed
  | unsupportedTransport
  | invalidStatusCode
  /-- `Custom` with the debug text of a `Utf8Error`. -/
  | utf8
  | custom (text : String)
deriving DecidableEq

/-- How a parse ends when it gives no value. -/
inductive Failure where
  | error (e : Error)
  | panic
  | stuck
deriving DecidableEq

/-- Not a loop beyond its bound, and a panic only where there may be one. -/
def Failure.IsErrorOr (mayPanic : Prop) : Failure → Prop
  | .error _ => True
  | .panic => mayPanic
  | .stuck => False

/-- The parser fails with an error, and does not panic or loop. -/
abbrev Failure.IsError : Failure → Prop := Failure.IsErrorOr False

theorem Failure.IsErrorOr.mono {P Q : Prop} (h : P → Q) :
    ∀ e : Failure, e.IsErrorOr P → e.IsErrorOr Q
  | .error _, _ => trivial
  | .panic, hP => h hP

end Rssip
