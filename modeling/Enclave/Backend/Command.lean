import Enclave.Text.Lossy
import Enclave.Decimal.Notation

/-!
# External commands

A backend reaches its infrastructure through a command line program. What such a program does is
not known here, so a `Command` is any function from the exchanges so far and a call to a reply.
Everything a backend does shows in the list of its exchanges.
-/

namespace Enclave

/-- One call of a program: its arguments, and what it is given to read. -/
structure Call where
  args : List String
  input : Option String
  deriving Repr, DecidableEq

/-- How a program ended. -/
inductive Exit where
  | code (n : Nat)
  /-- Killed by a signal, so that there is no code. -/
  | signal
  deriving Repr, DecidableEq

namespace Exit

def succeeded (e : Exit) : Bool := e == .code 0

/-- The code as it is shown in messages. -/
def text : Exit → String
  | .code n => "Some(" ++ Decimal.natText n ++ ")"
  | .signal => "None"

end Exit

/-- What came of a call. -/
inductive Reply where
  /-- The program could not be started. -/
  | absent (reason : String)
  /-- The program ran for some milliseconds. -/
  | ended (exit : Exit) (stdout stderr : List UInt8) (ms : Nat)
  deriving Repr, DecidableEq

/-- A call and its reply. -/
structure Exchange where
  call : Call
  reply : Reply
  deriving Repr, DecidableEq

/-- A program, as the reply to a call after some exchanges. -/
abbrev Command := List Exchange → Call → Reply

/-- The exchanges after one more call. -/
def Command.ask (c : Command) (call : Call) (log : List Exchange) : Reply × List Exchange :=
  let reply := c log call
  (reply, log ++ [⟨call, reply⟩])

end Enclave
