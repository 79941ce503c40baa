import Enclave.Sql.Screen
import Enclave.Sql.Grammar.Statement
import Enclave.Failure

/-!
# The policy for statements

A statement is accepted when it is one query that only reads: it passes both screenings, and the
grammar finds one statement in it, which is a query. Nothing is ever rewritten.
-/

namespace Enclave.Sql

/-- The longest statement that is looked at, in bytes. -/
def maxStatementBytes : Nat := 64 * 1024

/-- How the policy reads a statement. -/
def policySetting : Setting := ⟨maxDepth, false⟩

/-- The statements of a text by its tokens; `none` when the grammar does not know it. -/
def statementsOf (setting : Setting) (ls : List Lexeme) : Option (List Statement) :=
  parseStatements setting (grammarTokens ls)

/-- The decision on the statements of a text. -/
def judge : List Statement → Except Refusal Unit
  | [.query _] => .ok ()
  | [_] => .error .notQuery
  | ss => .error (.statements ss.length)

/-- Why a text is refused, if it is. -/
def review (text : String) : Except Refusal Unit :=
  if Text.isBlankText text then .error .blank
  else if text.utf8ByteSize > maxStatementBytes then
    .error (.tooLong text.utf8ByteSize maxStatementBytes)
  else do
    screen text.toList
    match lexemes text.toList with
    | none => .error .unparseable
    | some ls =>
      screenTokens ls
      match statementsOf policySetting ls with
      | none => .error .unparseable
      | some ss => judge ss

/-- The check of a statement. -/
def check (text : String) : Outcome Unit :=
  match review text with
  | .ok () => .ok ()
  | .error r => .error (.refused r.message)

end Enclave.Sql
