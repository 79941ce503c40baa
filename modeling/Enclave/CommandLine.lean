import Enclave.Runner

/-!
# The command line of the runner

A runner takes its settings from the environment, some of them overridden by arguments, and its
request from standard input or from an environment variable. It prints one line: the result as
JSON. A request that cannot be read becomes a result, too. A runner that crashes prints nothing and
shows it by its exit code.
-/

namespace Enclave

/-- What the arguments of a runner say. -/
structure RunnerArguments where
  /-- The variable that holds the request, instead of standard input. -/
  requestVariable : Option String
  dataRoot : Option String
  interpreter : Option String
  deriving Repr, DecidableEq

namespace RunnerArguments

def none : RunnerArguments := ⟨.none, .none, .none⟩

/-- The arguments with one option and the text behind it, if there is one; `none` for what is no
option. -/
def option? (a : RunnerArguments) (name : String) (value : Option String) :
    Option RunnerArguments :=
  match name with
  | "--request-env" => some { a with requestVariable := value }
  | "--data-root" => some { a with dataRoot := value }
  | "--python-path" => some { a with interpreter := value }
  | _ => Option.none

/-- Reads arguments. An option takes the argument behind it, whatever that is; a repeated option
overrides, and arguments that are no options are skipped. -/
def read (a : RunnerArguments) : List String → RunnerArguments
  | [] => a
  | [name] => (a.option? name Option.none).getD a
  | name :: value :: rest =>
    match a.option? name (some value) with
    | some a => read a rest
    | .none => read a (value :: rest)

/-- The arguments of a command line. -/
def ofList (args : List String) : RunnerArguments := none.read args

/-- Settings with what the arguments override. -/
def override (a : RunnerArguments) (s : RunnerSettings) : RunnerSettings :=
  { s with
    dataRoot := a.dataRoot.getD s.dataRoot
    interpreter := a.interpreter <|> s.interpreter }

end RunnerArguments

namespace CommandLine

/-- What a runner is started with. -/
structure Start where
  /-- The arguments; `none` for one that is no text. -/
  args : List (Option String)
  environment : Environment
  /-- The variables whose values are no texts, each with the way its value is shown. -/
  textless : List (String × String)
  /-- What standard input holds, or why it cannot be read. -/
  input : Except String String

/-- The text of the request. -/
def requestText (s : Start) (a : RunnerArguments) : Except String String :=
  match a.requestVariable with
  | none =>
    match s.input with
    | .ok text => .ok text
    | .error reason => .error ("reading request from stdin: " ++ reason)
  | some name =>
    match s.environment.lookup name with
    | some text => .ok text
    | none =>
      let reason :=
        match s.textless.lookup name with
        | some shown => "environment variable was not valid unicode: " ++ shown
        | none => "environment variable not found"
      .error (name ++ " is not set: " ++ reason)

/-- The settings and the request of a runner with some arguments, or why there are none. -/
def load (s : Start) (args : List String) : Except String (RunnerSettings × Request) :=
  let a := RunnerArguments.ofList args
  match RunnerSettings.ofEnvironment s.environment with
  | .error e => .error e.message
  | .ok settings =>
    match requestText s a with
    | .error e => .error e
    | .ok text =>
      match Json.decodeText Request.decoder (Text.trim text) with
      | .error m => .error ("malformed execution request: " ++ m.message)
      | .ok r => .ok (a.override settings, r)

/-- The result of a start. `tools` are what a runner of some settings has to work with. -/
def answer (s : Start) (tools : RunnerSettings → RunnerTools) (time : RunTime) :
    Except Crash RunResult :=
  match s.args.mapM id with
  | none => .error .argumentNoText
  | some args =>
    match load s args with
    | .error message => .ok (.failed message 0)
    | .ok (settings, r) => (Runner.run settings (tools settings) r time).result

/-- What a runner prints. -/
def printed (r : RunResult) : String := r.toJson.compact ++ "\n"

/-- What is seen of a runner that has ended: its exit code, and what it printed. -/
structure Finish where
  exit : Nat
  output : String
  deriving Repr, DecidableEq

/-- The exit code of a runner that crashed. -/
def crashExit : Nat := 101

/-- The end of a runner. -/
def finish : Except Crash RunResult → Finish
  | .ok r => ⟨0, printed r⟩
  | .error _ => ⟨crashExit, ""⟩

end CommandLine

end Enclave
