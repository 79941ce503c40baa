import Enclave.Backend.Basic

/-!
# Runs in a container

One container for each dispatch: no network, a root that cannot be written, no capabilities, a user
without rights, and the directory of the dataset mounted for reading only. The request goes to the
standard input of the runner, and its standard output is the result. A container that is not done
in time is killed.
-/

namespace Enclave.Container

/-- Exits of the container runtime that mean that nothing was run. -/
def runtimeExits : List Nat := [125, 126, 127]

/-- The exit of a container that was killed, as the kernel does when memory runs out. -/
def killedExit : Nat := 137

/-- The options that isolate a container; they depend on the settings alone. -/
def isolation (s : Settings) : List String :=
  let megabytes (n : Nat) : String := Decimal.natText n ++ "m"
  ["--network", "none", "--read-only", "--user", s.container.user, "--cap-drop", "ALL",
   "--security-opt", "no-new-privileges", "--pids-limit", Decimal.natText s.limits.processes,
   "--memory", megabytes s.limits.memoryMb, "--memory-swap", megabytes s.limits.memoryMb,
   "--cpus", Decimal.plain.render s.limits.cpus,
   "--tmpfs", "/tmp:rw,noexec,nosuid,size=" ++ megabytes s.container.tmpfsMb]

/-- The options that hand the environment over. -/
def environmentOptions (env : Environment) : List String :=
  env.flatMap fun kv => ["-e", kv.1 ++ "=" ++ kv.2]

/-- The mount of the directory of a dataset. -/
def mount (s : Settings) (r : Request) : String :=
  s.hostDirectory r ++ ":" ++ s.runnerDirectory r ++ ":ro"

/-- The arguments that start the container of a request. -/
def arguments (s : Settings) (name : String) (r : Request) : Outcome (List String) := do
  Naming.checkDatasetId r.datasetId
  return ["run", "--rm", "-i", "--name", name] ++ isolation s ++ ["-v", mount s r] ++
    environmentOptions s.runnerEnvironment ++ [s.runnerImage]

/-- The result in the output of a runner that ended with an exit of its own. -/
def readOutput (exit : Exit) (stdout stderr : String) : Outcome RunResult :=
  match readResult stdout with
  | .ok r => .ok r
  | .error e =>
    if exit.succeeded then .error e
    else .error (.unreadable ("runner exited " ++ exit.text ++ " (" ++ e.message ++ "); stderr: " ++
      Text.trim stderr))

/-- What the end of a container means. -/
def interpret (s : Settings) (name : String) (exit : Exit) (stdout stderr : String) :
    Outcome RunResult :=
  match exit with
  | .signal => .error (.dispatch ("container runtime for " ++ name ++ " terminated by signal"))
  | .code n =>
    if runtimeExits.contains n then
      .error (.dispatch ("container runtime exited " ++ Decimal.natText n ++ " for " ++ name ++
        ": " ++ Text.trim stderr))
    else if n = killedExit then
      .error (.ceiling ("container " ++ name ++ " was killed (memory limit " ++
        Decimal.natText s.limits.memoryMb ++ "m)"))
    else readOutput exit stdout stderr

/-- Dispatches a request in a container of some name. -/
def dispatch (s : Settings) (command : Command) (name : String) (r : Request) (c : Connection) :
    Outcome RunResult × Connection :=
  match arguments s name r with
  | .error e => (.error e, c)
  | .ok args =>
    let (reply, log) := command.ask ⟨args, some r.text⟩ c.log
    match reply with
    | .absent reason =>
      (.error (.dispatch ("failed to start " ++ s.container.command ++ ": " ++ reason)),
        { c with log })
    | .ended exit stdout stderr ms =>
      if ms < r.seconds * 1000 then
        (interpret s name exit (Text.ofBytes stdout) (Text.ofBytes stderr), { c with log })
      else
        let (_, log) := command.ask ⟨["kill", name], none⟩ log
        (.error (.timedOut r.seconds), { c with log })

end Enclave.Container
