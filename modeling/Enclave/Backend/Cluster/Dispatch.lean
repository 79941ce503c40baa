import Enclave.Backend.Cluster.Manifest
import Enclave.Backend.Cluster.Phase

/-!
# Runs as jobs of a cluster

One job for each dispatch, driven through `kubectl`. Before the first job the network policy is
applied, once for each backend. The job is then polled until it is done or the time of the run is
over, its log is read for the result, and it is deleted however the run ended. The deletion is
forced after a timeout.

The clock of a run is the sum of what the calls took and of the waits between polls. A call that
ends when no time is left is cut off: it shows among the exchanges, but nothing is made of its
reply.
-/

namespace Enclave.Cluster

open Json (Value)

/-- What does not change during a run. -/
structure Job where
  settings : Settings
  command : Command
  name : String
  request : Request

/-- How far a run has come: the connection, and the milliseconds since the run began. -/
structure Progress where
  connection : Connection
  elapsed : Nat
  deriving Repr, DecidableEq

namespace Job

/-- The milliseconds that a run may take. -/
def deadline (j : Job) : Nat := j.request.seconds * 1000

/-- The failure of a run whose time is over. -/
def tooLate {α : Type} (j : Job) : Outcome α := .error (.timedOut j.request.seconds)

/-- A call of `kubectl`, in the namespace of the settings. -/
def call (j : Job) (args : List String) (input : Option String) : Call :=
  ⟨"--namespace" :: j.settings.cluster.space :: args, input⟩

/-- What a reply of `kubectl` means: the text that it printed, if it went well. -/
def readReply (j : Job) (verb : String) (elapsed : Nat) : Reply → Outcome String
  | .absent reason =>
    .error (.dispatch ("failed to start " ++ j.settings.cluster.command ++ ": " ++ reason))
  | .ended exit stdout stderr _ =>
    if j.deadline ≤ elapsed then j.tooLate
    else if exit.succeeded then .ok (Text.ofBytes stdout)
    else .error (.dispatch ("kubectl " ++ verb ++ " failed: " ++ Text.trim (Text.ofBytes stderr)))

/-- The milliseconds that a reply took. -/
def took : Reply → Nat
  | .absent _ => 0
  | .ended _ _ _ ms => ms

/-- Calls `kubectl` for a verb. -/
def kubectl (j : Job) (verb : String) (args : List String) (input : Option String)
    (p : Progress) : Outcome String × Progress :=
  let (reply, log) := j.command.ask (j.call (verb :: args) input) p.connection.log
  let elapsed := p.elapsed + took reply
  (j.readReply verb elapsed reply, ⟨{ p.connection with log }, elapsed⟩)

/-- Applies a manifest. -/
def apply (j : Job) (manifest : Value) (p : Progress) : Outcome Unit × Progress :=
  let (r, p) := j.kubectl "apply" ["-f", "-"] (some (manifestText manifest)) p
  (r.map fun _ => (), p)

/-- Applies the network policy, unless that has been done. -/
def guardNetwork (j : Job) (p : Progress) : Outcome Unit × Progress :=
  if p.connection.guarded then (.ok (), p)
  else
    match j.apply (networkPolicy j.settings) p with
    | (.ok _, p) => (.ok (), { p with connection := { p.connection with guarded := true } })
    | (.error e, p) => (.error e, p)

/-- Asks for the phase of the job. -/
def poll (j : Job) (p : Progress) : Outcome JobPhase × Progress :=
  match j.kubectl "get" ["job", j.name, "-o", "json"] none p with
  | (.error e, p) => (.error e, p)
  | (.ok text, p) =>
    match Value.parse text with
    | .ok v => (.ok (phaseOf v), p)
    | .error f => (.error (.dispatch ("unreadable job status: " ++ f.message)), p)

/-- The milliseconds between two polls. -/
def pollPause (j : Job) : Nat := max j.settings.cluster.pollMs 1

/-- Polls until the job is done or the time is over. The first argument bounds the polls. -/
def pollUntilDone (j : Job) : Nat → Progress → Outcome JobPhase × Progress
  | 0, p => (j.tooLate, p)
  | polls + 1, p =>
    match j.poll p with
    | (.ok .active, p) =>
      let p := { p with elapsed := p.elapsed + j.pollPause }
      if j.deadline ≤ p.elapsed then (j.tooLate, p) else j.pollUntilDone polls p
    | done => done

/-- Waits for the job to be done. Every pause takes a millisecond at least, so the bound on the
polls is never what ends the wait. -/
def await (j : Job) (p : Progress) : Outcome JobPhase × Progress :=
  j.pollUntilDone (j.deadline + 1) p

/-- Whether the job was killed for its use of memory. If the pods cannot be looked at, it was
not. -/
def outOfMemory (j : Job) (p : Progress) : Outcome Bool × Progress :=
  match j.kubectl "get" ["pods", "-l", "job-name=" ++ j.name, "-o", "json"] none p with
  | (.ok text, p) => (.ok ((Value.parse text).toOption.any anyOutOfMemory), p)
  | (.error (.timedOut seconds), p) => (.error (.timedOut seconds), p)
  | (.error _, p) => (.ok false, p)

/-- The result in the log of a job. -/
def readLog (j : Job) (phase : JobPhase) (p : Progress) : Outcome RunResult × Progress :=
  match j.kubectl "logs" ["job/" ++ j.name, "-c", containerName] none p with
  | (.error e, p) => (.error e, p)
  | (.ok log, p) =>
    match readResult log with
    | .ok r => (.ok r, p)
    | .error e =>
      if phase = .succeeded then (.error e, p)
      else (.error (.unreadable ("job " ++ j.name ++ " failed (" ++ phase.text ++ "): " ++
        e.message)), p)

/-- The result of a job that is done. -/
def collect (j : Job) (phase : JobPhase) (p : Progress) : Outcome RunResult × Progress :=
  match phase with
  | .failed (some "DeadlineExceeded") => (j.tooLate, p)
  | .failed _ =>
    match j.outOfMemory p with
    | (.error e, p) => (.error e, p)
    | (.ok true, p) =>
      (.error (.ceiling ("job " ++ j.name ++ " was OOM-killed (memory limit " ++
        Decimal.natText j.settings.limits.memoryMb ++ "Mi)")), p)
    | (.ok false, p) => j.readLog phase p
  | _ => j.readLog phase p

/-- Runs the job of a manifest, short of deleting it. -/
def run (j : Job) (manifest : Value) (p : Progress) : Outcome RunResult × Progress :=
  match j.guardNetwork p with
  | (.error e, p) => (.error e, p)
  | (.ok _, p) =>
    match j.apply manifest p with
    | (.error e, p) => (.error e, p)
    | (.ok _, p) =>
      match j.await p with
      | (.error e, p) => (.error e, p)
      | (.ok phase, p) => j.collect phase p

/-- Whether a run ended because its time was over. -/
def isTimeout (r : Outcome RunResult) : Bool :=
  match r with
  | .error (.timedOut _) => true
  | _ => false

/-- The arguments that delete the job. -/
def deletion (j : Job) (force : Bool) : List String :=
  ["delete", "job", j.name, "--ignore-not-found", "--wait=false", "--cascade=background"] ++
    if force then ["--grace-period=0", "--force"] else []

/-- Deletes the job; nothing depends on how that goes. -/
def delete (j : Job) (force : Bool) (c : Connection) : Connection :=
  { c with log := (j.command.ask (j.call (j.deletion force) none) c.log).2 }

end Job

/-- Dispatches a request as a job of some name. -/
def dispatch (s : Settings) (command : Command) (name : String) (r : Request) (c : Connection) :
    Outcome RunResult × Connection :=
  match job s name r with
  | .error e => (.error e, c)
  | .ok manifest =>
    let j : Job := ⟨s, command, name, r⟩
    let (outcome, p) := j.run manifest ⟨c, 0⟩
    (outcome, j.delete (Job.isTimeout outcome) p.connection)

end Enclave.Cluster
