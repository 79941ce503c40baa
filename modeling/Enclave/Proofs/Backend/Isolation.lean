import Enclave.Proofs.Backend.Handover
import Enclave.Proofs.Path.Joined

/-!
# What a request cannot change

Two requests for one dataset are run alike: the command line of a container is the same for both,
and the manifests of their jobs are equal but for the deadline and the text of the request
(`Cluster.job_eq_replaced`). The id of the dataset is all that is left of a request in a mount. An
id that is accepted is one plain name below each root (`Path.OneBelow`), and it brings no colon into
the mount of a container, so a mount has the parts that it was put together of
(`Container.splitOn_mount`).
-/

namespace Enclave

open Json (Value)

/-! ## Positions in a value -/

namespace Json

/-- A step into a value: to a member of an object, or to an item of an array. -/
inductive Step where
  | member (k : String)
  | item (i : Nat)
  deriving DecidableEq, Repr

/-- The value at a position. -/
def Value.at? : Value → List Step → Option Value
  | v, [] => some v
  | .obj kvs, .member k :: p => (kvs.lookup k).bind fun v => at? v p
  | .arr vs, .item i :: p => vs[i]?.bind fun v => at? v p
  | _, _ => none

/-- A value with another value at a position; it is as it was where there is no such position. -/
def Value.replaceAt : Value → List Step → Value → Value
  | _, [], w => w
  | .obj kvs, .member k :: p, w =>
    .obj (kvs.map fun kv => if kv.1 = k then (kv.1, replaceAt kv.2 p w) else kv)
  | .arr vs, .item i :: p, w => .arr (vs.modify i fun v => replaceAt v p w)
  | v, _, _ => v

end Json

/-! ## The command line of a container -/

namespace Container

variable {s : Settings} {name : String} {r r' : Request} {args : List String}

/-- All of a request that a command line shows is the id of its dataset. -/
theorem arguments_congr (h : r.datasetId = r'.datasetId) :
    arguments s name r = arguments s name r' := by
  simp only [arguments, mount, Settings.hostDirectory, Settings.runnerDirectory, h]

/-- Where no root has a colon, a mount is read as it was put together. -/
theorem splitOn_mount (hid : Naming.isDatasetId r.datasetId = true)
    (hhost : ':' ∉ s.hostDataRoot.toList) (hsandbox : ':' ∉ s.sandboxDataRoot.toList) :
    (mount s r).toList.splitOn ':'
      = [(s.hostDirectory r).toList, (s.runnerDirectory r).toList, "ro".toList] := by
  have hcolon : ':' ∉ r.datasetId.toList := Naming.notMem_of_isDatasetId hid (by decide)
  have hjoin {root : String} (hroot : ':' ∉ root.toList) :
      ':' ∉ (Path.join root r.datasetId).toList := by
    intro hmem
    rcases Path.mem_of_mem_join hmem with h | h | h
    · exact hroot h
    · cases h
    · exact hcolon h
  have hmount : (mount s r).toList = [':'].intercalate
      [(s.hostDirectory r).toList, (s.runnerDirectory r).toList, "ro".toList] := by
    simp [mount, List.intercalate]
  rw [hmount]
  refine List.splitOn_intercalate ':' ?_ (by simp)
  simp only [List.forall_mem_cons, List.not_mem_nil, false_imp_iff, implies_true, and_true]
  exact ⟨hjoin hhost, hjoin hsandbox, by decide⟩

/-- What a command line mounts: one directory below the root outside, at one name below the root
inside, for reading only. -/
structure Mounts (s : Settings) (r : Request) (args : List String) : Prop where
  mount : ∃ host target, valuesOf "-v" args = [host ++ ":" ++ target ++ ":ro"] ∧
    Path.OneBelow s.hostDataRoot r.datasetId host ∧
    Path.OneBelow s.sandboxDataRoot r.datasetId target ∧
    (':' ∉ s.hostDataRoot.toList → ':' ∉ s.sandboxDataRoot.toList →
      (host ++ ":" ++ target ++ ":ro").toList.splitOn ':'
        = [host.toList, target.toList, "ro".toList])

theorem mounts_of_arguments (hid : Naming.isDatasetId r.datasetId = true)
    (h : arguments s name r = .ok args) : Mounts s r args where
  mount := ⟨_, _, valuesOf_mount h, Path.oneBelow_join hid _, Path.oneBelow_join hid _,
    splitOn_mount hid⟩

end Container

/-! ## The manifest of a job -/

namespace Cluster

variable {s : Settings} {name : String} {r r' : Request} {manifest : Value}

/-- Where the deadline stands in the manifest of a job. -/
def deadlineAt : List Json.Step := [.member "spec", .member "activeDeadlineSeconds"]

/-- Where the pod of a job is described. -/
def podAt : List Json.Step := [.member "spec", .member "template", .member "spec"]

/-- Where the variable of the request stands. -/
def requestAt : List Json.Step :=
  podAt ++ [.member "containers", .item 0, .member "env", .item 0]

/-- A manifest with the deadline and the request of another request. -/
def withRequest (manifest : Value) (r : Request) : Value :=
  (manifest.replaceAt deadlineAt (.nat r.seconds)).replaceAt (requestAt ++ [.member "value"])
    (.str r.text)

/-- **Jobs of one dataset differ in two values**, the deadline and the text of the request. -/
theorem job_eq_replaced (s : Settings) (name : String) (h : r.datasetId = r'.datasetId) :
    job s name r' = (job s name r).map fun manifest => withRequest manifest r' := by
  rw [job, job, ← h]
  cases Naming.checkDatasetId r.datasetId with
  | error e => rfl
  | ok u =>
    simp only [bind, Except.bind, pure, Except.pure, Except.map]
    congr 1
    simp [withRequest, deadlineAt, requestAt, podAt, Value.replaceAt, pod, container, labels, h,
      environment, variableEntry, Settings.runnerDirectory]

/-- What a manifest says of its request and of the directory of its dataset. The two values that are
its own stand in the deadline and in the variable of the request. The dataset is one name in a
volume that cannot be written, and it is mounted at one name below the root, for reading only. -/
structure Describes (s : Settings) (r : Request) (manifest : Value) : Prop where
  deadline : manifest.at? deadlineAt = some (.nat r.seconds)
  request : manifest.at? requestAt = some (variableEntry requestVariable r.text)
  mounts : ∃ target, Path.OneBelow s.sandboxDataRoot r.datasetId target ∧
    mountsOf manifest =
      [.obj [("name", .str "datasets"), ("mountPath", .str target),
          ("subPath", .str r.datasetId), ("readOnly", .bool true)],
        .obj [("name", .str "tmp"), ("mountPath", .str "/tmp")]]
  volume : manifest.at? (podAt ++ [.member "volumes", .item 0]) =
    some (.obj [("name", .str "datasets"), ("persistentVolumeClaim",
      .obj [("claimName", .str s.cluster.dataClaim), ("readOnly", .bool true)])])
  part : Path.segments r.datasetId = [.name r.datasetId.toList]

theorem describes_of_job (hid : Naming.isDatasetId r.datasetId = true)
    (h : job s name r = .ok manifest) : Describes s r manifest := by
  have hmounts := mountsOf_job h
  obtain ⟨_, -, hmanifest⟩ := bind_eq_ok.mp h
  cases pure_eq_ok.mp hmanifest
  refine ⟨rfl, rfl, ⟨_, Path.oneBelow_join hid _, hmounts⟩, rfl, ?_⟩
  exact Path.segments_of_isDatasetId hid

end Cluster

/-- **A request cannot change its sandbox.** Whatever the settings are, requests for one dataset
have the same command line, and manifests that are equal but for the deadline and the text of the
request. Where the id of the dataset is accepted, what is mounted is one plain name below each
root, for reading only. -/
theorem requests_isolated :
    (∀ (s : Settings) (name : String) (r r' : Request), r.datasetId = r'.datasetId →
      Container.arguments s name r = Container.arguments s name r' ∧
      Cluster.job s name r' =
        (Cluster.job s name r).map fun manifest => Cluster.withRequest manifest r') ∧
    ∀ (s : Settings) (name : String) (r : Request), Naming.isDatasetId r.datasetId = true →
      (∃ args, Container.arguments s name r = .ok args ∧ Container.Mounts s r args) ∧
      ∃ manifest, Cluster.job s name r = .ok manifest ∧ Cluster.Describes s r manifest := by
  constructor
  · intro s name r r' h
    exact ⟨Container.arguments_congr h, Cluster.job_eq_replaced s name h⟩
  · intro s name r hid
    constructor
    · obtain ⟨args, hargs⟩ := Container.exists_arguments s name hid
      exact ⟨args, hargs, Container.mounts_of_arguments hid hargs⟩
    · obtain ⟨manifest, hmanifest⟩ := Cluster.exists_job s name hid
      exact ⟨manifest, hmanifest, Cluster.describes_of_job hid hmanifest⟩

/-- A statement over a dataset. -/
def plainRequest : Request :=
  ⟨"tickets", [⟨"a.csv", "/data/tickets/a.csv"⟩], .sql "SELECT 1", 30, 100, 4096⟩

/-- A script over the same dataset whose texts look like options and mounts. -/
def escapingRequest : Request :=
  ⟨"tickets", [⟨"-v=/:/host", "/etc:/etc"⟩], .script "\"--privileged\" -v /:/host:rw", 1,
    2 ^ 64 - 1, 0⟩

theorem requests_isolated_escaping :
    Container.arguments .default "sqlsandbox-0" plainRequest
        = Container.arguments .default "sqlsandbox-0" escapingRequest ∧
    (∃ args, Container.arguments .default "sqlsandbox-0" escapingRequest = .ok args ∧
      Container.valuesOf "-v" args = ["/srv/sqlsandbox/datasets/tickets:/data/tickets:ro"]) ∧
    ∃ manifest, Cluster.job .default "sqlsandbox-0" plainRequest = .ok manifest ∧
      Cluster.job .default "sqlsandbox-0" escapingRequest
        = .ok (Cluster.withRequest manifest escapingRequest) ∧
      manifest.at? Cluster.deadlineAt = some (.nat 30) := by
  obtain ⟨hsame, hjob⟩ :=
    requests_isolated.1 .default "sqlsandbox-0" plainRequest escapingRequest rfl
  obtain ⟨-, manifest, hmanifest, hdescribes⟩ :=
    requests_isolated.2 .default "sqlsandbox-0" plainRequest (by decide)
  obtain ⟨args, hargs⟩ := Container.exists_arguments .default "sqlsandbox-0"
    (show Naming.isDatasetId escapingRequest.datasetId = true by decide)
  refine ⟨hsame, ⟨args, hargs, ?_⟩, manifest, hmanifest, ?_, hdescribes.deadline⟩
  · rw [Container.valuesOf_mount hargs]
    rfl
  · rw [hjob, hmanifest]
    rfl

end Enclave
