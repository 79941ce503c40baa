import Enclave.Backend.Basic

/-!
# Manifests of the cluster

The objects that the cluster backend applies: one network policy, which cuts the pods of all
runners off, and a job for each dispatch. A job runs once, without a service account, as a user
without rights, on a root that cannot be written; the request travels in an environment variable.
-/

namespace Enclave.Cluster

open Json (Value)

/-- The label of the pods of runners. -/
def runnerLabel : String × Value := ("app.kubernetes.io/component", .str "sqlsandbox-runner")

/-- The variable in which a request travels. -/
def requestVariable : String := "SQLSANDBOX_REQUEST"

def policyName : String := "sqlsandbox-runner-deny-all"

/-- The name of the container in the pod of a job. -/
def containerName : String := "runner"

/-- The network policy: nothing may reach a runner, and a runner may reach nothing. -/
def networkPolicy (s : Settings) : Value :=
  .obj [
    ("apiVersion", .str "networking.k8s.io/v1"),
    ("kind", .str "NetworkPolicy"),
    ("metadata", .obj [("name", .str policyName), ("namespace", .str s.cluster.space)]),
    ("spec", .obj [
      ("podSelector", .obj [("matchLabels", .obj [runnerLabel])]),
      ("policyTypes", .strings ["Ingress", "Egress"]),
      ("ingress", .arr []),
      ("egress", .arr [])])]

/-- An entry of the environment of a container. -/
def variableEntry (name value : String) : Value :=
  .obj [("name", .str name), ("value", .str value)]

/-- The environment of the runner; the request stands first. -/
def environment (s : Settings) (r : Request) : List Value :=
  variableEntry requestVariable r.text ::
    s.runnerEnvironment.map fun kv => variableEntry kv.1 kv.2

/-- The labels of a job and its pod. -/
def labels (r : Request) : Value := .obj [runnerLabel, ("sqlsandbox/dataset", .str r.datasetId)]

/-- A size in binary megabytes. -/
def mebibytes (n : Nat) : Value := .str (Decimal.natText n ++ "Mi")

/-- Thousandths of a processor; a share that is no number counts as none. -/
def millicpus (cpus : Float) : Nat := (cpus * 1000.0).round.toUInt64.toNat

/-- What a runner may take; it is also what it asks for. -/
def resources (s : Settings) : Value :=
  .obj [("memory", mebibytes s.limits.memoryMb),
    ("cpu", .str (Decimal.natText (millicpus s.limits.cpus) ++ "m"))]

/-- The container of a job. -/
def container (s : Settings) (r : Request) : Value :=
  .obj [
    ("name", .str containerName),
    ("image", .str s.runnerImage),
    ("args", .strings ["--request-env", requestVariable]),
    ("env", .arr (environment s r)),
    ("resources", .obj [("limits", resources s), ("requests", resources s)]),
    ("securityContext", .obj [
      ("allowPrivilegeEscalation", .bool false),
      ("readOnlyRootFilesystem", .bool true),
      ("capabilities", .obj [("drop", .strings ["ALL"])])]),
    ("volumeMounts", .arr [
      .obj [("name", .str "datasets"), ("mountPath", .str (s.runnerDirectory r)),
        ("subPath", .str r.datasetId), ("readOnly", .bool true)],
      .obj [("name", .str "tmp"), ("mountPath", .str "/tmp")]])]

/-- The volumes of a pod: the datasets for reading only, and a small one in memory. -/
def volumes (s : Settings) : Value :=
  .arr [
    .obj [("name", .str "datasets"),
      ("persistentVolumeClaim", .obj [("claimName", .str s.cluster.dataClaim),
        ("readOnly", .bool true)])],
    .obj [("name", .str "tmp"),
      ("emptyDir", .obj [("medium", .str "Memory"), ("sizeLimit", mebibytes s.container.tmpfsMb)])]]

/-- The pod of a job. -/
def pod (s : Settings) (r : Request) : Value :=
  .obj [
    ("restartPolicy", .str "Never"),
    ("automountServiceAccountToken", .bool false),
    ("enableServiceLinks", .bool false),
    ("securityContext", .obj [
      ("runAsNonRoot", .bool true),
      ("runAsUser", .nat s.cluster.user),
      ("runAsGroup", .nat s.cluster.group),
      ("seccompProfile", .obj [("type", .str "RuntimeDefault")])]),
    ("containers", .arr [container s r]),
    ("volumes", volumes s)]

/-- The job of a request. -/
def job (s : Settings) (name : String) (r : Request) : Outcome Value := do
  Naming.checkDatasetId r.datasetId
  return .obj [
    ("apiVersion", .str "batch/v1"),
    ("kind", .str "Job"),
    ("metadata", .obj [("name", .str name), ("namespace", .str s.cluster.space),
      ("labels", labels r)]),
    ("spec", .obj [
      ("backoffLimit", .nat 0),
      ("activeDeadlineSeconds", .nat r.seconds),
      ("ttlSecondsAfterFinished", .nat s.cluster.keepSeconds),
      ("template", .obj [("metadata", .obj [("labels", labels r)]), ("spec", pod s r)])])]

/-- The text of a manifest, the members of each object in the order of their names. -/
def manifestText (v : Value) : String := v.canonical.compact

end Enclave.Cluster
