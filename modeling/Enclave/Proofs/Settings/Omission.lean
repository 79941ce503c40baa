import Enclave.Proofs.Backend.Transport
import Enclave.Proofs.Json.Abridged
import Enclave.Proofs.Run.Retries

/-!
# Settings with members left out

Every member of a document of settings may be missing, at its top and inside of a section. Each
missing member leaves its own default and touches no other (`Settings.without`,
`Settings.Carried.decoder_abridged`). The sections are decoded alike: each is a record whose fields
all have defaults.
-/

namespace Enclave

open Json (Value Doc Scope Abridges AbridgesDeep)

/-! ## Sections with members left out -/

namespace Limits

/-- The limits with the fields that are left out at their defaults. -/
def without (gone : String → Bool) (l : Limits) : Limits where
  memoryMb := if gone "memory_mb" then default.memoryMb else l.memoryMb
  cpus := if gone "cpus" then default.cpus else l.cpus
  processes := if gone "max_processes" then default.processes else l.processes
  cpuSeconds := if gone "cpu_seconds" then default.cpuSeconds else l.cpuSeconds
  threads := if gone "max_threads" then default.threads else l.threads

theorem Carried.decoder_abridged {l : Limits} (h : l.Carried) {s : Scope} (hs : 0 < s.depth)
    {gone : String → Bool} {w : Value} (hw : Abridges gone l.toJson w) :
    decoder s (Doc.ofValue w) = .ok (l.without gone) := by
  rw [toJson, h.floatJson] at hw
  refine Json.RecordShape.decode_abridged (fun gone => l.without gone)
    (Json.guardDepth_of_pos hs) rfl rfl ?_ (by simp) ?_ hw
  · simp only [List.forall_mem_cons, List.not_mem_nil, false_imp_iff, implies_true, and_true]
    refine ⟨Json.fills_of_field rfl (Json.word_ofValue 64 "usize" _ h.memoryMb) ?_,
      Json.fills_of_field rfl rfl ?_,
      Json.fills_of_field rfl (Json.word_ofValue 64 "u64" _ h.processes) ?_,
      Json.fills_of_field rfl (Json.word_ofValue 64 "u64" _ h.cpuSeconds) ?_,
      Json.fills_of_field rfl (Json.word_ofValue 32 "u32" _ h.threads) ?_⟩
    all_goals simp [without, Json.unmet]
  · intro g hg
    simp only [List.map_cons, List.map_nil, List.forall_mem_cons] at hg
    simp only [without, hg]

end Limits

namespace ContainerSettings

/-- The settings with the fields that are left out at their defaults. -/
def without (gone : String → Bool) (c : ContainerSettings) : ContainerSettings where
  command := if gone "docker_path" then default.command else c.command
  user := if gone "user" then default.user else c.user
  tmpfsMb := if gone "tmpfs_mb" then default.tmpfsMb else c.tmpfsMb

theorem decoder_abridged {c : ContainerSettings} (h : c.tmpfsMb < 2 ^ 64) {s : Scope}
    (hs : 0 < s.depth) {gone : String → Bool} {w : Value} (hw : Abridges gone c.toJson w) :
    decoder s (Doc.ofValue w) = .ok (c.without gone) := by
  refine Json.RecordShape.decode_abridged (fun gone => c.without gone)
    (Json.guardDepth_of_pos hs) rfl rfl ?_ (by simp) ?_ hw
  · simp only [List.forall_mem_cons, List.not_mem_nil, false_imp_iff, implies_true, and_true]
    refine ⟨Json.fills_of_field rfl rfl ?_,
      Json.fills_of_field rfl (Json.text_ofValue _ _) ?_,
      Json.fills_of_field rfl (Json.word_ofValue 64 "u64" _ h) ?_⟩
    all_goals simp [without, Json.unmet]
  · intro g hg
    simp only [List.map_cons, List.map_nil, List.forall_mem_cons] at hg
    simp only [without, hg]

end ContainerSettings

namespace ClusterSettings

/-- The settings with the fields that are left out at their defaults. -/
def without (gone : String → Bool) (c : ClusterSettings) : ClusterSettings where
  command := if gone "kubectl_path" then default.command else c.command
  space := if gone "namespace" then default.space else c.space
  dataClaim := if gone "data_claim" then default.dataClaim else c.dataClaim
  user := if gone "run_as_user" then default.user else c.user
  group := if gone "run_as_group" then default.group else c.group
  pollMs := if gone "poll_interval_ms" then default.pollMs else c.pollMs
  keepSeconds := if gone "ttl_seconds_after_finished" then default.keepSeconds else c.keepSeconds

theorem InWords.decoder_abridged {c : ClusterSettings} (h : c.InWords) (hpoll : c.pollMs < 2 ^ 64)
    {s : Scope} (hs : 0 < s.depth) {gone : String → Bool} {w : Value}
    (hw : Abridges gone c.toJson w) : decoder s (Doc.ofValue w) = .ok (c.without gone) := by
  refine Json.RecordShape.decode_abridged (fun gone => c.without gone)
    (Json.guardDepth_of_pos hs) rfl rfl ?_ (by simp) ?_ hw
  · simp only [List.forall_mem_cons, List.not_mem_nil, false_imp_iff, implies_true, and_true]
    refine ⟨Json.fills_of_field rfl rfl ?_,
      Json.fills_of_field rfl (Json.text_ofValue _ _) ?_,
      Json.fills_of_field rfl (Json.text_ofValue _ _) ?_,
      Json.fills_of_field rfl (Json.word_ofValue 32 "u32" _ h.user) ?_,
      Json.fills_of_field rfl (Json.word_ofValue 32 "u32" _ h.group) ?_,
      Json.fills_of_field rfl (Json.word_ofValue 64 "u64" _ hpoll) ?_,
      Json.fills_of_field rfl (Json.word_ofValue 32 "u32" _ h.keepSeconds) ?_⟩
    all_goals simp [without, Json.unmet]
  · intro g hg
    simp only [List.map_cons, List.map_nil, List.forall_mem_cons] at hg
    simp only [without, hg]

end ClusterSettings

namespace RetryPolicy

/-- The policy with the fields that are left out at their defaults. -/
def without (gone : String → Bool) (p : RetryPolicy) : RetryPolicy where
  attempts := if gone "max_attempts" then default.attempts else p.attempts
  initialMs := if gone "initial_backoff_ms" then default.initialMs else p.initialMs
  maxMs := if gone "max_backoff_ms" then default.maxMs else p.maxMs

theorem OfWords.decoder_abridged {p : RetryPolicy} (h : p.OfWords) {s : Scope} (hs : 0 < s.depth)
    {gone : String → Bool} {w : Value} (hw : Abridges gone p.toJson w) :
    decoder s (Doc.ofValue w) = .ok (p.without gone) := by
  refine Json.RecordShape.decode_abridged (fun gone => p.without gone)
    (Json.guardDepth_of_pos hs) rfl rfl ?_ (by simp) ?_ hw
  · simp only [List.forall_mem_cons, List.not_mem_nil, false_imp_iff, implies_true, and_true]
    refine ⟨Json.fills_of_field rfl (Json.word_ofValue 32 "u32" _ h.attempts) ?_,
      Json.fills_of_field rfl (Json.word_ofValue 64 "u64" _ h.initialMs) ?_,
      Json.fills_of_field rfl (Json.word_ofValue 64 "u64" _ h.maxMs) ?_⟩
    all_goals simp [without, Json.unmet]
  · intro g hg
    simp only [List.map_cons, List.map_nil, List.forall_mem_cons] at hg
    simp only [without, hg]

end RetryPolicy

namespace BudgetCeiling

/-- Ceilings that are words. -/
structure InWords (c : BudgetCeiling) : Prop where
  seconds : c.seconds < 2 ^ 64
  rows : c.rows < 2 ^ 64
  outputBytes : c.outputBytes < 2 ^ 64

/-- The ceilings with those that are left out at their defaults. -/
def without (gone : String → Bool) (c : BudgetCeiling) : BudgetCeiling where
  seconds := if gone "max_timeout_seconds" then default.seconds else c.seconds
  rows := if gone "max_rows" then default.rows else c.rows
  outputBytes := if gone "max_output_bytes" then default.outputBytes else c.outputBytes

theorem InWords.decoder_abridged {c : BudgetCeiling} (h : c.InWords) {s : Scope} (hs : 0 < s.depth)
    {gone : String → Bool} {w : Value} (hw : Abridges gone c.toJson w) :
    decoder s (Doc.ofValue w) = .ok (c.without gone) := by
  refine Json.RecordShape.decode_abridged (fun gone => c.without gone)
    (Json.guardDepth_of_pos hs) rfl rfl ?_ (by simp) ?_ hw
  · simp only [List.forall_mem_cons, List.not_mem_nil, false_imp_iff, implies_true, and_true]
    refine ⟨Json.fills_of_field rfl (Json.word_ofValue 64 "u64" _ h.seconds) ?_,
      Json.fills_of_field rfl (Json.word_ofValue 64 "u64" _ h.rows) ?_,
      Json.fills_of_field rfl (Json.word_ofValue 64 "u64" _ h.outputBytes) ?_⟩
    all_goals simp [without, Json.unmet]
  · intro g hg
    simp only [List.map_cons, List.map_nil, List.forall_mem_cons] at hg
    simp only [without, hg]

end BudgetCeiling

/-! ## Settings with members left out -/

/-- Which members are left out of a document of settings: of its top, and of a section. -/
structure Omission where
  top : String → Bool
  within : String → String → Bool

namespace Settings

variable {s : Settings}

/-- The members that are objects of settings. -/
def sections : List String := ["limits", "container", "cluster", "retry", "budget"]

/-- The settings with the fields that are left out at their defaults. -/
def without (o : Omission) (s : Settings) : Settings where
  mode := if o.top "mode" then default.mode else s.mode
  runnerImage := if o.top "runner_image" then default.runnerImage else s.runnerImage
  hostDataRoot := if o.top "host_data_root" then default.hostDataRoot else s.hostDataRoot
  sandboxDataRoot :=
    if o.top "sandbox_data_root" then default.sandboxDataRoot else s.sandboxDataRoot
  limits := if o.top "limits" then .default else s.limits.without (o.within "limits")
  container := if o.top "container" then .default else s.container.without (o.within "container")
  cluster := if o.top "cluster" then .default else s.cluster.without (o.within "cluster")
  retry := if o.top "retry" then .default else s.retry.without (o.within "retry")
  budget := if o.top "budget" then .default else s.budget.without (o.within "budget")
  maxPlanLimit := if o.top "max_plan_limit" then default.maxPlanLimit else s.maxPlanLimit
  scriptEnabled := if o.top "script_enabled" then default.scriptEnabled else s.scriptEnabled
  importPolicy := if o.top "import_policy" then default.importPolicy else s.importPolicy

/-- The sections of a document of settings are objects. -/
theorem obj_of_section {kvs : Json.Fields} (h : s.toJson = .obj kvs) :
    ∀ kv ∈ kvs, kv.1 ∈ sections → ∃ fields, kv.2 = .obj fields := by
  cases h
  intro kv hkv hsection
  simp only [List.mem_cons, List.not_mem_nil, or_false] at hkv
  rcases hkv with rfl | rfl | rfl | rfl | rfl | rfl | rfl | rfl | rfl | rfl | rfl | rfl
  all_goals first | exact ⟨_, rfl⟩ | simp [sections] at hsection

/-- Whatever is left out, there is a document of the rest. -/
theorem exists_left (s : Settings) (o : Omission) :
    ∃ doc, AbridgesDeep sections o.top o.within s.toJson doc :=
  ⟨_, .of_perm (obj_of_section rfl) .rfl⟩

/-- Settings that their document carries: words, and a share of processors that travels. -/
structure Carried (s : Settings) : Prop where
  limits : s.limits.Carried
  tmpfsMb : s.container.tmpfsMb < 2 ^ 64
  cluster : s.cluster.InWords
  pollMs : s.cluster.pollMs < 2 ^ 64
  retry : s.retry.OfWords
  budget : s.budget.InWords
  maxPlanLimit : s.maxPlanLimit < 2 ^ 64

/-- The numbers of a document of settings are those of its sections, and the limit of plans. -/
theorem Carried.numbers (h : s.Carried) : ∀ n ∈ s.toJson.numbers, n.Carried := by
  obtain ⟨hlimits, htmpfs, ⟨huser, hgroup, hkeep⟩, hpoll, ⟨hattempts, hinitial, hmax⟩,
    ⟨hseconds, hrows, hbytes⟩, hplan⟩ := h
  intro n hn
  simp only [toJson, Value.numbers, Json.fieldNumbers, ImportPolicy.numbers_toJson,
    ContainerSettings.toJson, ClusterSettings.toJson, RetryPolicy.toJson, BudgetCeiling.toJson,
    Value.nat, List.nil_append, List.append_nil, List.cons_append, List.mem_append,
    List.mem_cons, List.not_mem_nil, or_false] at hn
  rcases hn with hn | hn
  · exact hlimits.numbers n hn
  · rcases hn with rfl | rfl | rfl | rfl | rfl | rfl | rfl | rfl | rfl | rfl | rfl | rfl
    all_goals constructor <;> omega

/-- **What is left of a document of settings** is decoded to the settings, with the defaults where
something is missing. -/
theorem Carried.decoder_abridged (h : s.Carried) {o : Omission} {w : Value}
    (hw : AbridgesDeep sections o.top o.within s.toJson w) :
    decoder .ofText (Doc.ofValue w)
      = .ok ({ s with importPolicy := s.importPolicy.ordered }.without o) := by
  have htop : Json.guardDepth .ofText = .ok () := Json.guardDepth_of_pos (by decide)
  refine Json.RecordShape.decode_abridgedDeep
    (fun top => { s with importPolicy := s.importPolicy.ordered }.without ⟨top, o.within⟩)
    htop ?_ ?_ ?_ (by simp) ?_ hw
  · rfl
  · rfl
  · have hlevel : 0 < Scope.ofText.inner.depth := by decide
    simp only [List.forall_mem_cons, List.not_mem_nil, false_imp_iff, implies_true, and_true]
    have hmode : Mode.decoder Scope.ofText.inner (Doc.ofValue (.str s.mode.wire)) = .ok s.mode := by
      cases s.mode <;> rfl
    refine ⟨Json.fills_of_plain (by decide) rfl hmode ?_,
      Json.fills_of_plain (by decide) rfl (Json.text_ofValue _ _) ?_,
      Json.fills_of_plain (by decide) rfl rfl ?_,
      Json.fills_of_plain (by decide) rfl rfl ?_,
      Json.fills_of_section (by decide) rfl (fun _ => h.limits.decoder_abridged hlevel) ?_,
      Json.fills_of_section (by decide) rfl
        (fun _ => ContainerSettings.decoder_abridged h.tmpfsMb hlevel) ?_,
      Json.fills_of_section (by decide) rfl
        (fun _ => h.cluster.decoder_abridged h.pollMs hlevel) ?_,
      Json.fills_of_section (by decide) rfl (fun _ => h.retry.decoder_abridged hlevel) ?_,
      Json.fills_of_section (by decide) rfl (fun _ => h.budget.decoder_abridged hlevel) ?_,
      Json.fills_of_plain (by decide) rfl (Json.word_ofValue 64 "u64" _ h.maxPlanLimit) ?_,
      Json.fills_of_plain (by decide) rfl (Json.flag_ofValue _ _) ?_,
      Json.fills_of_plain (by decide) rfl (s.importPolicy.decoder_ofValue (by decide)) ?_⟩
    all_goals simp [without, Json.unmet]
  · intro g hg
    simp only [List.map_cons, List.map_nil, List.forall_mem_cons] at hg
    simp only [without, hg]

/-- Settings that differ in how the modules of their import policies are listed. -/
structure Same (s s' : Settings) : Prop where
  importPolicy : s.importPolicy.Same s'.importPolicy
  rest : { s with importPolicy := s'.importPolicy } = s'

/-- Leaving members out of both leaves the same settings: the defaults are one policy. -/
theorem without_same (s : Settings) (o : Omission) :
    ({ s with importPolicy := s.importPolicy.ordered }.without o).Same (s.without o) where
  importPolicy := by
    simp only [without]
    split
    · exact .refl _
    · exact s.importPolicy.ordered_same
  rest := rfl

end Settings

end Enclave
