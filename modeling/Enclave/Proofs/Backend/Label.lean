import Enclave.Proofs.Backend.Isolation
import Enclave.Proofs.Text.Cut

/-!
# Where the id of a dataset stands

The backends put the id of a dataset into paths, into the mount of a container and into the labels
of a job. An accepted id is a part of a path that is no step, it has nothing that separates paths or
mounts, and it does not look like an option (`Naming.Plain`). A label has one rule more: it begins
and ends with a letter or a digit. Of an id only the hyphen in front is refused, so an accepted id
may be no label (`Cluster.isLabelValue_iff`). A container is started for such a request, and the
cluster turns its job away.
-/

namespace Enclave

open Json (Value)

/-! ## Paths, mounts and options -/

/-- A text that can stand in a path, in a mount and behind an option. -/
structure Naming.Plain (id : String) : Prop where
  segment : Path.segments id = [.name id.toList]
  notHere : id ≠ "."
  notParent : id ≠ ".."
  noColon : ':' ∉ id.toList
  noSlash : '/' ∉ id.toList
  notOption : Container.isOption id = false

namespace Naming

variable {id : String}

theorem plain_of_isDatasetId (h : isDatasetId id = true) : Plain id where
  segment := Path.segments_of_isDatasetId h
  notHere := by
    rintro rfl
    cases h
  notParent := by
    rintro rfl
    cases h
  noColon := notMem_of_isDatasetId h (by decide)
  noSlash := notMem_of_isDatasetId h (by decide)
  notOption := by
    simp only [isDatasetId, Bool.and_eq_true, bne_iff_ne] at h
    exact beq_eq_false_iff_ne.mpr h.2

/-- A character of an id that is no mark is a letter or a digit. -/
theorem isAlphanum_of_mem (h : isDatasetId id = true) {c : Char} (hc : c ∈ id.toList)
    (hhyphen : c ≠ '-') (hunderscore : c ≠ '_') : c.isAlphanum = true := by
  have hid := isIdChar_of_mem h hc
  simpa [isIdChar, hhyphen, hunderscore] using hid

end Naming

/-! ## Labels -/

namespace Cluster

/-- A value that a cluster accepts for a label. -/
structure IsLabelValue (value : String) : Prop where
  length : value.length ≤ 63
  chars : ∀ c ∈ value.toList, c.isAlphanum = true ∨ c = '-' ∨ c = '_' ∨ c = '.'
  first : ∃ c, value.toList.head? = some c ∧ c.isAlphanum = true
  last : ∃ c, value.toList.getLast? = some c ∧ c.isAlphanum = true

/-- The ends of a label are no marks. -/
theorem IsLabelValue.ends {value : String} (h : IsLabelValue value) :
    value.toList.head? ≠ some '_' ∧ value.toList.getLast? ≠ some '-' ∧
      value.toList.getLast? ≠ some '_' := by
  obtain ⟨c, hfirst, hc⟩ := h.first
  obtain ⟨d, hlast, hd⟩ := h.last
  rw [hfirst, hlast]
  refine ⟨?_, ?_, ?_⟩
  · rintro ⟨⟩
    cases hc
  · rintro ⟨⟩
    cases hd
  · rintro ⟨⟩
    cases hd

/-- **Which ids are labels**: those with no underscore in front, and no mark in the end. -/
theorem isLabelValue_iff {id : String} (h : Naming.isDatasetId id = true) :
    IsLabelValue id ↔ id.toList.head? ≠ some '_' ∧ id.toList.getLast? ≠ some '-' ∧
      id.toList.getLast? ≠ some '_' := by
  refine ⟨IsLabelValue.ends, ?_⟩
  rintro ⟨hfront, hhyphen, hunderscore⟩
  have hne := Naming.toList_ne_nil h
  have hfirst := List.head?_eq_some_head hne
  have hlast := List.getLast?_eq_some_getLast hne
  have hplain : id.toList.head? ≠ some '-' := by
    intro hhead
    have hoption := (Naming.plain_of_isDatasetId h).notOption
    rw [Container.isOption, hhead] at hoption
    cases hoption
  rw [hfirst] at hfront hplain
  rw [hlast] at hhyphen hunderscore
  refine ⟨?_, ?_, ⟨_, hfirst, ?_⟩, ⟨_, hlast, ?_⟩⟩
  · have hsize := Text.length_le_size id.toList
    rw [String.length_toList, String.ofList_toList] at hsize
    simp only [Naming.isDatasetId, Bool.and_eq_true, decide_eq_true_eq] at h
    exact hsize.trans h.1.1.2
  · intro c hc
    have hid := Naming.isIdChar_of_mem h hc
    simp only [Naming.isIdChar, Bool.or_eq_true, beq_iff_eq] at hid
    tauto
  · exact Naming.isAlphanum_of_mem h (List.head_mem hne) (fun heq => hplain (congrArg some heq))
      fun heq => hfront (congrArg some heq)
  · exact Naming.isAlphanum_of_mem h (List.getLast_mem hne)
      (fun heq => hhyphen (congrArg some heq)) fun heq => hunderscore (congrArg some heq)

/-- The members of an object; none of what is no object. -/
def fields : Value → List (String × Value)
  | .obj kvs => kvs
  | _ => []

/-- The labels of a job and of its pod. -/
def labelsOf (manifest : Value) : List (String × Value) :=
  fields (member.along manifest ["metadata", "labels"]) ++
    fields (member.along manifest ["spec", "template", "metadata", "labels"])

/-- A manifest that a cluster does not turn away for its labels. -/
def Admits (manifest : Value) : Prop :=
  ∀ l ∈ labelsOf manifest, ∃ value, l.2 = .str value ∧ IsLabelValue value

variable {s : Settings} {name : String} {r : Request} {manifest : Value}

/-- A job and its pod are labelled alike: as a runner, and with the dataset. -/
theorem labelsOf_job (h : job s name r = .ok manifest) :
    labelsOf manifest = [runnerLabel, ("sqlsandbox/dataset", .str r.datasetId), runnerLabel,
      ("sqlsandbox/dataset", .str r.datasetId)] := by
  obtain ⟨_, -, hmanifest⟩ := bind_eq_ok.mp h
  rw [← pure_eq_ok.mp hmanifest]
  rfl

theorem isLabelValue_runner : IsLabelValue "sqlsandbox-runner" :=
  (isLabelValue_iff (by decide)).mpr (by decide)

/-- A cluster turns a job away for its labels where the id of the dataset is no label. -/
theorem admits_job_iff (h : job s name r = .ok manifest) :
    Admits manifest ↔ IsLabelValue r.datasetId := by
  rw [Admits, labelsOf_job h]
  constructor
  · intro hall
    obtain ⟨value, heq, hvalue⟩ := hall ("sqlsandbox/dataset", .str r.datasetId) (by simp)
    cases heq
    exact hvalue
  · intro hid l hl
    simp only [List.mem_cons, List.not_mem_nil, or_false] at hl
    rcases hl with rfl | rfl | rfl | rfl
    · exact ⟨_, rfl, isLabelValue_runner⟩
    · exact ⟨_, rfl, hid⟩
    · exact ⟨_, rfl, isLabelValue_runner⟩
    · exact ⟨_, rfl, hid⟩

end Cluster

/-- **An accepted id fits wherever the backends put it, but for the ends of a label.** It is one
part of a path and no step, it separates nothing and is no option. Every request for such a dataset
has a command line that mounts the one directory, and a manifest that describes it. A cluster admits
the manifest exactly if the id has no underscore in front and no mark in the end. -/
theorem datasetId_fits {id : String} (h : Naming.isDatasetId id = true) :
    Naming.Plain id ∧
    (Cluster.IsLabelValue id ↔ id.toList.head? ≠ some '_' ∧ id.toList.getLast? ≠ some '-' ∧
      id.toList.getLast? ≠ some '_') ∧
    ∀ (s : Settings) (name : String) (r : Request), r.datasetId = id →
      (∃ args, Container.arguments s name r = .ok args ∧ Container.Mounts s r args) ∧
      ∃ manifest, Cluster.job s name r = .ok manifest ∧ Cluster.Describes s r manifest ∧
        (Cluster.Admits manifest ↔ Cluster.IsLabelValue id) := by
  refine ⟨Naming.plain_of_isDatasetId h, Cluster.isLabelValue_iff h, ?_⟩
  rintro s name r rfl
  obtain ⟨args, hargs⟩ := Container.exists_arguments s name h
  obtain ⟨manifest, hmanifest⟩ := Cluster.exists_job s name h
  exact ⟨⟨args, hargs, Container.mounts_of_arguments h hargs⟩, manifest, hmanifest,
    Cluster.describes_of_job h hmanifest, Cluster.admits_job_iff hmanifest⟩

theorem datasetId_fits_support :
    Naming.isDatasetId "support_2024" = true ∧ Naming.Plain "support_2024" ∧
      Cluster.IsLabelValue "support_2024" := by
  have hid : Naming.isDatasetId "support_2024" = true := by decide
  obtain ⟨hplain, hlabel, -⟩ := datasetId_fits hid
  exact ⟨hid, hplain, hlabel.mpr (by decide)⟩

/-- A request for a dataset whose id ends with an underscore. -/
def trailingRequest : Request := { plainRequest with datasetId := "tickets_" }

/-- A container is started for it, and its job is turned away. -/
theorem datasetId_noLabel :
    Naming.isDatasetId "tickets_" = true ∧ ¬ Cluster.IsLabelValue "tickets_" ∧
    (∃ args, Container.arguments .default "sqlsandbox-0" trailingRequest = .ok args) ∧
    ∃ manifest, Cluster.job .default "sqlsandbox-0" trailingRequest = .ok manifest ∧
      ¬ Cluster.Admits manifest := by
  have hid : Naming.isDatasetId trailingRequest.datasetId = true := by decide
  have hlabel : ¬ Cluster.IsLabelValue "tickets_" := fun h => h.ends.2.2 (by decide)
  obtain ⟨manifest, hmanifest⟩ := Cluster.exists_job .default "sqlsandbox-0" hid
  exact ⟨hid, hlabel, Container.exists_arguments .default "sqlsandbox-0" hid, manifest, hmanifest,
    fun h => hlabel ((Cluster.admits_job_iff hmanifest).mp h)⟩

end Enclave
