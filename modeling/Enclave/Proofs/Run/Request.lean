import Enclave.Run.Request
import Enclave.Proofs.Json.Variant
import Enclave.Proofs.Text.Lines

/-!
# Requests as texts

A request travels as one line of JSON, in which the kind of its task and the text of the task stand
among the other members. The line decodes to the request (`Request.InWords.decodeText_text`): the
decoder takes the members that are its own, sets the kind and the text of the task aside, and then
reads a task of that kind from them. No string in a request can be taken for a member of it, since
each comes back from its literal as it is. A runner trims the line first, which changes nothing.
-/

namespace Enclave

open Json (Value Doc Scope Numeral docFields)

/-! ## Files -/

namespace FileRef

theorem decoder_ofValue (f : FileRef) {s : Scope} (hguard : Json.guardDepth s = .ok ()) :
    decoder s (Doc.ofValue f.toJson) = .ok f := by
  refine Json.RecordShape.decode_fields ["path", "name"] hguard ?_ (by decide)
  simp only [docFields]
  rw [Json.takeFields_cons rfl rfl (Json.text_ofValue _ f.name),
    Json.takeFields_cons rfl rfl (Json.text_ofValue _ f.path)]
  rfl

theorem numbers_toJson (f : FileRef) : f.toJson.numbers = [] := rfl

theorem nesting_toJson (f : FileRef) : f.toJson.nesting = 1 := rfl

end FileRef

/-! ## Tasks -/

namespace Task

/-- The member that holds the text of a task. -/
def member : Task → String
  | .sql _ => "statement"
  | .script _ => "code"

/-- The members of a task in a request: the tag, and the text. -/
theorem members_eq (t : Task) :
    t.members = [("query_type", .str t.kind.wire), (t.member, .str t.text)] := by
  cases t <;> rfl

/-- The shape that the tag of a task selects. -/
def shape (t : Task) : Json.RecordShape Task :=
  match t.kind with
  | .sql => sqlShape
  | .script => scriptShape

theorem lookup_wire (t : Task) :
    List.lookup t.kind.wire [("sql", sqlShape), ("script", scriptShape)] = some t.shape := by
  cases t <;> rfl

theorem required_shape (t : Task) : t.shape.required = [t.member] := by
  cases t <;> rfl

theorem member_ne_tag (t : Task) : t.member ≠ "query_type" := by
  cases t <;> simp [member]

/-- The member of a task is read as the task. -/
theorem takeFields_member (t : Task) (s : Scope) :
    Json.takeFields t.shape.set s [] t.shape.start (docFields [(t.member, .str t.text)])
      = .ok ([t.member], t) := by
  cases t <;> rfl

end Task

namespace Request

/-! ## The document -/

/-- A request whose numbers are words. -/
structure InWords (r : Request) : Prop where
  seconds : r.seconds < 2 ^ 64
  maxRows : r.maxRows < 2 ^ 64
  maxOutputBytes : r.maxOutputBytes < 2 ^ 64

variable {r : Request}

/-- The members of the document of a request. -/
def members (r : Request) : List (String × Value) :=
  [("dataset_id", .str r.datasetId), ("files", .arr (r.files.map FileRef.toJson)),
    ("query_type", .str r.task.kind.wire), (r.task.member, .str r.task.text),
    ("timeout_seconds", .nat r.seconds), ("max_rows", .nat r.maxRows),
    ("max_output_bytes", .nat r.maxOutputBytes)]

theorem toJson_eq (r : Request) : r.toJson = .obj r.members := by
  rw [toJson, Task.members_eq]
  rfl

theorem InWords.numbers (h : r.InWords) : ∀ n ∈ r.toJson.numbers, n.Carried := by
  have hfiles : Json.itemNumbers (r.files.map FileRef.toJson) = [] := by
    simp [Json.itemNumbers_eq, FileRef.numbers_toJson]
  obtain ⟨hseconds, hrows, hbytes⟩ := h
  intro n hn
  rw [toJson_eq] at hn
  simp only [members, Value.numbers, Json.fieldNumbers, hfiles, Value.nat, List.nil_append,
    List.append_nil, List.cons_append, List.mem_cons, List.not_mem_nil, or_false] at hn
  rcases hn with rfl | rfl | rfl <;> constructor <;> omega

theorem nesting_toJson (r : Request) : r.toJson.nesting ≤ 3 := by
  have hfiles : Value.itemNesting (r.files.map FileRef.toJson) ≤ 1 := by
    rw [Value.itemNesting_le_iff, List.forall_mem_map]
    exact fun f _ => Nat.le_of_eq f.nesting_toJson
  rw [toJson_eq]
  simp only [members, Value.nesting, Value.fieldNesting, Value.nat]
  omega

/-- The document of a request decodes to the request. -/
theorem InWords.decoder_ofValue (h : r.InWords) :
    decoder .ofText (Doc.ofValue r.toJson) = .ok r := by
  have hguard (depth : Nat) : Json.guardDepth ⟨.text, depth + 1⟩ = .ok () :=
    Json.guardDepth_of_pos (Nat.succ_pos depth)
  have hfiles : Json.list FileRef.decoder Scope.ofText.inner
      (Doc.ofValue (.arr (r.files.map FileRef.toJson))) = .ok r.files :=
    Json.list_ofValues (hguard _) fun f _ => f.decoder_ofValue (hguard _)
  have hother : shape.set r.task.member = none := by
    cases r.task <;> rfl
  -- The members of the record are taken in their order; the tag and the text are set aside.
  have htake : Json.takeSome shape.set Scope.ofText.inner [] shape.start [] (docFields r.members)
      = .ok (["max_output_bytes", "max_rows", "timeout_seconds", "files", "dataset_id"],
        { r with task := .sql "" },
        docFields [("query_type", .str r.task.kind.wire), (r.task.member, .str r.task.text)]) := by
    simp only [members, docFields]
    rw [Json.takeSome_cons rfl rfl (Json.text_ofValue _ r.datasetId),
      Json.takeSome_cons rfl rfl hfiles,
      Json.takeSome_aside rfl (Nat.zero_le _), Json.takeSome_aside hother (Nat.zero_le _),
      Json.takeSome_cons rfl rfl (Json.word_ofValue 64 "u64" _ h.seconds),
      Json.takeSome_cons rfl rfl (Json.word_ofValue 64 "u64" _ h.maxRows),
      Json.takeSome_cons rfl rfl (Json.word_ofValue 64 "u64" _ h.maxOutputBytes)]
    rfl
  have hdepth : Value.fieldNesting [(r.task.member, .str r.task.text)] < Scope.ofText.depth :=
    show 0 < Json.maxDepth by decide
  rw [toJson_eq]
  exact Json.spreadVariant_ofValue
    ["max_output_bytes", "max_rows", "timeout_seconds", "files", "dataset_id"] [r.task.member]
    { r with task := .sql "" } htake (by decide) r.task.lookup_wire
    (by simpa using r.task.member_ne_tag) hdepth (r.task.takeFields_member _)
    (by simp [Task.required_shape])

/-! ## The text -/

/-- The text of a request decodes to the request. -/
theorem InWords.decodeText_text (h : r.InWords) : Json.decodeText decoder r.text = .ok r :=
  (Json.decodeText_compact h.numbers).trans h.decoder_ofValue

/-- There is nothing around the text that a runner would trim. -/
theorem trim_text (r : Request) : Text.trim r.text = r.text := Json.trim_compact_obj _

/-- The tag in the text names the kind of the task. -/
theorem InWords.tag_text (h : r.InWords) :
    ∃ v, Value.parse r.text = .ok v ∧ v.get? "query_type" = some (.str r.task.kind.wire) := by
  refine ⟨_, Value.parse_compact h.numbers (r.nesting_toJson.trans (by decide)), ?_⟩
  rw [toJson_eq, members, Value.canonical, Value.get?, Value.lookup_canonicalFields]
  cases r.task <;> rfl

end Request

end Enclave
