import Enclave.Proofs.Path.Resolution
import Enclave.Naming

/-!
# Names joined to a root

An id of a dataset is letters, digits, hyphens and underscores, so nothing that separates paths
stands in it and it is no step. Joined to a root it is one more segment, whatever the root is:
empty, with or without a slash in the end, absolute or not (`oneBelow_join`).
-/

namespace Enclave

/-! ## Ids of datasets -/

namespace Naming

variable {id : String}

/-- Every character of an id is one of a few. -/
theorem isIdChar_of_mem (h : isDatasetId id = true) {c : Char} (hc : c ∈ id.toList) :
    isIdChar c = true := by
  simp only [isDatasetId, Bool.and_eq_true, List.all_eq_true] at h
  exact h.1.2 c hc

/-- What separates paths and mounts stands in no id. -/
theorem notMem_of_isDatasetId (h : isDatasetId id = true) {c : Char} (hc : isIdChar c = false) :
    c ∉ id.toList := by
  intro hmem
  rw [isIdChar_of_mem h hmem] at hc
  cases hc

theorem toList_ne_nil (h : isDatasetId id = true) : id.toList ≠ [] := by
  simp only [isDatasetId, Bool.and_eq_true] at h
  intro hnil
  have hempty : id = "" := String.toList_eq_nil_iff.mp hnil
  subst hempty
  simp at h

end Naming

/-! ## One name below a root -/

namespace Path

theorem pieces_append_slash (cs rest : List Char) :
    pieces (cs ++ '/' :: rest) = pieces cs ++ pieces rest := by
  induction cs with
  | nil => exact Tree.pieces_slash rest
  | cons c cs ih =>
    obtain ⟨p, ps, hpieces⟩ := List.exists_cons_of_ne_nil (pieces_ne_nil cs)
    rw [List.cons_append, pieces, ih, pieces, hpieces]
    simp only [List.cons_append]
    split <;> rfl

theorem pieces_of_notMem {name : List Char} (h : '/' ∉ name) : pieces name = [name] := by
  have hpieces := Tree.pieces_append h (show pieces [] = [[]] from rfl)
  rwa [List.append_nil] at hpieces

/-- A path that begins like another and has one more segment in its pieces has it in the end. -/
theorem segments_eq_append {root path : String} {x : Segment}
    (habsolute : isAbsolute path = isAbsolute root)
    (hhead : (pieces path.toList).head? = (pieces root.toList).head?)
    (hbody : (pieces path.toList).filterMap Segment.ofPiece?
      = (pieces root.toList).filterMap Segment.ofPiece? ++ [x]) :
    segments path = segments root ++ [x] := by
  simp only [segments, habsolute, hhead, hbody]
  split
  · rfl
  split <;> rfl

/-- A path one plain name below a root. -/
structure OneBelow (root name path : String) : Prop where
  segments : segments path = segments root ++ [.name name.toList]

/-- An accepted id is a segment of its own: neither empty nor a step. -/
theorem ofPiece?_of_isDatasetId {id : String} (h : Naming.isDatasetId id = true) :
    Segment.ofPiece? id.toList = some (.name id.toList) := by
  have hdot : '.' ∉ id.toList := Naming.notMem_of_isDatasetId h (by decide)
  have hne := Naming.toList_ne_nil h
  unfold Segment.ofPiece?
  split
  · rename_i hnil
    exact absurd hnil hne
  · rename_i heq
    simp [heq] at hdot
  · rename_i heq
    simp [heq] at hdot
  · rfl

/-- An accepted id does not begin at the root. -/
theorem isAbsolute_of_isDatasetId {id : String} (h : Naming.isDatasetId id = true) :
    isAbsolute id = false := by
  rw [isAbsolute, beq_eq_false_iff_ne]
  exact fun hhead => Naming.notMem_of_isDatasetId h (by decide) (List.mem_of_mem_head? hhead)

/-- An accepted id is a path of one segment. -/
theorem segments_of_isDatasetId {id : String} (h : Naming.isDatasetId id = true) :
    segments id = [.name id.toList] := by
  have hsegment := ofPiece?_of_isDatasetId h
  have hhere : id.toList ≠ ['.'] := by
    intro hdot
    rw [hdot] at hsegment
    cases hsegment
  have hslash : '/' ∉ id.toList := Naming.notMem_of_isDatasetId h (by decide)
  have hpieces := pieces_of_notMem hslash
  simp only [segments, isAbsolute_of_isDatasetId h, hpieces, List.filterMap_cons_some hsegment]
  simp [hhere]

section Joined

variable {root path : String} {name : List Char}

/-- A name behind a slash is one more piece. -/
theorem segments_of_slash {front : List Char} (hroot : root.toList = front ++ ['/'])
    (hpath : path.toList = front ++ '/' :: name) (hname : '/' ∉ name)
    (hsegment : Segment.ofPiece? name = some (.name name)) :
    segments path = segments root ++ [.name name] := by
  obtain ⟨p, ps, hpieces⟩ := List.exists_cons_of_ne_nil (pieces_ne_nil front)
  refine segments_eq_append ?_ ?_ ?_
  · rw [isAbsolute, isAbsolute, hpath, hroot]
    cases front <;> rfl
  · rw [hpath, hroot, pieces_append_slash, pieces_append_slash, hpieces]
    rfl
  · rw [hpath, hroot, pieces_append_slash, pieces_append_slash, pieces_of_notMem hname,
      List.filterMap_append, List.filterMap_append, List.filterMap_cons_some hsegment]
    exact congrArg (· ++ [Segment.name name]) (List.append_nil _).symm

/-- A slash and a name are one more piece. -/
theorem segments_of_name (hroot : root.toList ≠ [])
    (hpath : path.toList = root.toList ++ '/' :: name) (hname : '/' ∉ name)
    (hsegment : Segment.ofPiece? name = some (.name name)) :
    segments path = segments root ++ [.name name] := by
  obtain ⟨c, front, hfront⟩ := List.exists_cons_of_ne_nil hroot
  obtain ⟨p, ps, hpieces⟩ := List.exists_cons_of_ne_nil (pieces_ne_nil root.toList)
  refine segments_eq_append ?_ ?_ ?_
  · rw [isAbsolute, isAbsolute, hpath, hfront]
    rfl
  · rw [hpath, pieces_append_slash, hpieces]
    rfl
  · rw [hpath, pieces_append_slash, pieces_of_notMem hname]
    simp [hsegment]

end Joined

/-- An accepted id continues every root by one segment, whatever the root is. -/
theorem oneBelow_join {id : String} (h : Naming.isDatasetId id = true) (root : String) :
    OneBelow root id (join root id) where
  segments := by
    have hslash : '/' ∉ id.toList := Naming.notMem_of_isDatasetId h (by decide)
    have hsegment := ofPiece?_of_isDatasetId h
    rw [join, isAbsolute_of_isDatasetId h, if_neg (by decide)]
    split
    · -- Nothing is put in front of the id.
      rename_i hempty
      obtain rfl : root = "" := by simpa using hempty
      exact segments_of_isDatasetId h
    rename_i hne
    have hroot : root.toList ≠ [] := by
      intro hnil
      rw [String.toList_eq_nil_iff] at hnil
      exact hne (by rw [hnil]; rfl)
    split
    · rename_i hlast
      obtain ⟨front, hfront⟩ := List.getLast?_eq_some_iff.mp (eq_of_beq hlast)
      exact segments_of_slash hfront (by simp [hfront]) hslash hsegment
    · exact segments_of_name hroot (by simp) hslash hsegment

theorem mem_of_mem_join {root rest : String} {c : Char} (h : c ∈ (join root rest).toList) :
    c ∈ root.toList ∨ c = '/' ∨ c ∈ rest.toList := by
  unfold join at h
  split at h
  · exact .inr (.inr h)
  split at h
  · exact .inr (.inr h)
  split at h
  · rw [String.toList_append, List.mem_append] at h
    exact h.imp_right .inr
  · simp only [String.toList_append, List.mem_append] at h
    rcases h with (h | h) | h
    · exact .inl h
    · exact .inr (.inl (by simpa using h))
    · exact .inr (.inr h)

end Path

end Enclave
