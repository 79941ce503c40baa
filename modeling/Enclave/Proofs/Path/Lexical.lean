import Enclave.Path.Confinement
import Mathlib.Data.List.Basic

/-!
# What the lexical check of a path promises

A path that `checkLexical` accepts has the segments of the root in front, at least one more behind
them, and no step up anywhere.
-/

namespace Enclave.Path

/-- The segments of a path strictly extend those of a root, and none of them is a step up. -/
structure StrictlyBelow (root path : String) : Prop where
  longer : ∃ rest, rest ≠ [] ∧ segments path = segments root ++ rest
  noParent : Segment.parent ∉ segments path

theorem pieces_ne_nil (cs : List Char) : pieces cs ≠ [] := by
  cases cs with
  | nil => simp [pieces]
  | cons c cs =>
    rw [pieces]
    split
    · simp
    · split <;> simp

/-- `within` and not `same` say that a path has more segments than the root. -/
theorem exists_rest_of_within {root path : String} (hw : within root path = true)
    (hs : same root path = false) : ∃ rest, rest ≠ [] ∧ segments path = segments root ++ rest := by
  obtain ⟨rest, hrest⟩ := List.isPrefixOf_iff_prefix.mp hw
  refine ⟨rest, ?_, hrest.symm⟩
  rintro rfl
  rw [List.append_nil] at hrest
  simp [same, hrest] at hs

/-- What the lexical check accepts: the path itself, if it passes the five tests. -/
theorem checkLexical_eq_ok {root path accepted : String} :
    checkLexical root path = .ok accepted ↔ accepted = path ∧ path ≠ "" ∧ '\x00' ∉ path.toList ∧
      isAbsolute path = true ∧ Segment.parent ∉ segments path ∧ within root path = true ∧
      same root path = false := by
  constructor
  · intro h
    unfold checkLexical reject at h
    split at h
    · cases h
    rename_i hempty
    split at h
    · cases h
    rename_i hnul
    split at h
    · cases h
    rename_i habsolute
    split at h
    · cases h
    rename_i hparent
    split at h
    · cases h
    rename_i hinside
    simp only [Bool.or_eq_true, Bool.not_eq_true', not_or, Bool.not_eq_false,
      Bool.not_eq_true] at habsolute hinside
    exact ⟨(Except.ok.inj h).symm, by simpa using hempty, by simpa using hnul, habsolute,
      by simpa using hparent, hinside.1, hinside.2⟩
  · rintro ⟨rfl, hempty, hnul, habsolute, hparent, hwithin, hsame⟩
    simp [checkLexical, hempty, hnul, habsolute, hparent, hwithin, hsame]

/-- What an accepted path has passed. -/
theorem checks_of_checkLexical {root path accepted : String}
    (h : checkLexical root path = .ok accepted) : accepted = path ∧ isAbsolute path = true ∧
      Segment.parent ∉ segments path ∧ within root path = true ∧ same root path = false := by
  obtain ⟨heq, -, -, hrest⟩ := checkLexical_eq_ok.mp h
  exact ⟨heq, hrest⟩

theorem strictlyBelow_of_checkLexical {root path accepted : String}
    (h : checkLexical root path = .ok accepted) : accepted = path ∧ StrictlyBelow root path := by
  obtain ⟨heq, -, hparent, hwithin, hsame⟩ := checks_of_checkLexical h
  exact ⟨heq, exists_rest_of_within hwithin hsame, hparent⟩

/-- Only an absolute path, or none at all, has an absolute one below it. -/
theorem isAbsolute_of_within {root path : String} (hpath : isAbsolute path = true)
    (hroot : root ≠ "") (h : within root path = true) : isAbsolute root = true := by
  by_contra hrelative
  obtain ⟨rest, hrest⟩ := List.isPrefixOf_iff_prefix.mp h
  obtain ⟨c, cs, hcs⟩ := List.exists_cons_of_ne_nil (mt String.toList_eq_nil_iff.mp hroot)
  have hslash : c ≠ '/' := by
    rintro rfl
    exact hrelative (by simp [isAbsolute, hcs])
  obtain ⟨p, ps, hpieces⟩ : ∃ p ps, pieces (c :: cs) = (c :: p) :: ps := by
    rw [pieces]
    split
    · exact absurd ‹_› (pieces_ne_nil cs)
    · exact ⟨_, _, if_neg hslash⟩
  -- The first piece is not empty, so it gives a segment that is no leading slash.
  have hfirst : ∃ s ss, segments root = s :: ss ∧ s ≠ .root := by
    simp only [segments, if_neg hrelative, hcs, hpieces]
    split
    · exact ⟨_, _, rfl, by simp⟩
    · rename_i hdot
      have hpiece : ∃ s, Segment.ofPiece? (c :: p) = some s ∧ s ≠ .root := by
        unfold Segment.ofPiece?
        split <;> simp_all
      obtain ⟨s, hs, hne⟩ := hpiece
      exact ⟨s, _, List.filterMap_cons_some hs, hne⟩
  obtain ⟨s, ss, hsegments, hne⟩ := hfirst
  have hhead : segments path = .root :: (segments path).tail := by
    simp [segments, hpath]
  rw [hsegments, hhead] at hrest
  exact hne (List.cons.inj hrest).1

end Enclave.Path
