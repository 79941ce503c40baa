import Enclave.Plan.Schema
import Enclave.Proofs.Outcome
import Enclave.Run.Request

/-!
# The names of datasets and tables

A dataset is checked for a plain name. `tableNames` answers with the identifiers of the files in
their order, and only where no two of them are the same.
-/

namespace Enclave.Naming

theorem checkDatasetId_eq_ok {id : String} :
    checkDatasetId id = .ok () ↔ isDatasetId id = true := by
  unfold checkDatasetId
  split <;> simp_all

/-- The identifiers of the names of some files. -/
theorem map_identifierOf_name (files : List FileRef) :
    (files.map FileRef.name).map identifierOf = files.map fun f => identifierOf f.name := by
  rw [List.map_map, Function.comp_def]

/-- The identifiers of the files of some tables are the names of the tables. -/
theorem map_identifierOf_file (tables : List Table) :
    (tables.map Table.file).map identifierOf = tables.map Table.name := by
  rw [List.map_map]
  exact List.map_congr_left fun t _ => by rw [Function.comp_apply, Table.name]

/-- The invariant of naming: what is named is the identifiers of the files, pairwise different and
different from the tables named before. -/
theorem nameTables_eq_ok {seen : List (String × String)} {names tables : List String}
    (h : nameTables seen names = .ok tables) :
    tables = names.map identifierOf ∧ tables.Nodup ∧ ∀ t ∈ tables, seen.lookup t = none := by
  induction names generalizing seen tables with
  | nil =>
    cases h
    simp
  | cons name names ih =>
    simp only [nameTables] at h
    split at h
    · cases h
    · rename_i hfree
      obtain ⟨rest, hrest, rfl⟩ := map_eq_ok.mp h
      obtain ⟨hmap, hnodup, hseen⟩ := ih hrest
      -- A later table is missing from the longer list, so it is neither this nor an earlier one.
      have hlater : ∀ t ∈ rest, t ≠ identifierOf name ∧ seen.lookup t = none := by
        intro t ht
        have hnone := hseen t ht
        by_cases heq : t = identifierOf name
        · subst heq
          rw [List.lookup_cons_self] at hnone
          cases hnone
        · have hne : (t == identifierOf name) = false := beq_eq_false_iff_ne.mpr heq
          rw [List.lookup_cons, hne] at hnone
          exact ⟨heq, hnone⟩
      refine ⟨by rw [hmap, List.map_cons], ?_, ?_⟩
      · exact List.nodup_cons.mpr ⟨fun hmem => (hlater _ hmem).1 rfl, hnodup⟩
      · intro t ht
        rcases List.mem_cons.mp ht with rfl | ht
        · exact hfree
        · exact (hlater t ht).2

theorem tableNames_eq_ok {names tables : List String} (h : tableNames names = .ok tables) :
    tables = names.map identifierOf ∧ tables.Nodup := by
  obtain ⟨hmap, hnodup, -⟩ := nameTables_eq_ok h
  exact ⟨hmap, hnodup⟩

/-- Files with pairwise different identifiers, none of them named before, are all named. -/
theorem nameTables_of_nodup {seen : List (String × String)} {names : List String}
    (hnodup : (names.map identifierOf).Nodup)
    (hseen : ∀ name ∈ names, seen.lookup (identifierOf name) = none) :
    nameTables seen names = .ok (names.map identifierOf) := by
  induction names generalizing seen with
  | nil => rfl
  | cons name names ih =>
    obtain ⟨hnew, hnodup⟩ := List.nodup_cons.mp hnodup
    obtain ⟨hfree, hseen⟩ := List.forall_mem_cons.mp hseen
    have hlater : ∀ other ∈ names,
        List.lookup (identifierOf other) ((identifierOf name, name) :: seen) = none := by
      intro other hother
      have hne : identifierOf other ≠ identifierOf name := fun heq =>
        hnew (heq ▸ List.mem_map_of_mem hother)
      rw [List.lookup_cons, beq_eq_false_iff_ne.mpr hne]
      exact hseen other hother
    simp only [nameTables, hfree]
    rw [ih hnodup hlater]
    rfl

theorem tableNames_of_nodup {names : List String} (h : (names.map identifierOf).Nodup) :
    tableNames names = .ok (names.map identifierOf) :=
  nameTables_of_nodup h fun _ _ => rfl

end Enclave.Naming
