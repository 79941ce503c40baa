import Enclave.Proofs.Naming
import Enclave.Proofs.Naming.Identifier

/-!
# Collisions

The files of a dataset are named one after the other, and the tables named so far are kept with
their files (`seenOf`). As long as there is no collision they are pairwise different, so the first
name that collides does so with one earlier name only, and everything before it has been named
(`nameTables_eq_error`).

`naming_spec` puts this together with the shape of the names.
-/

namespace Enclave.Naming

/-- The tables of some names as the naming keeps them, each with its file, the last one first. -/
def seenOf (before : List String) : List (String × String) :=
  (before.map fun name => (identifierOf name, name)).reverse

theorem seenOf_concat (before : List String) (name : String) :
    seenOf (before ++ [name]) = (identifierOf name, name) :: seenOf before := by
  rw [seenOf, List.map_append, List.reverse_append]
  rfl

/-- What is not found has not been named. -/
theorem notMem_of_lookup_seenOf {before : List String} {table : String}
    (h : (seenOf before).lookup table = none) : table ∉ before.map identifierOf := by
  intro hmem
  obtain ⟨other, hother, rfl⟩ := List.mem_map.mp hmem
  have hpair : (identifierOf other, other) ∈ seenOf before :=
    List.mem_reverse.mpr (List.mem_map_of_mem hother)
  have hne := List.lookup_eq_none_iff.mp h _ hpair
  simp at hne

/-- What is found is the only earlier name of the table. -/
theorem filter_of_lookup_seenOf {before : List String} {table earlier : String}
    (hnodup : (before.map identifierOf).Nodup) (h : (seenOf before).lookup table = some earlier) :
    before.filter (fun other => identifierOf other = table) = [earlier] := by
  obtain ⟨later, front, hseen, -⟩ := List.lookup_eq_some_iff.mp h
  have hpair : (table, earlier) ∈ seenOf before := by
    rw [hseen]
    exact List.mem_append_right later List.mem_cons_self
  obtain ⟨other, hearlier, hother⟩ := List.mem_map.mp (List.mem_reverse.mp hpair)
  obtain ⟨rfl, rfl⟩ := Prod.mk.inj hother
  have hsame : ∀ name ∈ before,
      decide (identifierOf name = identifierOf other) = decide (name = other) := by
    intro name hname
    rw [decide_eq_decide]
    constructor
    · intro heq
      exact List.inj_on_of_nodup_map hnodup hname hearlier heq
    · rintro rfl
      rfl
  rw [List.filter_congr hsame, List.filter_eq,
    List.count_eq_one_of_mem (List.Nodup.of_map _ hnodup) hearlier]
  rfl

/-- What is said of two names of one table. -/
def collision (earlier name : String) : Failure :=
  .invalid "files" ("'" ++ earlier ++ "' and '" ++ name ++ "' both map to table '" ++
    identifierOf name ++ "'")

/-- The naming fails at the first name whose table has been named before. -/
theorem nameTables_eq_error {before names : List String} {e : Failure}
    (hnodup : (before.map identifierOf).Nodup) (h : nameTables (seenOf before) names = .error e) :
    ∃ more name rest earlier, names = more ++ name :: rest ∧
      ((before ++ more).map identifierOf).Nodup ∧
      (before ++ more).filter (fun other => identifierOf other = identifierOf name) = [earlier] ∧
      e = collision earlier name := by
  induction names generalizing before with
  | nil => cases h
  | cons name names ih =>
    cases hfound : (seenOf before).lookup (identifierOf name) with
    | some earlier =>
      simp only [nameTables, hfound] at h
      cases h
      refine ⟨[], name, names, earlier, rfl, ?_, ?_, rfl⟩
      · rwa [List.append_nil]
      · rw [List.append_nil]
        exact filter_of_lookup_seenOf hnodup hfound
    | none =>
      simp only [nameTables, hfound] at h
      have hnamed : ((before ++ [name]).map identifierOf).Nodup := by
        rw [List.map_append]
        apply hnodup.append (List.nodup_singleton _)
        exact List.disjoint_singleton.mpr (notMem_of_lookup_seenOf hfound)
      have hrest : nameTables (seenOf (before ++ [name])) names = .error e := by
        rw [seenOf_concat]
        exact map_eq_error.mp h
      obtain ⟨more, other, rest, earlier, rfl, hmore, honly, he⟩ := ih hnamed hrest
      rw [List.append_assoc, List.singleton_append] at hmore honly
      exact ⟨name :: more, other, rest, earlier, rfl, hmore, honly, he⟩

/-! ## Table names -/

/-- The first collision in a list of names. The shortest beginning of the list in which two names
have one table ends in `name`, and `earlier` is the one name in front of it that has the same
table. -/
structure FirstCollision (names before : List String) (earlier name : String) : Prop where
  beginning : before ++ [name] <+: names
  repeats : ¬ ((before ++ [name]).map identifierOf).Nodup
  shortest : ∀ other, other <+: names → ¬ (other.map identifierOf).Nodup →
    before.length < other.length
  only : before.filter (fun other => identifierOf other = identifierOf name) = [earlier]

theorem firstCollision_of_filter {before rest : List String} {earlier name : String}
    (hnodup : (before.map identifierOf).Nodup)
    (honly : before.filter (fun other => identifierOf other = identifierOf name) = [earlier]) :
    FirstCollision (before ++ name :: rest) before earlier name where
  beginning := ⟨rest, by rw [List.append_assoc, List.singleton_append]⟩
  repeats hall := by
    have hmem : earlier ∈ before.filter (fun other => identifierOf other = identifierOf name) := by
      rw [honly]
      exact List.mem_singleton_self earlier
    obtain ⟨hearlier, hsame⟩ := List.mem_filter.mp hmem
    rw [List.map_append, List.nodup_append'] at hall
    have hapart := hall.2.2 (List.mem_map_of_mem hearlier)
    rw [of_decide_eq_true hsame] at hapart
    exact hapart (List.mem_singleton_self _)
  shortest other hother hrepeats := by
    by_contra! hshort
    have hfront : other <+: before :=
      List.prefix_of_prefix_length_le hother (List.prefix_append _ _) hshort
    exact hrepeats (hnodup.sublist (hfront.sublist.map identifierOf))
  only := honly

/-- What is derived from a list of file names: their tables in order, if these are pairwise
different, and otherwise what is said of the first collision. -/
structure Derives (names : List String) (x : Outcome (List String)) : Prop where
  succeeds : (∃ tables, x = .ok tables) ↔ (names.map identifierOf).Nodup
  inOrder : ∀ tables, x = .ok tables → tables = names.map identifierOf
  collides : ¬ (names.map identifierOf).Nodup → ∃ before earlier name,
    FirstCollision names before earlier name ∧
      x = .error (.invalid "files" ("'" ++ earlier ++ "' and '" ++ name ++
        "' both map to table '" ++ identifierOf name ++ "'"))

/-- The naming of files derives their tables. -/
theorem tableNames_derives (names : List String) : Derives names (tableNames names) where
  succeeds := by
    constructor
    · rintro ⟨tables, hnames⟩
      obtain ⟨rfl, hnodup⟩ := tableNames_eq_ok hnames
      exact hnodup
    · intro hnodup
      exact ⟨_, tableNames_of_nodup hnodup⟩
  inOrder _ h := (tableNames_eq_ok h).1
  collides hrepeats := by
    cases hnames : tableNames names with
    | ok tables =>
      obtain ⟨rfl, hnodup⟩ := tableNames_eq_ok hnames
      exact absurd hnodup hrepeats
    | error e =>
      have hnone : (([] : List String).map identifierOf).Nodup := List.nodup_nil
      obtain ⟨before, name, rest, earlier, rfl, hnodup, honly, rfl⟩ :=
        nameTables_eq_error hnone hnames
      exact ⟨before, earlier, name, firstCollision_of_filter hnodup honly, rfl⟩

/-- **Table names.** Every file has an identifier as its table name, which is its own table name
again, and the files of a dataset are named if and only if no two of them have one table; otherwise
the first collision is named. -/
theorem naming_spec :
    (∀ name, IsIdentifier (identifierOf name).toList) ∧
      (∀ name, identifierOf (identifierOf name) = identifierOf name) ∧
      ∀ names, Derives names (tableNames names) := by
  refine ⟨isIdentifier_identifierOf, ?_, tableNames_derives⟩
  intro name
  exact identifierOf_eq_self_iff.mpr (isIdentifier_identifierOf name)

example : tableNames ["a/Sales 2024.csv", "users.csv", "sales-2024.CSV", "Users"] =
    .error (.invalid "files"
      "'a/Sales 2024.csv' and 'sales-2024.CSV' both map to table 'sales_2024'") := by
  decide +kernel

end Enclave.Naming
