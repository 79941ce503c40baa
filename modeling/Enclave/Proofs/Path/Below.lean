import Enclave.Proofs.Path.Resolution

/-!
# What an accepted path names

The names in a path are its pieces between slashes, without the empty ones and without `.`. Against
an absolute root the lexical check is a statement about names alone: no step up among those of the
path, and those of the root strictly in front of them.

In a tree without links nothing but the names counts (`Tree.Leads.names`): a path without a step up
leads to the place of its names or nowhere, and every place in front of it is a directory. So an
accepted path names something strictly below the root, and never the root itself or a sibling.
-/

namespace Enclave.Path

/-! ## Names -/

/-- The names in a path: its pieces between slashes, the empty ones and `.` left out. -/
def namesIn (path : String) : List String :=
  ((path.toList.splitOn '/').filter fun p => p ≠ [] ∧ p ≠ ['.']).map String.ofList

/-- A path whose text names something strictly below a root. -/
structure NamedBelow (root path : String) : Prop where
  nonempty : path ≠ ""
  noNul : '\x00' ∉ path.toList
  absolute : path.toList.head? = some '/'
  noParent : ".." ∉ namesIn path
  below : namesIn root <+: namesIn path
  strictly : namesIn root ≠ namesIn path

/-- The segment of a name. -/
def segmentOf (name : String) : Segment := if name = ".." then .parent else .name name.toList

theorem segmentOf_injective : Function.Injective segmentOf := by
  intro a b h
  unfold segmentOf at h
  split at h <;> split at h
  · rename_i ha hb
    rw [ha, hb]
  · cases h
  · cases h
  · exact String.toList_injective (Segment.name.inj h)

theorem segmentOf_eq_parent {name : String} : segmentOf name = .parent ↔ name = ".." := by
  unfold segmentOf
  split <;> simp_all

theorem pieces_eq_splitOn (cs : List Char) : pieces cs = cs.splitOn '/' := by
  induction cs with
  | nil => rfl
  | cons c cs ih =>
    rw [pieces, List.splitOn_cons_eq_if_modifyHead, ← ih]
    obtain ⟨p, ps, hpieces⟩ := List.exists_cons_of_ne_nil (pieces_ne_nil cs)
    rw [hpieces, List.modifyHead_cons]
    simp only [beq_iff_eq]

/-- A piece gives a segment exactly if it is a name. -/
theorem ofPiece?_eq (p : List Char) : Segment.ofPiece? p =
    if p ≠ [] ∧ p ≠ ['.'] then some (segmentOf (String.ofList p)) else none := by
  unfold Segment.ofPiece? segmentOf
  split
  · simp
  · simp
  · rfl
  · rename_i hempty hdot hparent
    rw [if_pos ⟨hempty, hdot⟩, if_neg, String.toList_ofList]
    intro h
    exact hparent (by simpa using congrArg String.toList h)

theorem filterMap_ofPiece? (ps : List (List Char)) : ps.filterMap Segment.ofPiece? =
    ((ps.filter fun p => p ≠ [] ∧ p ≠ ['.']).map String.ofList).map segmentOf := by
  induction ps with
  | nil => rfl
  | cons p ps ih =>
    rw [List.filterMap_cons, ofPiece?_eq, ih]
    by_cases hp : p ≠ [] ∧ p ≠ ['.']
    · rw [if_pos hp, List.filter_cons_of_pos (by simpa using hp), List.map_cons, List.map_cons]
    · rw [if_neg hp, List.filter_cons_of_neg (by simpa using hp)]

/-- An absolute path is its leading slash and its names. -/
theorem segments_eq {path : String} (h : isAbsolute path = true) :
    segments path = .root :: (namesIn path).map segmentOf := by
  rw [segments, if_pos h, filterMap_ofPiece?, pieces_eq_splitOn, namesIn]

theorem parent_mem_segments {path : String} (h : isAbsolute path = true) :
    Segment.parent ∈ segments path ↔ ".." ∈ namesIn path := by
  rw [segments_eq h, List.mem_cons, List.mem_map]
  constructor
  · rintro (h | ⟨name, hname, h⟩)
    · cases h
    · exact segmentOf_eq_parent.mp h ▸ hname
  · intro hmem
    exact .inr ⟨"..", hmem, rfl⟩

theorem within_iff {root path : String} (hroot : isAbsolute root = true)
    (hpath : isAbsolute path = true) :
    within root path = true ↔ namesIn root <+: namesIn path := by
  rw [within, List.isPrefixOf_iff_prefix, segments_eq hroot, segments_eq hpath,
    List.prefix_cons_inj, List.prefix_map_iff_of_injective segmentOf_injective]

theorem same_iff {root path : String} (hroot : isAbsolute root = true)
    (hpath : isAbsolute path = true) : same root path = true ↔ namesIn root = namesIn path := by
  rw [same, beq_iff_eq, segments_eq hroot, segments_eq hpath, List.cons_inj_right]
  exact (List.map_injective_iff.mpr segmentOf_injective).eq_iff

/-- Against an absolute root the lexical check looks at the names. -/
theorem checkLexical_eq_ok_iff_named {root path accepted : String}
    (hroot : isAbsolute root = true) :
    checkLexical root path = .ok accepted ↔ accepted = path ∧ NamedBelow root path := by
  rw [checkLexical_eq_ok]
  constructor
  · rintro ⟨heq, hne, hnul, hpath, hparent, hwithin, hsame⟩
    refine ⟨heq, hne, hnul, by simpa [isAbsolute] using hpath, ?_, ?_, ?_⟩
    · rwa [parent_mem_segments hpath] at hparent
    · exact (within_iff hroot hpath).mp hwithin
    · rw [ne_eq, ← same_iff hroot hpath, hsame]
      exact Bool.false_ne_true
  · rintro ⟨heq, h⟩
    have hpath : isAbsolute path = true := by simp [isAbsolute, h.absolute]
    refine ⟨heq, h.nonempty, h.noNul, hpath, ?_, ?_, ?_⟩
    · rw [parent_mem_segments hpath]
      exact h.noParent
    · exact (within_iff hroot hpath).mpr h.below
    · rw [← Bool.not_eq_true, same_iff hroot hpath]
      exact h.strictly

/-! ## Trees without links -/

namespace Tree

variable {t : Tree} {links : Nat} {place found : Place} {path : List String}

/-- A tree in which no place holds a link. -/
def Linkless (t : Tree) : Prop := ∀ place target, t.at? place ≠ some (.link target)

/-- The steps of a path that are no dots are its names. -/
theorem filter_steps (path : String) : (steps path).filter (· ≠ ".") = namesIn path := by
  rw [steps, namesIn, pieces_eq_splitOn]
  induction path.toList.splitOn '/' with
  | nil => rfl
  | cons p ps ih =>
    have hdot : (if p.isEmpty then "." else String.ofList p) ≠ "." ↔ p ≠ [] ∧ p ≠ ['.'] := by
      cases p with
      | nil => simp
      | cons c cs => simp [← String.toList_inj]
    rw [List.map_cons]
    by_cases hp : p ≠ [] ∧ p ≠ ['.']
    · rw [List.filter_cons_of_pos (by simpa using hdot.mpr hp),
        List.filter_cons_of_pos (by simpa using hp), List.map_cons, ih,
        if_neg (by simpa using hp.1)]
    · rw [List.filter_cons_of_neg (by simpa using mt hdot.mp hp),
        List.filter_cons_of_neg (by simpa using hp), ih]

/-- Without links and steps up, steps lead along their names. -/
theorem Leads.names (h : t.Leads links place path found) (hlinkless : t.Linkless)
    (hpath : ".." ∉ path) : found = place ++ path.filter (· ≠ ".") := by
  induction h with
  | here place => simp
  | stay h ih => simpa using ih (mt (List.mem_cons_of_mem _) hpath)
  | up h ih => exact absurd List.mem_cons_self hpath
  | enter hname hat h ih =>
    rw [ih (mt (List.mem_cons_of_mem _) hpath), List.filter_cons_of_pos (by simpa using hname.1),
      List.append_assoc, List.singleton_append]
  | reach hname hat => rw [List.filter_cons_of_pos (by simpa using hname.1), List.filter_nil]
  | jump hname hat h ih => exact absurd hat (hlinkless _ _)

/-- Steps lead along their names as far as there are directories. -/
theorem leads_of_directories (hpath : ".." ∉ path) (hat : ∀ front,
    front <+: path.filter (· ≠ ".") → front ≠ [] → t.at? (place ++ front) = some .directory) :
    t.Leads 0 place path (place ++ path.filter (· ≠ ".")) := by
  induction path generalizing place with
  | nil =>
    rw [List.filter_nil, List.append_nil]
    exact .here place
  | cons step path ih =>
    obtain ⟨hstep, htail⟩ := not_or.mp (mt List.mem_cons.mpr hpath)
    by_cases hdot : step = "."
    · subst hdot
      rw [List.filter_cons_of_neg (by simp)] at hat ⊢
      exact .stay (ih htail hat)
    · rw [List.filter_cons_of_pos (by simpa using hdot)] at hat ⊢
      rw [List.append_cons]
      refine .enter ⟨hdot, Ne.symm hstep⟩ (hat [step] (by simp) (by simp)) (ih htail ?_)
      intro front hfront _
      rw [List.append_assoc]
      exact hat (step :: front) ((List.prefix_cons_inj step).mpr hfront) (by simp)

/-- Every place in front of one that is reached is a directory. -/
theorem Reached.above {above : Place} (h : t.Reached found) (habove : above <+: found)
    (hne : above ≠ found) : t.at? above = some .directory := by
  obtain hopen | ⟨place, name, _, rfl, hopen, -⟩ := h
  · exact hopen.directories above habove
  · exact hopen.directories above ((List.prefix_concat_iff.mp habove).resolve_left hne)

end Tree

/-! ## Accepted paths -/

namespace NamedBelow

variable {t : Tree} {root path : String} {place above : Place}

theorem isAbsolute_path (h : NamedBelow root path) : isAbsolute path = true := by
  simp [isAbsolute, h.absolute]

/-- A step up is a name, so a path without one among its names takes none. -/
theorem noParent_steps {path : String} (h : ".." ∉ namesIn path) : ".." ∉ Tree.steps path := by
  intro hmem
  rw [← Tree.filter_steps] at h
  exact h (List.mem_filter.mpr ⟨hmem, by decide⟩)

theorem place_eq (h : NamedBelow root path) (hlinkless : t.Linkless)
    (hplace : t.resolve path = .ok place) : place = namesIn path := by
  obtain ⟨-, links, -, hleads⟩ := (Tree.resolve_eq_ok h.isAbsolute_path).mp hplace
  rw [hleads.names hlinkless (noParent_steps h.noParent), List.nil_append, Tree.filter_steps]

/-- Whoever gets to the path has passed through the root and everything above it. -/
theorem directories (h : NamedBelow root path) (hlinkless : t.Linkless)
    (hplace : t.resolve path = .ok place) (habove : above <+: namesIn root) :
    t.at? above = some .directory := by
  obtain ⟨-, links, -, hleads⟩ := (Tree.resolve_eq_ok h.isAbsolute_path).mp hplace
  have hreached := hleads.reached (Tree.open_root t) (Tree.plainStep_steps path)
  rw [h.place_eq hlinkless hplace] at hreached
  refine hreached.above (habove.trans h.below) ?_
  rintro rfl
  exact h.strictly (h.below.eq_of_length_le habove.length_le)

theorem resolve_root (h : NamedBelow root path) (hroot : isAbsolute root = true)
    (hlinkless : t.Linkless) (hplace : t.resolve path = .ok place) :
    t.resolve root = .ok (namesIn root) := by
  have hdirectories : ∀ above, above <+: namesIn root → t.at? above = some .directory :=
    fun _ => h.directories hlinkless hplace
  rw [← Tree.filter_steps] at hdirectories
  have hparent : ".." ∉ Tree.steps root :=
    noParent_steps fun hmem => h.noParent (h.below.subset hmem)
  refine (Tree.resolve_eq_ok hroot).mpr ⟨hroot, 0, Nat.zero_le _, ?_⟩
  rw [← Tree.filter_steps, ← List.nil_append ((Tree.steps root).filter _)]
  exact Tree.leads_of_directories hparent fun front hfront _ => hdirectories front hfront

end NamedBelow

/-- **An accepted path names something strictly below the root.** Against an absolute root the
lexical check accepts exactly the paths that are not empty, hold no NUL, begin with a slash, have no
step up and extend the names of the root. In a tree without links such a path leads to the place of
its names or nowhere. Where it leads somewhere, the root leads to the directory of its own names,
which stands strictly in front. -/
theorem checkLexical_named {root : String} (hroot : isAbsolute root = true)
    (path accepted : String) :
    (checkLexical root path = .ok accepted ↔ accepted = path ∧ NamedBelow root path) ∧
    (checkLexical root path = .ok accepted → ∀ t : Tree, t.Linkless → ∀ place,
      t.resolve path = .ok place → place = namesIn path ∧ t.resolve root = .ok (namesIn root) ∧
        t.at? (namesIn root) = some .directory ∧
          ∃ rest, rest ≠ [] ∧ place = namesIn root ++ rest) := by
  refine ⟨checkLexical_eq_ok_iff_named hroot, fun h t hlinkless place hplace => ?_⟩
  obtain ⟨-, hnamed⟩ := (checkLexical_eq_ok_iff_named hroot).mp h
  obtain ⟨rest, hrest⟩ := hnamed.below
  refine ⟨hnamed.place_eq hlinkless hplace, hnamed.resolve_root hroot hlinkless hplace,
    hnamed.directories hlinkless hplace List.prefix_rfl, rest, ?_, ?_⟩
  · rintro rfl
    exact hnamed.strictly (by simpa using hrest)
  · rw [hnamed.place_eq hlinkless hplace, hrest]

/-- A tree without links, with a sibling of the root whose name begins like the root's. -/
def siblingTree : Tree :=
  ⟨[(["data"], .directory), (["database"], .directory), (["database", "a.csv"], .file "d\n"),
    (["data", "support"], .directory), (["data", "support", "a.csv"], .file "a\n")]⟩

theorem checkLexical_named_dots : isAbsolute "//data/./" = true ∧ siblingTree.Linkless ∧
    NamedBelow "//data/./" "/data//support/./a.csv" ∧
      siblingTree.resolve "//data/./" = .ok ["data"] ∧
        siblingTree.at? ["data"] = some .directory := by
  have hroot : isAbsolute "//data/./" = true := by decide
  have hlinkless : siblingTree.Linkless := by
    intro place target h
    unfold Tree.at? at h
    split at h
    · cases h
    · obtain ⟨front, back, hentries, -⟩ := List.lookup_eq_some_iff.mp h
      have hmem : (place, Entry.link target) ∈ siblingTree.entries := by simp [hentries]
      simp [siblingTree] at hmem
  have haccepted : checkLexical "//data/./" "/data//support/./a.csv"
      = .ok "/data//support/./a.csv" := by decide +kernel
  have hplace : siblingTree.resolve "/data//support/./a.csv"
      = .ok ["data", "support", "a.csv"] := by decide +kernel
  have hdata : namesIn "//data/./" = ["data"] := by decide +kernel
  obtain ⟨hiff, hnames⟩ := checkLexical_named hroot "/data//support/./a.csv" _
  obtain ⟨-, hbase, hdirectory, -⟩ := hnames haccepted siblingTree hlinkless _ hplace
  rw [hdata] at hbase hdirectory
  exact ⟨hroot, hlinkless, (hiff.mp haccepted).2, hbase, hdirectory⟩

example : checkLexical "/data" "/database/a.csv" =
    .error (.pathRejected "/database/a.csv" "not under data root /data") := by decide +kernel

end Enclave.Path
