import Enclave.Proofs.Runner.Confinement

/-!
# Where paths lead

`Tree.Leads` is the resolution of paths as rules, with the number of links on the way: `.` stays,
`..` goes up, the name of a directory goes into it, the name of a file ends the way, and the name of
a link goes on with the steps of its target. The rules give nothing to a name that is missing, to a
file with further steps behind it, or to a circle of links. `follow_eq_ok` says that the walk
through a tree gives exactly what the rules give, and `Leads.reached` that it ends at a place that
is reached through directories alone, so that no link and no dot is left in it.

`resolveUnder_denotes` is the conclusion for the files below a root.
-/

namespace Enclave.Path

namespace Tree

variable {t : Tree} {bound links : Nat} {place found : Place} {name : String}
  {path : List String}

/-! ## The rules -/

/-- A step that names an entry. -/
def IsName (step : String) : Prop := step ≠ "." ∧ step ≠ ".."

/-- `t.Leads links place path found`: the steps of a path lead from one place to another, over so
many links. -/
inductive Leads (t : Tree) : Nat → Place → List String → Place → Prop
  | here (place : Place) : Leads t 0 place [] place
  | stay {links : Nat} {place found : Place} {path : List String}
      (h : Leads t links place path found) : Leads t links place ("." :: path) found
  | up {links : Nat} {place found : Place} {path : List String}
      (h : Leads t links place.dropLast path found) : Leads t links place (".." :: path) found
  | enter {links : Nat} {place found : Place} {path : List String} {name : String}
      (hname : IsName name) (hat : t.at? (place ++ [name]) = some .directory)
      (h : Leads t links (place ++ [name]) path found) : Leads t links place (name :: path) found
  | reach {place : Place} {name content : String} (hname : IsName name)
      (hat : t.at? (place ++ [name]) = some (.file content)) :
      Leads t 0 place [name] (place ++ [name])
  | jump {links : Nat} {place found : Place} {path : List String} {name target : String}
      (hname : IsName name) (hat : t.at? (place ++ [name]) = some (.link target))
      (h : Leads t links (if isAbsolute target then [] else place) (steps target ++ path) found) :
      Leads t (links + 1) place (name :: path) found

/-- An absolute path denotes the place to which its steps lead from the root, over no more links
than are followed. -/
def Denotes (t : Tree) (path : String) (found : Place) : Prop :=
  isAbsolute path = true ∧ ∃ links ≤ maxLinks, t.Leads links [] (steps path) found

/-! ## The walk -/

theorem follow_nil (t : Tree) (bound : Nat) (place : Place) :
    t.follow bound place [] = .ok place := by
  cases bound <;> rfl

theorem follow_stay (t : Tree) (bound : Nat) (place : Place) (path : List String) :
    t.follow bound place ("." :: path) = t.follow bound place path := by
  cases bound <;> rfl

theorem follow_up (t : Tree) (bound : Nat) (place : Place) (path : List String) :
    t.follow bound place (".." :: path) = t.follow bound place.dropLast path := by
  cases bound <;> rfl

theorem follow_directory (hname : IsName name)
    (hat : t.at? (place ++ [name]) = some .directory) :
    t.follow bound place (name :: path) = t.follow bound (place ++ [name]) path := by
  cases bound <;> simp [follow, walk, hname.1, hname.2, hat]

theorem follow_file {content : String} (hname : IsName name)
    (hat : t.at? (place ++ [name]) = some (.file content)) :
    t.follow bound place (name :: path) =
      if path.isEmpty then .ok (place ++ [name]) else .error .notADirectory := by
  cases bound <;> simp [follow, walk, hname.1, hname.2, hat]

theorem follow_link {target : String} (hname : IsName name)
    (hat : t.at? (place ++ [name]) = some (.link target)) :
    t.follow (bound + 1) place (name :: path) =
      t.follow bound (if isAbsolute target then [] else place) (steps target ++ path) := by
  rw [follow, walk, if_neg hname.1, if_neg hname.2, hat]

theorem follow_lastLink {target : String} (hname : IsName name)
    (hat : t.at? (place ++ [name]) = some (.link target)) :
    t.follow 0 place (name :: path) = .error .tooManyLinks := by
  rw [follow, walk, if_neg hname.1, if_neg hname.2, hat]

theorem follow_missing (hname : IsName name) (hat : t.at? (place ++ [name]) = none) :
    t.follow bound place (name :: path) = .error (missingFault name) := by
  cases bound <;> simp [follow, walk, hname.1, hname.2, hat]

/-- Where the rules lead, the walk leads as well. -/
theorem Leads.follow (h : t.Leads links place path found) (hbound : links ≤ bound) :
    t.follow bound place path = .ok found := by
  induction h generalizing bound with
  | here place => exact follow_nil t bound place
  | stay h ih =>
    rw [follow_stay]
    exact ih hbound
  | up h ih =>
    rw [follow_up]
    exact ih hbound
  | enter hname hat h ih =>
    rw [follow_directory hname hat]
    exact ih hbound
  | reach hname hat =>
    rw [follow_file hname hat]
    rfl
  | jump hname hat h ih =>
    obtain ⟨bound, rfl⟩ := Nat.exists_eq_add_one_of_ne_zero (n := bound) (by omega)
    rw [follow_link hname hat]
    exact ih (by omega)

/-- What a first step does in a walk that gets somewhere. -/
theorem follow_cons {step : String} (h : t.follow bound place (step :: path) = .ok found) :
    step = "." ∧ t.follow bound place path = .ok found ∨
    step = ".." ∧ t.follow bound place.dropLast path = .ok found ∨
    IsName step ∧ (
      t.at? (place ++ [step]) = some .directory ∧
        t.follow bound (place ++ [step]) path = .ok found ∨
      (∃ content, t.at? (place ++ [step]) = some (.file content)) ∧
        path = [] ∧ found = place ++ [step] ∨
      ∃ target fewer, t.at? (place ++ [step]) = some (.link target) ∧ bound = fewer + 1 ∧
        t.follow fewer (if isAbsolute target then [] else place) (steps target ++ path)
          = .ok found) := by
  by_cases hstay : step = "."
  · subst hstay
    rw [follow_stay] at h
    exact .inl ⟨rfl, h⟩
  by_cases hup : step = ".."
  · subst hup
    rw [follow_up] at h
    exact .inr (.inl ⟨rfl, h⟩)
  have hname : IsName step := ⟨hstay, hup⟩
  refine .inr (.inr ⟨hname, ?_⟩)
  cases hat : t.at? (place ++ [step]) with
  | none =>
    rw [follow_missing hname hat] at h
    cases h
  | some entry =>
    cases entry with
    | directory =>
      rw [follow_directory hname hat] at h
      exact .inl ⟨rfl, h⟩
    | file content =>
      rw [follow_file hname hat] at h
      split at h
      · rename_i hlast
        cases h
        exact .inr (.inl ⟨⟨content, rfl⟩, List.isEmpty_iff.mp hlast, rfl⟩)
      · cases h
    | link target =>
      cases bound with
      | zero =>
        rw [follow_lastLink hname hat] at h
        cases h
      | succ fewer =>
        rw [follow_link hname hat] at h
        exact .inr (.inr ⟨target, fewer, rfl, rfl, h⟩)

/-- Where the walk leads, the rules lead. -/
theorem leads_of_follow (h : t.follow bound place path = .ok found) :
    ∃ links ≤ bound, t.Leads links place path found := by
  -- A link leaves fewer links to be followed, every other step leaves fewer steps.
  induction bound using Nat.strongRecOn generalizing place path with
  | ind bound ihbound =>
    induction path generalizing place with
    | nil =>
      rw [follow_nil] at h
      cases h
      exact ⟨0, Nat.zero_le bound, .here _⟩
    | cons step path ihpath =>
      obtain ⟨rfl, hwalk⟩ | ⟨rfl, hwalk⟩ | ⟨hname, ⟨hat, hwalk⟩ | ⟨⟨content, hat⟩, rfl, rfl⟩ |
        ⟨target, fewer, hat, rfl, hwalk⟩⟩ := follow_cons h
      · obtain ⟨links, hlinks, hleads⟩ := ihpath hwalk
        exact ⟨links, hlinks, .stay hleads⟩
      · obtain ⟨links, hlinks, hleads⟩ := ihpath hwalk
        exact ⟨links, hlinks, .up hleads⟩
      · obtain ⟨links, hlinks, hleads⟩ := ihpath hwalk
        exact ⟨links, hlinks, .enter hname hat hleads⟩
      · exact ⟨0, Nat.zero_le bound, .reach hname hat⟩
      · obtain ⟨links, hlinks, hleads⟩ := ihbound fewer (Nat.lt_succ_self fewer) hwalk
        exact ⟨links + 1, Nat.succ_le_succ hlinks, .jump hname hat hleads⟩

/-- **The walk is the rules**, over no more links than it may follow. -/
theorem follow_eq_ok : t.follow bound place path = .ok found ↔
    ∃ links ≤ bound, t.Leads links place path found :=
  ⟨leads_of_follow, fun ⟨_, hlinks, h⟩ => h.follow hlinks⟩

theorem resolve_eq_ok {path : String} (habsolute : isAbsolute path = true) :
    t.resolve path = .ok found ↔ t.Denotes path found := by
  have hne : path.isEmpty = false := by
    cases hempty : path.isEmpty with
    | false => rfl
    | true =>
      obtain rfl := String.isEmpty_iff.mp hempty
      cases habsolute
  rw [resolve, hne, Denotes]
  simp only [Bool.false_eq_true, if_false, follow_eq_ok, habsolute, true_and]

/-! ## What is left in a place -/

/-- A name as it may stand in a place: not empty, no dots, and no slash in it. -/
structure PlainName (name : String) : Prop where
  nonempty : name ≠ ""
  isName : IsName name
  noSlash : '/' ∉ name.toList

/-- A place that is a directory, reached through directories alone. -/
structure Open (t : Tree) (place : Place) : Prop where
  names : ∀ name ∈ place, PlainName name
  directories : ∀ above, above <+: place → t.at? above = some .directory

theorem open_root (t : Tree) : t.Open [] where
  names := by simp
  directories above h := by
    obtain rfl := List.prefix_nil.mp h
    rfl

theorem Open.up (h : t.Open place) : t.Open place.dropLast where
  names name hname := h.names name ((List.dropLast_subset place) hname)
  directories above habove := h.directories above (habove.trans (List.dropLast_prefix place))

theorem Open.enter (h : t.Open place) (hname : PlainName name)
    (hat : t.at? (place ++ [name]) = some .directory) : t.Open (place ++ [name]) where
  names := List.forall_mem_append.mpr ⟨h.names, by simpa using hname⟩
  directories above habove := by
    rcases List.prefix_concat_iff.mp habove with rfl | habove
    · exact hat
    · exact h.directories above habove

/-- Where steps end: at a directory, or at a file in one. -/
def Reached (t : Tree) (found : Place) : Prop :=
  t.Open found ∨ ∃ place name content, found = place ++ [name] ∧ t.Open place ∧ PlainName name ∧
    t.at? found = some (.file content)

/-- A step of a path: its names are plain. -/
def PlainStep (step : String) : Prop := step ≠ "" ∧ '/' ∉ step.toList

theorem PlainStep.plainName (h : PlainStep name) (hname : IsName name) : PlainName name :=
  ⟨h.1, hname, h.2⟩

theorem slash_notMem_pieces (cs : List Char) : ∀ p ∈ pieces cs, '/' ∉ p := by
  induction cs with
  | nil => simp [pieces]
  | cons c cs ih =>
    rw [pieces]
    split
    · simp
    · rename_i p ps hpieces
      rw [hpieces, List.forall_mem_cons] at ih
      obtain ⟨hp, hps⟩ := ih
      split
      · exact List.forall_mem_cons.mpr ⟨by simp, List.forall_mem_cons.mpr ⟨hp, hps⟩⟩
      · rename_i hc
        exact List.forall_mem_cons.mpr ⟨by simp [hp, Ne.symm hc], hps⟩

theorem plainStep_steps (path : String) : ∀ step ∈ steps path, PlainStep step := by
  rw [steps, List.forall_mem_map]
  intro p hp
  split
  · exact ⟨by decide, by decide⟩
  · rename_i hne
    refine ⟨?_, ?_⟩
    · intro hempty
      simp_all
    · rw [String.toList_ofList]
      exact slash_notMem_pieces _ p hp

/-- **No link and no dot is left** in the place to which a path leads. -/
theorem Leads.reached (h : t.Leads links place path found) (hplace : t.Open place)
    (hpath : ∀ step ∈ path, PlainStep step) : t.Reached found := by
  induction h with
  | here place => exact .inl hplace
  | stay h ih => exact ih hplace (List.forall_mem_cons.mp hpath).2
  | up h ih => exact ih hplace.up (List.forall_mem_cons.mp hpath).2
  | enter hname hat h ih =>
    obtain ⟨hstep, hpath⟩ := List.forall_mem_cons.mp hpath
    exact ih (hplace.enter (hstep.plainName hname) hat) hpath
  | reach hname hat =>
    have hstep := (List.forall_mem_cons.mp hpath).1
    exact .inr ⟨_, _, _, rfl, hplace, hstep.plainName hname, hat⟩
  | jump hname hat h ih =>
    refine ih ?_ (List.forall_mem_append.mpr
      ⟨plainStep_steps _, (List.forall_mem_cons.mp hpath).2⟩)
    split
    · exact open_root t
    · exact hplace

/-! ## Places as texts -/

theorem pieces_slash (cs : List Char) : pieces ('/' :: cs) = [] :: pieces cs := by
  rw [pieces]
  split
  · exact absurd ‹_› (pieces_ne_nil cs)
  · rename_i hpieces
    rw [if_pos rfl, hpieces]

theorem pieces_append {name : List Char} (hname : '/' ∉ name) {cs p : List Char}
    {ps : List (List Char)} (h : pieces cs = p :: ps) :
    pieces (name ++ cs) = (name ++ p) :: ps := by
  induction name with
  | nil => exact h
  | cons c name ih =>
    obtain ⟨hc, hname⟩ := not_or.mp (mt List.mem_cons.mpr hname)
    rw [List.cons_append, pieces, ih hname]
    exact if_neg (Ne.symm hc)

theorem toList_pathOf (hplace : place ≠ []) :
    (pathOf place).toList = place.flatMap fun name => '/' :: name.toList := by
  have hfold : ∀ (names : Place) (acc : String),
      (names.foldl (fun acc n => acc ++ "/" ++ n) acc).toList =
        acc.toList ++ names.flatMap fun name => '/' :: name.toList := by
    intro names
    induction names with
    | nil => simp
    | cons name names ih =>
      intro acc
      rw [List.foldl_cons, ih]
      simp
  rw [pathOf, if_neg (by simpa using hplace), hfold]
  rfl

/-- The text of a place has its names between slashes and nothing else. -/
theorem pieces_pathOf (hplace : place ≠ []) (hnames : ∀ name ∈ place, PlainName name) :
    pieces (pathOf place).toList = [] :: place.map String.toList := by
  rw [toList_pathOf hplace]
  clear hplace
  induction place with
  | nil => rfl
  | cons name place ih =>
    obtain ⟨hname, hnames⟩ := List.forall_mem_cons.mp hnames
    rw [List.flatMap_cons, List.cons_append, pieces_slash, pieces_append hname.noSlash (ih hnames),
      List.append_nil, List.map_cons]

end Tree

/-! ## Files below a root -/

/-- A text is the canonical path of a place: the names of the place between slashes and nothing
else, no name being `.` or `..`, with directories alone above the place. -/
structure Canonical (t : Tree) (place : Place) (text : String) : Prop where
  written : pieces text.toList = [] :: place.map String.toList
  names : ∀ name ∈ place, Tree.PlainName name
  above : ∀ above, above <+: place → above ≠ place → t.at? above = some .directory

/-- A file that a path denotes stands at a place with a canonical path. -/
theorem Tree.Denotes.canonical {t : Tree} {path content : String} {place : Place}
    (h : t.Denotes path place) (hfile : t.at? place = some (.file content)) :
    Canonical t place (Tree.pathOf place) := by
  obtain ⟨-, links, -, hleads⟩ := h
  obtain hopen | ⟨above, name, _, rfl, hopen, hname, -⟩ :=
    hleads.reached (Tree.open_root t) (Tree.plainStep_steps path)
  · have hdirectory := hopen.directories place List.prefix_rfl
    rw [hfile] at hdirectory
    cases hdirectory
  · have hnames : ∀ n ∈ above ++ [name], Tree.PlainName n :=
      List.forall_mem_append.mpr ⟨hopen.names, by simpa using hname⟩
    refine ⟨Tree.pieces_pathOf (by simp) hnames, hnames, fun p hp hne => ?_⟩
    exact hopen.directories p ((List.prefix_concat_iff.mp hp).resolve_left hne)

/-- **What is found below a root is a file there.** A path is resolved below a root exactly if it
passes the lexical check, root and path both denote a place, and that of the path is a regular file
at or below that of the root; and what is found is the canonical path of this place. -/
theorem resolveUnder_denotes (t : Tree) (root path found : String) :
    (resolveUnder t root path = .ok found ↔ checkLexical root path = .ok path ∧
      ∃ base place content, t.Denotes root base ∧ t.Denotes path place ∧ base <+: place ∧
        t.at? place = some (.file content) ∧ found = Tree.pathOf place) ∧
    (resolveUnder t root path = .ok found →
      ∃ place, t.Denotes path place ∧ Canonical t place found) := by
  have hfile : ∀ place, t.isFileAt place = true ↔
      ∃ content, t.at? place = some (.file content) := by
    intro place
    unfold Tree.isFileAt
    split <;> simp_all
  have hiff : resolveUnder t root path = .ok found ↔ checkLexical root path = .ok path ∧
      ∃ base place content, t.Denotes root base ∧ t.Denotes path place ∧ base <+: place ∧
        t.at? place = some (.file content) ∧ found = Tree.pathOf place := by
    rw [Runner.resolveUnder_eq_ok]
    refine and_congr_right fun hlexical => ?_
    obtain ⟨-, hpath, -, hwithin, -⟩ := checks_of_checkLexical hlexical
    constructor
    · rintro ⟨base, place, hbase, hplace, hinside, hregular, hfound⟩
      have hne : root ≠ "" := by
        rintro rfl
        cases hbase
      obtain ⟨content, hcontent⟩ := (hfile place).mp hregular
      have hroot := isAbsolute_of_within hpath hne hwithin
      exact ⟨base, place, content, (Tree.resolve_eq_ok hroot).mp hbase,
        (Tree.resolve_eq_ok hpath).mp hplace, hinside, hcontent, hfound⟩
    · rintro ⟨base, place, content, hbase, hplace, hinside, hcontent, hfound⟩
      exact ⟨base, place, (Tree.resolve_eq_ok hbase.1).mpr hbase,
        (Tree.resolve_eq_ok hpath).mpr hplace, hinside, (hfile place).mpr ⟨content, hcontent⟩,
        hfound⟩
  refine ⟨hiff, fun h => ?_⟩
  obtain ⟨-, base, place, content, -, hplace, -, hcontent, rfl⟩ := hiff.mp h
  exact ⟨place, hplace, hplace.canonical hcontent⟩

/-- A tree whose data root is a link, with links to a sibling, over the parent, and out of the
root. -/
def linkedTree : Tree :=
  ⟨[(["srv"], .directory), (["srv", "data"], .directory), (["data"], .link "/srv/data"),
    (["srv", "data", "a.csv"], .file "a\n"), (["srv", "data", "b.csv"], .link "a.csv"),
    (["srv", "data", "c.csv"], .link "..//data/./b.csv"),
    (["srv", "data", "d.csv"], .link "../secret.csv"), (["srv", "secret.csv"], .file "s\n")]⟩

theorem resolveUnder_denotes_chain :
    resolveUnder linkedTree "/data" "/data/c.csv" = .ok "/srv/data/a.csv" ∧
      ∃ place, linkedTree.Denotes "/data/c.csv" place ∧
        Canonical linkedTree place "/srv/data/a.csv" := by
  have hfound : resolveUnder linkedTree "/data" "/data/c.csv" = .ok "/srv/data/a.csv" := by
    decide +kernel
  exact ⟨hfound, (resolveUnder_denotes linkedTree "/data" "/data/c.csv" "/srv/data/a.csv").2 hfound⟩

example : resolveUnder linkedTree "/data" "/data/d.csv" =
    .error (.pathRejected "/data/d.csv" "resolves outside the data root") := by decide +kernel

end Enclave.Path
