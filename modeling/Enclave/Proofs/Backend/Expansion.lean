import Enclave.Proofs.Backend.Transport

/-!
# What a cluster makes of variables

A cluster reads the value of each variable of a container before it starts the program: two dollar
signs in a row are one, and a reference `$(NAME)` to an entry before it is the value of that entry
(`Cluster.expand`). The request is the first entry, so there is nothing that it could refer to, and
what is left is that two dollar signs become one (`Cluster.expand_nil`).

A dollar sign in the text of a request stands in one of its strings, where it is written as it is.
So the text comes out as that of a request in whose strings two dollar signs are one
(`Request.undouble_text`), and this request is what the runner decodes. It is the one that was
dispatched where no string has two dollar signs in a row (`request_expanded_iff`).
-/

namespace Enclave

open Json (Value)

/-! ## Two dollar signs -/

namespace Text

/-- Two dollar signs in a row are one, from the left. -/
def undouble : List Char → List Char
  | '$' :: '$' :: rest => '$' :: undouble rest
  | c :: rest => c :: undouble rest
  | [] => []

/-- The text in which two dollar signs in a row are one. -/
def undoubled (text : String) : String := String.ofList (undouble text.toList)

variable {c : Char} {cs ds : List Char}

@[simp] theorem undouble_pair (cs : List Char) :
    undouble ('$' :: '$' :: cs) = '$' :: undouble cs := rfl

/-- A character that begins no pair stays. -/
theorem undouble_cons (h : c = '$' → cs.head? ≠ some '$') :
    undouble (c :: cs) = c :: undouble cs := by
  rw [undouble]
  rintro rest rfl rfl
  exact h rfl rfl

theorem length_undouble_le (cs : List Char) : (undouble cs).length ≤ cs.length := by
  fun_induction undouble cs with
  | case1 rest ih =>
    simp only [List.length_cons]
    omega
  | case2 c rest hpair ih =>
    simp only [List.length_cons]
    omega
  | case3 => exact Nat.le_refl 0

/-- Where there is a pair, the text gets shorter. -/
theorem length_undouble_lt (h : ['$', '$'] <:+: cs) : (undouble cs).length < cs.length := by
  fun_induction undouble cs with
  | case1 rest ih =>
    have hrest := length_undouble_le rest
    simp only [List.length_cons]
    omega
  | case2 c rest hpair ih =>
    rcases List.infix_cons_iff.mp h with hfront | hrest
    · obtain ⟨rfl, htail⟩ := List.cons_prefix_cons.mp hfront
      obtain ⟨behind, rfl⟩ := htail
      exact absurd rfl (hpair behind rfl)
    · have hshorter := ih hrest
      simp only [List.length_cons]
      omega
  | case3 => simp at h

/-- Exactly the texts without a pair stay as they are. -/
theorem undouble_eq_self_iff : undouble cs = cs ↔ ¬ ['$', '$'] <:+: cs := by
  constructor
  · intro heq hpair
    have hshorter := length_undouble_lt hpair
    rw [heq] at hshorter
    exact Nat.lt_irrefl _ hshorter
  · intro hnone
    fun_induction undouble cs with
    | case1 rest ih => exact absurd (List.prefix_append ['$', '$'] rest).isInfix hnone
    | case2 c rest hpair ih =>
      rw [ih fun hrest => hnone (List.infix_cons hrest)]
    | case3 => rfl

theorem undoubled_eq_self_iff {text : String} :
    undoubled text = text ↔ ¬ ['$', '$'] <:+: text.toList := by
  rw [← undouble_eq_self_iff, undoubled, ← String.toList_inj, String.toList_ofList]

theorem undoubled_of_notMem {text : String} (h : '$' ∉ text.toList) : undoubled text = text :=
  undoubled_eq_self_iff.mpr fun hpair => h (hpair.subset List.mem_cons_self)

/-- What has no dollar sign stays, whatever stands behind it. -/
theorem undouble_append (h : '$' ∉ cs) (rest : List Char) :
    undouble (cs ++ rest) = cs ++ undouble rest := by
  induction cs with
  | nil => rfl
  | cons c cs ih =>
    rw [List.mem_cons, not_or] at h
    rw [List.cons_append, undouble_cons (fun heq => absurd heq.symm h.1), ih h.2]
    rfl

/-! ## Texts put together -/

/-- A text becomes another one, whatever stands behind it but a dollar sign. -/
def Undoubles (cs ds : List Char) : Prop :=
  ∀ rest : List Char, rest.head? ≠ some '$' → undouble (cs ++ rest) = ds ++ undouble rest

namespace Undoubles

variable {bs cs' ds' : List Char}

theorem nil : Undoubles [] [] := fun _ _ => rfl

theorem append (h : Undoubles cs ds) (h' : Undoubles cs' ds') (hhead : cs'.head? ≠ some '$') :
    Undoubles (cs ++ cs') (ds ++ ds') := by
  intro rest hrest
  have hbehind : (cs' ++ rest).head? ≠ some '$' := by
    cases cs' with
    | nil => exact hrest
    | cons c cs' => exact hhead
  rw [List.append_assoc, h _ hbehind, h' _ hrest, List.append_assoc]

/-- In front of what has a dollar sign there may be anything that has none. -/
theorem behind (hbs : '$' ∉ bs) (h : Undoubles cs ds) : Undoubles (bs ++ cs) (bs ++ ds) := by
  intro rest hrest
  rw [List.append_assoc, undouble_append hbs, h rest hrest, List.append_assoc]

theorem cons (hc : c ≠ '$') (h : Undoubles cs ds) : Undoubles (c :: cs) (c :: ds) := by
  have hbare : '$' ∉ [c] := by simpa using hc.symm
  exact behind hbare h

theorem of_notMem (h : '$' ∉ cs) : Undoubles cs cs := by
  simpa using behind h nil

theorem eq (h : Undoubles cs ds) : undouble cs = ds := by
  have hrest := h [] (by simp)
  rwa [List.append_nil, undouble, List.append_nil] at hrest

end Undoubles

end Text

/-! ## In JSON -/

namespace Json

open Text (undouble undoubled Undoubles)

theorem dollar_notMem_escapeChar {c : Char} (h : c ≠ '$') : '$' ∉ escapeChar c :=
  fun hmem => h (eq_of_mem_escapeChar (by decide) hmem).symm

theorem head?_escapeChar_append {c : Char} (h : c ≠ '$') (cs : List Char) :
    (escapeChar c ++ cs).head? ≠ some '$' := by
  obtain ⟨d, ds, hescape⟩ : ∃ d ds, escapeChar c = d :: ds := by
    unfold escapeChar
    repeat' split
    all_goals exact ⟨_, _, rfl⟩
  rw [hescape, List.cons_append, List.head?_cons]
  rintro ⟨⟩
  exact dollar_notMem_escapeChar h (hescape ▸ List.mem_cons_self)

/-- A string is written character by character, and a dollar sign as it is. -/
theorem undoubles_escaped (cs : List Char) :
    Undoubles (cs.flatMap escapeChar) ((undouble cs).flatMap escapeChar) := by
  fun_induction undouble cs with
  | case1 rest ih =>
    intro after hafter
    exact congrArg ('$' :: ·) (ih after hafter)
  | case2 c rest hpair ih =>
    rw [List.flatMap_cons, List.flatMap_cons]
    by_cases hc : c = '$'
    · -- The next character is no dollar sign, and neither is what it is written with.
      subst hc
      intro after hafter
      have hhead : (rest.flatMap escapeChar ++ after).head? ≠ some '$' := by
        cases rest with
        | nil => exact hafter
        | cons d rest =>
          rw [List.flatMap_cons, List.append_assoc]
          exact head?_escapeChar_append (fun heq => hpair rest rfl (by rw [heq])) _
      exact (Text.undouble_cons fun _ => hhead).trans (congrArg ('$' :: ·) (ih after hafter))
    · exact .behind (dollar_notMem_escapeChar hc) ih
  | case3 => exact .nil

theorem undoubles_stringChars (s : String) :
    Undoubles (stringChars s) (stringChars (undoubled s)) := by
  have hclosed : Undoubles ['"'] ['"'] := .of_notMem (by decide)
  rw [stringChars, stringChars, undoubled, String.toList_ofList]
  exact .cons (by decide) ((undoubles_escaped _).append hclosed (by decide))

/-- Pieces with commas between them become other ones piece by piece. -/
theorem undoubles_joinChars {ps qs : List (List Char)} (h : List.Forall₂ Undoubles ps qs) :
    Undoubles (joinChars [','] ps) (joinChars [','] qs) := by
  have hrest {ps qs : List (List Char)} (h : List.Forall₂ Undoubles ps qs) :
      (ps.flatMap fun p => [','] ++ p).head? ≠ some '$' ∧
        Undoubles (ps.flatMap fun p => [','] ++ p) (qs.flatMap fun p => [','] ++ p) := by
    induction h with
    | nil => exact ⟨by simp, .nil⟩
    | cons hp _ ih =>
      refine ⟨by simp, ?_⟩
      exact Undoubles.append (.cons (by decide) hp) ih.2 ih.1
  cases h with
  | nil => exact .nil
  | cons hp htail =>
    rw [joinChars_cons, joinChars_cons]
    exact hp.append (hrest htail).2 (hrest htail).1

/-- A value whose text becomes that of another one. -/
def Value.Undoubles (v w : Value) : Prop := Text.Undoubles v.chars w.chars

theorem undoubles_str (s : String) : (Value.str s).Undoubles (.str (undoubled s)) :=
  undoubles_stringChars s

theorem undoubles_bareStr {s : String} (h : '$' ∉ s.toList) : (Value.str s).Undoubles (.str s) := by
  have hstring := undoubles_str s
  rwa [Text.undoubled_of_notMem h] at hstring

theorem undoubles_nat (n : Nat) : (Value.nat n).Undoubles (.nat n) :=
  .of_notMem (notMem_intText rfl (by decide) n)

theorem undoubles_arr {vs ws : List Value} (h : List.Forall₂ Value.Undoubles vs ws) :
    (Value.arr vs).Undoubles (.arr ws) := by
  have hitems : List.Forall₂ Undoubles (itemChars vs) (itemChars ws) := by
    induction h with
    | nil => exact .nil
    | cons hv _ ih => exact .cons hv ih
  exact .cons (by decide) ((undoubles_joinChars hitems).append (.of_notMem (by decide)) (by decide))

/-- Members of one name that has no dollar sign, where one value becomes the other. -/
structure MemberUndoubles (x y : String × Value) : Prop where
  name : y.1 = x.1
  bare : '$' ∉ x.1.toList
  value : x.2.Undoubles y.2

theorem memberUndoubles {k : String} {v w : Value} (hk : '$' ∉ k.toList) (h : v.Undoubles w) :
    MemberUndoubles (k, v) (k, w) := ⟨rfl, hk, h⟩

theorem undoubles_obj {kvs kvs' : List (String × Value)}
    (h : List.Forall₂ MemberUndoubles kvs kvs') : (Value.obj kvs).Undoubles (.obj kvs') := by
  have hfields : List.Forall₂ Undoubles (fieldChars kvs) (fieldChars kvs') := by
    induction h with
    | nil => exact .nil
    | @cons x y _ _ hxy _ ih =>
      obtain ⟨k, v⟩ := x
      obtain ⟨k', w⟩ := y
      obtain ⟨hname, hk, hvalue⟩ := hxy
      obtain rfl : k' = k := hname
      have hstring := undoubles_stringChars k'
      rw [Text.undoubled_of_notMem hk] at hstring
      exact .cons (hstring.append (.cons (by decide) hvalue) (by simp)) ih
  exact .cons (by decide)
    ((undoubles_joinChars hfields).append (.of_notMem (by decide)) (by decide))

end Json

/-! ## Requests -/

/-- A task with another text. -/
def Task.mapText (f : String → String) : Task → Task
  | .sql statement => .sql (f statement)
  | .script code => .script (f code)

theorem Task.member_mapText (f : String → String) (t : Task) : (t.mapText f).member = t.member := by
  cases t <;> rfl

theorem Task.kind_mapText (f : String → String) (t : Task) : (t.mapText f).kind = t.kind := by
  cases t <;> rfl

theorem Task.text_mapText (f : String → String) (t : Task) : (t.mapText f).text = f t.text := by
  cases t <;> rfl

namespace Request

open Text (undouble undoubled)

/-- The texts of a request. -/
def texts (r : Request) : List String :=
  r.datasetId :: r.task.text :: r.files.flatMap fun f => [f.name, f.path]

/-- A request with other texts. -/
def mapTexts (f : String → String) (r : Request) : Request :=
  { r with
    datasetId := f r.datasetId
    files := r.files.map fun file => ⟨f file.name, f file.path⟩
    task := r.task.mapText f }

/-- A request stays as it is where each of its texts does. -/
theorem mapTexts_eq_self_iff {f : String → String} {r : Request} :
    r.mapTexts f = r ↔ ∀ t ∈ r.texts, f t = t := by
  obtain ⟨id, files, task, seconds, rows, bytes⟩ := r
  have htask : task.mapText f = task ↔ f task.text = task.text := by
    cases task <;> simp [Task.mapText, Task.text]
  have hfiles : (files.map fun file => (⟨f file.name, f file.path⟩ : FileRef)) = files ↔
      ∀ t ∈ files.flatMap fun file => [file.name, file.path], f t = t := by
    induction files with
    | nil => simp
    | cons file files ih =>
      obtain ⟨name, path⟩ := file
      simp [ih, and_assoc]
  simp only [mapTexts, texts, mk.injEq, List.forall_mem_cons, htask, hfiles, and_true]
  tauto

theorem InWords.mapTexts {r : Request} (h : r.InWords) (f : String → String) :
    (r.mapTexts f).InWords := ⟨h.seconds, h.maxRows, h.maxOutputBytes⟩

/-- **The text of a request becomes the text of a request**: that in whose texts two dollar signs
are one. -/
theorem undouble_text (r : Request) :
    undouble r.text.toList = (r.mapTexts undoubled).text.toList := by
  have hfiles : (Value.arr (r.files.map FileRef.toJson)).Undoubles
      (.arr ((r.mapTexts undoubled).files.map FileRef.toJson)) := by
    refine Json.undoubles_arr ?_
    rw [mapTexts, List.map_map, List.forall₂_map_left_iff, List.forall₂_map_right_iff,
      List.forall₂_same]
    intro file _
    exact Json.undoubles_obj (.cons (Json.memberUndoubles (by decide) (Json.undoubles_str _))
      (.cons (Json.memberUndoubles (by decide) (Json.undoubles_str _)) .nil))
  have hmember : '$' ∉ r.task.member.toList := by
    rcases r.task with _ | _ <;> simp [Task.member]
  have hkind : '$' ∉ r.task.kind.wire.toList := by
    rcases r.task with _ | _ <;> simp [Task.kind, TaskKind.wire]
  have hobject : r.toJson.Undoubles (r.mapTexts undoubled).toJson := by
    rw [toJson_eq, toJson_eq]
    refine Json.undoubles_obj ?_
    rw [members, members]
    refine .cons (Json.memberUndoubles (by decide) (Json.undoubles_str _)) ?_
    refine .cons (Json.memberUndoubles (by decide) hfiles) ?_
    refine .cons (Json.memberUndoubles (by decide) ?_) ?_
    · rw [mapTexts, Task.kind_mapText]
      exact Json.undoubles_bareStr hkind
    refine .cons ?_ ?_
    · rw [mapTexts, Task.member_mapText, Task.text_mapText]
      exact Json.memberUndoubles hmember (Json.undoubles_str _)
    exact .cons (Json.memberUndoubles (by decide) (Json.undoubles_nat _))
      (.cons (Json.memberUndoubles (by decide) (Json.undoubles_nat _))
        (.cons (Json.memberUndoubles (by decide) (Json.undoubles_nat _)) .nil))
  rw [text, text, Value.compact, Value.compact, String.toList_ofList, String.toList_ofList]
  exact hobject.eq

end Request

/-! ## The expansion of a cluster -/

namespace Cluster

open Text (undouble undoubled)

/-- The value of the entry that a reference names, where `cs` stands behind its opening bracket. -/
def referenced? (earlier : Environment) (cs : List Char) : Option (List Char) :=
  if ')' ∈ cs then (earlier.lookup (String.ofList (cs.takeWhile (· != ')')))).map String.toList
  else none

/-- What a cluster makes of the value of a variable, by the entries before it: two dollar signs are
one, a reference to an entry is its value, and everything else stays. -/
def expand (earlier : Environment) : List Char → List Char
  | '$' :: '$' :: rest => '$' :: expand earlier rest
  | '$' :: '(' :: rest =>
    match referenced? earlier rest with
    | some value => value ++ expand earlier ((rest.dropWhile (· != ')')).drop 1)
    | none => '$' :: '(' :: expand earlier rest
  | c :: rest => c :: expand earlier rest
  | [] => []
termination_by cs => cs.length
decreasing_by
  · simp only [List.length_cons]
    omega
  · have hbehind := List.length_dropWhile_le (· != ')') rest
    simp only [List.length_drop, List.length_cons]
    omega
  · simp only [List.length_cons]
    omega
  · simp only [List.length_cons]
    omega

/-- The entries of a container as its program finds them, by the entries before them, the last one
first. -/
def expandEntries (earlier : Environment) : Environment → Environment
  | [] => []
  | (name, value) :: rest =>
    let entry := (name, String.ofList (expand earlier value.toList))
    entry :: expandEntries (entry :: earlier) rest

/-- Where there is nothing to refer to, two dollar signs are one and that is all. -/
theorem expand_nil (cs : List Char) : expand [] cs = undouble cs := by
  fun_induction expand [] cs with
  | case1 rest ih => rw [ih, Text.undouble_pair]
  | case2 rest value hvalue ih => simp [referenced?] at hvalue
  | case3 rest hnone ih =>
    rw [ih, Text.undouble_cons (by simp), Text.undouble_cons (by simp)]
  | case4 c rest hpair hreference ih =>
    rw [ih, Text.undouble_cons]
    rintro rfl hhead
    obtain ⟨behind, rfl⟩ := List.head?_eq_some_iff.mp hhead
    exact hpair behind rfl rfl
  | case5 => rfl

end Cluster

/-! ## The request as the runner finds it -/

namespace CommandLine

variable {start : Start} {q r : Request}

/-- The start of a program whose variables a cluster has expanded. -/
def Start.expanded (start : Start) : Start :=
  { start with environment := Cluster.expandEntries [] start.environment }

/-- A runner that is started so finds a text and decodes a request from it. -/
def Start.Decodes (start : Start) (r : Request) : Prop :=
  ∃ args text, start.args.mapM id = some args ∧
    requestText start (RunnerArguments.ofList args) = .ok text ∧
    Json.decodeText Request.decoder (Text.trim text) = .ok r

/-- A runner decodes one request. -/
theorem Start.Decodes.unique (hq : start.Decodes q) (hr : start.Decodes r) : q = r := by
  obtain ⟨args, text, hargs, htext, hdecode⟩ := hq
  obtain ⟨args', text', hargs', htext', hdecode'⟩ := hr
  obtain rfl := Option.some.inj (hargs.symm.trans hargs')
  obtain rfl := Except.ok.inj (htext.symm.trans htext')
  exact Except.ok.inj (hdecode.symm.trans hdecode')

end CommandLine

namespace Cluster

open Text (undoubled)

variable {s : Settings} {r : Request}

/-- The runner of a job decodes the request in whose texts two dollar signs are one. -/
theorem expanded_decodes (s : Settings) (hwords : r.InWords) :
    (jobStart s r).expanded.Decodes (r.mapTexts undoubled) := by
  have hvalue : String.ofList (expand [] r.text.toList) = (r.mapTexts undoubled).text := by
    rw [expand_nil, Request.undouble_text, String.ofList_toList]
  refine ⟨["--request-env", requestVariable], (r.mapTexts undoubled).text, rfl, ?_, ?_⟩
  · exact congrArg Except.ok hvalue
  · rw [Request.trim_text]
    exact (hwords.mapTexts undoubled).decodeText_text

/-- The runner of a job decodes the request of the job exactly where no text of it has two dollar
signs in a row. -/
theorem expanded_decodes_iff (s : Settings) (hwords : r.InWords) :
    (jobStart s r).expanded.Decodes r ↔ ∀ t ∈ r.texts, ¬ ['$', '$'] <:+: t.toList := by
  have hexpanded := expanded_decodes s hwords
  have hsame : (jobStart s r).expanded.Decodes r ↔ r.mapTexts undoubled = r := by
    refine ⟨hexpanded.unique, fun heq => ?_⟩
    rwa [heq] at hexpanded
  simp only [hsame, Request.mapTexts_eq_self_iff, Text.undoubled_eq_self_iff]

/-- A text that a cluster reads as a job with one runner, which decodes the request in whose texts
two dollar signs are one, and the request itself exactly where no text of it has two in a row. -/
def Expands (text : String) (r : Request) : Prop :=
  ∃ manifest start, Value.parse text = .ok manifest ∧ startsOf manifest = [start] ∧
    start.expanded.Decodes (r.mapTexts undoubled) ∧
    (start.expanded.Decodes r ↔ ∀ t ∈ r.texts, ¬ ['$', '$'] <:+: t.toList)

theorem expands_manifestText {name : String} {manifest : Value} (hwords : r.InWords)
    (hcluster : s.cluster.InWords) (h : job s name r = .ok manifest) :
    Expands (manifestText manifest) r :=
  ⟨manifest.canonical, jobStart s r, parse_manifestText hwords hcluster h, (startsOf_job h).2,
    expanded_decodes s hwords, expanded_decodes_iff s hwords⟩

end Cluster

/-- **What the runner decodes behind the expansion of a cluster.** Apart from the network policy,
whatever a dispatch applies is a job whose runner decodes the request in whose texts two dollar
signs are one, and so the request that was dispatched exactly where no text of it has two dollar
signs in a row. Such a job is applied for every request of a dataset with a plain name, once the
network policy is in force, unless the clock cannot show the end of its time. -/
theorem request_expanded_iff {s : Settings} {r : Request} (hwords : r.InWords)
    (hcluster : s.cluster.InWords) (hmode : s.mode = .clusterJob) (command : Command)
    (name : String) (startMs : Nat) (c : Connection) :
    let d := s.account command name startMs r c
    (∀ x ∈ d.exchanges, ∀ text, x.call.input = some text →
      text = Cluster.manifestText (Cluster.networkPolicy s) ∨ Cluster.Expands text r) ∧
    (Naming.isDatasetId r.datasetId = true → d.Shown →
      (Cluster.Job.guardNetwork ⟨s, command, name, r⟩ ⟨c, 0⟩).1 = .ok () →
      ∃ x ∈ d.exchanges, ∃ text, x.call.input = some text ∧ Cluster.Expands text r) := by
  intro d
  constructor
  · intro x hx text htext
    obtain hpolicy | ⟨manifest, hmanifest, rfl⟩ := Settings.account_applied hmode hx htext
    · exact .inl hpolicy
    · exact .inr (Cluster.expands_manifestText hwords hcluster hmanifest)
  · intro hid hshown hguard
    obtain ⟨manifest, hmanifest⟩ := Cluster.exists_job s name hid
    obtain ⟨x, hx, htext⟩ := Settings.account_applies hmode hshown hguard hmanifest
    exact ⟨x, hx, _, htext, Cluster.expands_manifestText hwords hcluster hmanifest⟩

/-- The first dispatch of a request on a cluster, by a command that does everything and says
nothing. -/
def firstOnCluster (r : Request) : Dispatched :=
  Settings.clusterSettings.account Settings.silentCommand "sqlsandbox-0" 0 r .fresh

/-- A request that looks like it refers to a variable. -/
theorem request_expanded_iff_hostile :
    ∃ x ∈ (firstOnCluster hostileRequest).exchanges, ∃ text manifest start,
      x.call.input = some text ∧ Value.parse text = .ok manifest ∧
      Cluster.startsOf manifest = [start] ∧ start.expanded.Decodes hostileRequest := by
  have hwords : hostileRequest.InWords := ⟨by decide, by decide, by decide⟩
  have hshown : (firstOnCluster hostileRequest).Shown := by
    have hlate : 30 * 1000 < clockEndMs := by decide
    exact hlate
  obtain ⟨-, happlied⟩ := request_expanded_iff hwords (s := Settings.clusterSettings)
    ⟨by decide, by decide, by decide⟩ rfl Settings.silentCommand "sqlsandbox-0" 0 .fresh
  obtain ⟨x, hx, text, htext, manifest, start, hparse, hstarts, -, hsame⟩ :=
    happlied (by decide) hshown rfl
  exact ⟨x, hx, text, manifest, start, htext, hparse, hstarts, hsame.mpr (by decide +kernel)⟩

/-- A script with two dollar signs in a row. -/
def dollarRequest : Request where
  datasetId := "tickets"
  files := []
  task := .script "x = '$$'"
  seconds := 30
  maxRows := 10
  maxOutputBytes := 65536

/-- **Two dollar signs do not reach the runner of a job.** It decodes a script with one, which is
not the script that was dispatched. -/
theorem request_expanded_dollars :
    ∃ x ∈ (firstOnCluster dollarRequest).exchanges, ∃ text manifest start,
      x.call.input = some text ∧ Value.parse text = .ok manifest ∧
      Cluster.startsOf manifest = [start] ∧
      start.expanded.Decodes { dollarRequest with task := .script "x = '$'" } ∧
      ¬ start.expanded.Decodes dollarRequest := by
  have hwords : dollarRequest.InWords := ⟨by decide, by decide, by decide⟩
  have hshown : (firstOnCluster dollarRequest).Shown := by
    have hlate : 30 * 1000 < clockEndMs := by decide
    exact hlate
  obtain ⟨job, hjob⟩ :=
    Cluster.exists_job Settings.clusterSettings "sqlsandbox-0" (r := dollarRequest) (by decide)
  obtain ⟨x, hx, htext⟩ := Settings.account_applies rfl hshown rfl hjob
  obtain ⟨manifest, start, hparse, hstarts, hdecodes, -⟩ :=
    Cluster.expands_manifestText hwords ⟨by decide, by decide, by decide⟩ hjob
  have hsingle : dollarRequest.mapTexts Text.undoubled
      = { dollarRequest with task := .script "x = '$'" } := by decide
  rw [hsingle] at hdecodes
  refine ⟨x, hx, _, manifest, start, htext, hparse, hstarts, hdecodes, fun hsame => ?_⟩
  exact absurd (hsame.unique hdecodes) (by decide)

end Enclave
