import Enclave.Proofs.Text.Blank
import Mathlib.Data.List.Induction

/-!
# Lines of a trimmed text

Looking through the lines of a text that was trimmed finds what is found between its line feeds
(`filterMap_linesOf_trimChars`), as long as blanks around a line do not matter to the one who looks.
Trimming may take away whole lines, and `linesOf` takes away carriage returns and a last empty
line; such a look misses none of them.
-/

namespace Enclave.Text

variable {β : Type} {look : List Char → Option β} {c : Char} {cs : List Char}

/-- A look at a line that passes over the blanks at its ends and finds nothing in an empty line. -/
structure PassesBlanks (look : List Char → Option β) : Prop where
  front : ∀ c line, isBlank c = true → look (c :: line) = look line
  back : ∀ c line, isBlank c = true → look (line ++ [c]) = look line
  empty : look [] = none

theorem foldr_lines (cs : List Char) :
    let p := cs.foldr (fun c acc => if c == '\n' then ([], acc.1 :: acc.2) else (c :: acc.1, acc.2))
      (([], []) : List Char × List (List Char))
    p.1 :: p.2 = cs.splitOn '\n' := by
  induction cs with
  | nil => rfl
  | cons c cs ih =>
    rw [List.splitOn_cons_eq_if_modifyHead, ← ih, List.foldr_cons]
    split
    · rfl
    · rfl

theorem filterMap_linesOf (h : PassesBlanks look) (cs : List Char) :
    (linesOf cs).filterMap look = (cs.splitOn '\n').filterMap look := by
  have hstrip : (look ∘ fun line => if line.getLast? == some '\r' then line.dropLast else line)
      = look := by
    funext line
    rw [Function.comp_apply]
    split
    · rename_i hlast
      obtain ⟨init, rfl⟩ := List.getLast?_eq_some_iff.mp (beq_iff_eq.mp hlast)
      rw [List.dropLast_concat, h.back _ _ rfl]
    · rfl
  have hsplit := foldr_lines cs
  simp only at hsplit
  unfold linesOf
  simp only [hsplit, List.filterMap_map, hstrip]
  split
  · rename_i hlast
    -- The line that is dropped is empty, and nothing is found in an empty line.
    obtain ⟨init, hinit⟩ := List.getLast?_eq_some_iff.mp (beq_iff_eq.mp hlast)
    rw [hinit, List.dropLast_concat, List.filterMap_append, List.filterMap_cons_none h.empty,
      List.filterMap_nil, List.append_nil]
  · rfl

/-! ## Trimming -/

theorem filterMap_splitOn_cons (h : PassesBlanks look) (hc : isBlank c = true) (cs : List Char) :
    ((c :: cs).splitOn '\n').filterMap look = (cs.splitOn '\n').filterMap look := by
  rw [List.splitOn_cons_eq_if_modifyHead]
  split
  · rw [List.filterMap_cons_none h.empty]
  · obtain ⟨line, lines, hlines⟩ := List.exists_cons_of_ne_nil (List.splitOn_ne_nil '\n' cs)
    rw [hlines, List.modifyHead_cons, List.filterMap_cons, List.filterMap_cons, h.front c line hc]

/-- A character at the end of a text stands at the end of its last line. -/
theorem splitOn_append_singleton (hc : c ≠ '\n') (cs : List Char) :
    ∃ init last, cs.splitOn '\n' = init ++ [last] ∧
      (cs ++ [c]).splitOn '\n' = init ++ [last ++ [c]] := by
  induction cs with
  | nil =>
    refine ⟨[], [], rfl, ?_⟩
    rw [List.nil_append, List.splitOn_eq_singleton (by simpa using hc.symm)]
    rfl
  | cons d cs ih =>
    obtain ⟨init, last, hcs, hcsc⟩ := ih
    rw [List.cons_append, List.splitOn_cons_eq_if_modifyHead, List.splitOn_cons_eq_if_modifyHead,
      hcs, hcsc]
    split
    · exact ⟨[] :: init, last, rfl, rfl⟩
    · cases init with
      | nil => exact ⟨[], d :: last, rfl, rfl⟩
      | cons first init => exact ⟨(d :: first) :: init, last, rfl, rfl⟩

theorem filterMap_splitOn_append (h : PassesBlanks look) (hc : isBlank c = true)
    (cs : List Char) :
    ((cs ++ [c]).splitOn '\n').filterMap look = (cs.splitOn '\n').filterMap look := by
  by_cases hfeed : c = '\n'
  · subst hfeed
    rw [List.splitOn_append_cons_self, List.filterMap_append, List.splitOn_nil,
      List.filterMap_cons_none h.empty, List.filterMap_nil, List.append_nil]
  · obtain ⟨init, last, hcs, hcsc⟩ := splitOn_append_singleton hfeed cs
    rw [hcs, hcsc, List.filterMap_append, List.filterMap_append, List.filterMap_cons,
      List.filterMap_cons, h.back c last hc]

theorem filterMap_splitOn_trimStart (h : PassesBlanks look) (cs : List Char) :
    ((trimStart cs).splitOn '\n').filterMap look = (cs.splitOn '\n').filterMap look := by
  induction cs with
  | nil => rfl
  | cons c cs ih =>
    by_cases hc : isBlank c = true
    · rw [trimStart, List.dropWhile_cons_of_pos hc, filterMap_splitOn_cons h hc]
      exact ih
    · rw [trimStart, List.dropWhile_cons_of_neg hc]

theorem filterMap_splitOn_trimEnd (h : PassesBlanks look) (cs : List Char) :
    ((trimEnd cs).splitOn '\n').filterMap look = (cs.splitOn '\n').filterMap look := by
  induction cs using List.reverseRecOn with
  | nil => rfl
  | append_singleton cs c ih =>
    by_cases hc : isBlank c = true
    · rw [trimEnd_append_singleton hc, ih, filterMap_splitOn_append h hc]
    · rw [trimEnd_append_singleton_of_not (by simpa using hc)]

/-- Looking through the lines of a trimmed text finds what stands between the line feeds. -/
theorem filterMap_linesOf_trimChars (h : PassesBlanks look) (cs : List Char) :
    (linesOf (trimChars cs)).filterMap look = (cs.splitOn '\n').filterMap look := by
  rw [filterMap_linesOf h, trimChars, filterMap_splitOn_trimEnd h, filterMap_splitOn_trimStart h]

/-- Looking at lines after trimming them passes over the blanks at their ends. -/
theorem passesBlanks_trimChars {look : List Char → Option β} (h : look [] = none) :
    PassesBlanks fun line => look (trimChars line) where
  front c line hc := by rw [trimChars_cons hc]
  back c line hc := by rw [trimChars_append_singleton hc]
  empty := h

end Enclave.Text
