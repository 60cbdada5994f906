import CairoAsm.Text.Lines
import Mathlib.Data.List.Basic

namespace CairoAsm.Text

theorem lines_of_newline_notMem {s : String} (h : '\n' ∉ s.toList) : lines s = [s] := by
  simp [lines, List.splitOn_eq_singleton h]

theorem notMem_of_mem_splitOn {a : Char} {cs l : List Char} (h : l ∈ cs.splitOn a) : a ∉ l := by
  induction cs generalizing l with
  | nil => simp_all
  | cons c cs ih =>
    rw [List.splitOn_cons_eq_if_modifyHead] at h
    split at h
    · rcases List.mem_cons.mp h with rfl | h
      · exact List.not_mem_nil
      · exact ih h
    · rename_i other
      obtain ⟨first, rest, hsplit⟩ := List.exists_cons_of_ne_nil (List.splitOn_ne_nil a cs)
      rw [hsplit, List.modifyHead_cons] at h
      rcases List.mem_cons.mp h with rfl | h
      · have notFirst : a ∉ first := ih (hsplit ▸ List.mem_cons_self)
        have notHere : a ≠ c := fun same => other (by simp [same])
        simp [notFirst, notHere]
      · exact ih (hsplit ▸ List.mem_cons_of_mem first h)

theorem newline_notMem_of_mem_lines {s l : String} (h : l ∈ lines s) : '\n' ∉ l.toList := by
  obtain ⟨cs, hcs, rfl⟩ := List.mem_map.mp h
  rw [String.toList_ofList]
  exact notMem_of_mem_splitOn hcs

theorem length_splitOn (a : Char) (cs : List Char) : (cs.splitOn a).length = cs.count a + 1 := by
  induction cs with
  | nil => simp
  | cons c cs ih =>
    simp only [List.splitOn_cons_eq_if_modifyHead, List.count_cons]
    split
    · simp [ih]
    · simp [ih]

theorem length_lines (s : String) : (lines s).length = s.toList.count '\n' + 1 := by
  simp only [lines, List.length_map, length_splitOn]

theorem unlines_cons {l : String} {ls : List String} (nonempty : ls ≠ []) :
    unlines (l :: ls) = l ++ "\n" ++ unlines ls :=
  String.intercalate_cons_of_ne_nil nonempty

theorem mem_toList_unlines {ls : List String} {c : Char} (h : c ∈ (unlines ls).toList) :
    c = '\n' ∨ ∃ l ∈ ls, c ∈ l.toList := by
  induction ls with
  | nil => exact absurd h List.not_mem_nil
  | cons l ls ih =>
    by_cases last : ls = []
    · subst last
      exact .inr ⟨l, List.mem_cons_self, by simpa [unlines] using h⟩
    · rw [unlines_cons last] at h
      simp only [String.toList_append, List.mem_append] at h
      rcases h with (here | break_) | later
      · exact .inr ⟨l, List.mem_cons_self, here⟩
      · exact .inl (by simpa using break_)
      · rcases ih later with break_ | ⟨m, hm, inside⟩
        · exact .inl break_
        · exact .inr ⟨m, List.mem_cons_of_mem l hm, inside⟩

theorem lines_append_newline (s t : String) : lines (s ++ "\n" ++ t) = lines s ++ lines t := by
  simp [lines, List.splitOn_append_cons_self]

/-- Breaks inside of the joined texts count too. -/
theorem lines_unlines_eq_flatMap {ls : List String} (nonempty : ls ≠ []) :
    lines (unlines ls) = ls.flatMap lines := by
  induction ls with
  | nil => exact absurd rfl nonempty
  | cons l ls ih =>
    by_cases last : ls = []
    · subst last
      simp [unlines]
    · rw [unlines_cons last, lines_append_newline, ih last, List.flatMap_cons]

theorem unlines_flatMap_lines (ls : List String) : unlines (ls.flatMap lines) = unlines ls := by
  by_cases nonempty : ls = []
  · subst nonempty
    rfl
  · rw [← lines_unlines_eq_flatMap nonempty, unlines_lines]

/-- A single empty line looks like no line, and nothing else is ambiguous. -/
theorem unlines_inj {ls ms : List String} (hl : ∀ l ∈ ls, '\n' ∉ l.toList)
    (hm : ∀ l ∈ ms, '\n' ∉ l.toList) (notEmpty : ls ≠ [""]) (notEmpty' : ms ≠ [""])
    (h : unlines ls = unlines ms) : ls = ms := by
  have emptyLines : lines "" = [""] := lines_of_newline_notMem (by simp)
  by_cases none : ls = []
  · by_cases none' : ms = []
    · rw [none, none']
    · have same := congrArg lines h
      rw [lines_unlines hm none', none] at same
      exact absurd (same.symm.trans emptyLines) notEmpty'
  · have same := congrArg lines h
    rw [lines_unlines hl none] at same
    by_cases none' : ms = []
    · rw [none'] at same
      exact absurd (same.trans emptyLines) notEmpty
    · rwa [lines_unlines hm none'] at same

theorem unlines_concat {ls : List String} (nonempty : ls ≠ []) (l : String) :
    unlines (ls ++ [l]) = unlines ls ++ "\n" ++ l := by
  have parts := String.intercalate_append_of_ne_nil (s := "\n") nonempty (List.cons_ne_nil l [])
  simpa [unlines] using parts

/-- Lines that are not empty make a text that does not start with a break. -/
theorem head?_unlines_ne {ls : List String} (whole : ∀ l ∈ ls, '\n' ∉ l.toList)
    (filled : ∀ l ∈ ls, l ≠ "") : (unlines ls).toList.head? ≠ some '\n' := by
  intro first
  cases ls with
  | nil => cases first
  | cons l ls =>
    have start : (unlines (l :: ls)).toList.head? = l.toList.head? := by
      have some : l.toList ≠ [] := by simpa using filled l List.mem_cons_self
      by_cases last : ls = []
      · simp [last, unlines]
      · rw [unlines_cons last, String.toList_append, String.toList_append, List.append_assoc,
          List.head?_append_of_ne_nil _ some]
    rw [start] at first
    exact whole l List.mem_cons_self (List.mem_of_head? first)

theorem getLast?_unlines_ne {ls : List String} (whole : ∀ l ∈ ls, '\n' ∉ l.toList)
    (filled : ∀ l ∈ ls, l ≠ "") : (unlines ls).toList.getLast? ≠ some '\n' := by
  intro last
  cases List.eq_nil_or_concat ls with
  | inl none =>
    subst none
    cases last
  | inr some =>
    obtain ⟨front, l, rfl⟩ := some
    have member : l ∈ front.concat l := by simp
    have finish : (unlines (front.concat l)).toList.getLast? = l.toList.getLast? := by
      have some : l.toList ≠ [] := by simpa using filled l member
      rw [List.concat_eq_append]
      by_cases alone : front = []
      · simp [alone, unlines]
      · rw [unlines_concat alone, String.toList_append, List.getLast?_append_of_ne_nil _ some]
    rw [finish] at last
    exact whole l member (List.mem_of_getLast? last)

end CairoAsm.Text
