import CairoAsm.Proofs.Text.Lines
import CairoAsm.Text.Dedent
import Mathlib.Data.List.Infix

/-!
What moving lines to the left does. The margin is the longest text that every line but the blank
ones is indented by, and lines that were indented alike are found again behind it.
-/
namespace CairoAsm.Text

theorem prefix_commonStart_iff {m cs ds : List Char} :
    m <+: commonStart cs ds ↔ m <+: cs ∧ m <+: ds := by
  induction cs generalizing m ds with
  | nil =>
    simp only [commonStart, List.prefix_nil, iff_self_and]
    intro empty
    simp only [empty, List.nil_prefix]
  | cons c cs ih =>
    cases ds with
    | nil =>
      simp only [commonStart, List.prefix_nil, iff_and_self]
      intro empty
      simp only [empty, List.nil_prefix]
    | cons d ds =>
      cases m with
      | nil => simp only [List.nil_prefix, and_self]
      | cons a m =>
        by_cases same : c = d
        · subst same
          simp only [commonStart, if_true, List.cons_prefix_cons, ih]
          tauto
        · simp only [commonStart, if_neg same, List.cons_prefix_cons, List.prefix_nil]
          constructor
          · intro impossible
            cases impossible
          · intro both
            exact absurd (both.1.1.symm.trans both.2.1) same

theorem prefix_foldl_commonStart_iff {m first : List Char} {others : List (List Char)} :
    m <+: others.foldl commonStart first ↔ m <+: first ∧ ∀ cs ∈ others, m <+: cs := by
  induction others generalizing first with
  | nil => simp
  | cons cs others ih =>
    simp only [List.foldl_cons, ih, prefix_commonStart_iff, List.forall_mem_cons, and_assoc]

section
variable {ls : List String} {m : List Char}

/-- The lines are indented by the margin and by nothing longer. -/
theorem prefix_margin_iff (filled : ∃ l ∈ ls, ¬ isBlankLine l) :
    m <+: margin ls ↔ ∀ l ∈ ls, ¬ isBlankLine l → m <+: indentation l := by
  have listed : (∀ cs ∈ (ls.filter fun l => !isBlankLine l).map indentation, m <+: cs) ↔
      ∀ l ∈ ls, ¬ isBlankLine l → m <+: indentation l := by
    simp only [List.forall_mem_map, List.mem_filter, Bool.not_eq_true', Bool.not_eq_true, and_imp]
  rw [← listed, margin]
  cases found : (ls.filter fun l => !isBlankLine l).map indentation with
  | nil =>
    obtain ⟨l, member, full⟩ := filled
    simp only [List.map_eq_nil_iff, List.filter_eq_nil_iff] at found
    exact absurd full (by simpa using found l member)
  | cons first others => simp only [prefix_foldl_commonStart_iff, List.forall_mem_cons]

/-- A margin is reached where one of the lines is indented by nothing else. -/
theorem margin_eq (indented : ∀ l ∈ ls, ¬ isBlankLine l → m <+: indentation l)
    (reached : ∃ l ∈ ls, ¬ isBlankLine l ∧ indentation l = m) : margin ls = m := by
  obtain ⟨l, member, full, same⟩ := reached
  have filled : ∃ l ∈ ls, ¬ isBlankLine l := ⟨l, member, full⟩
  have long : m <+: margin ls := (prefix_margin_iff filled).mpr indented
  have short : margin ls <+: m := same ▸ (prefix_margin_iff filled).mp List.prefix_rfl l member full
  exact short.eq_of_length_le long.length_le
end

section
variable {m t : String} (blank : isBlankLine m)
include blank

theorem indentation_append : indentation (m ++ t) = m.toList ++ indentation t := by
  rw [indentation, String.toList_append,
    List.takeWhile_append_of_pos fun c member => List.all_eq_true.mp blank c member]
  rfl

theorem isBlankLine_append : isBlankLine (m ++ t) = isBlankLine t := by
  have all : m.toList.all isIndent = true := blank
  simp only [isBlankLine, String.toList_append, List.all_append, all, Bool.true_and]

theorem dedentLine_append (full : ¬ isBlankLine t) :
    dedentLine m.toList.length (m ++ t) = t := by
  rw [dedentLine, isBlankLine_append blank, if_neg full, String.toList_append, List.drop_left,
    String.ofList_toList]

theorem newline_notMem_of_isBlankLine : '\n' ∉ m.toList := by
  intro member
  have indent := List.all_eq_true.mp blank '\n' member
  exact absurd indent (by decide)

theorem dedentLine_of_isBlankLine (width : Nat) : dedentLine width m = "" := by
  rw [dedentLine, if_pos blank]
end

theorem dedent_unlines {ls : List String} (whole : ∀ l ∈ ls, '\n' ∉ l.toList)
    (nonempty : ls ≠ []) :
    dedent (unlines ls) = unlines (ls.map (dedentLine (margin ls).length)) := by
  simp only [dedent, lines_unlines whole nonempty]

section
variable {m last : String} {ls : List String} (indent : isBlankLine m) (blank : isBlankLine last)
  (filled : ∀ l ∈ ls, ¬ isBlankLine l)
include indent blank filled

/-- Between blank lines at both ends the margin is what the other lines have been indented by. -/
theorem margin_indented (flush : ∃ l ∈ ls, indentation l = []) :
    margin ("" :: (ls.map (m ++ ·) ++ [last])) = m.toList := by
  apply margin_eq
  · refine List.forall_mem_cons.mpr ⟨absurd rfl, List.forall_mem_append.mpr ⟨?_, ?_⟩⟩
    · refine List.forall_mem_map.mpr fun l _ _ => ?_
      rw [indentation_append indent]
      exact List.prefix_append _ _
    · exact List.forall_mem_singleton.mpr (absurd blank)
  · obtain ⟨l, member, start⟩ := flush
    refine ⟨m ++ l, by simp [member], ?_, ?_⟩
    · rw [isBlankLine_append indent]
      exact filled l member
    · rw [indentation_append indent, start, List.append_nil]

theorem map_dedentLine_indented :
    ("" :: (ls.map (m ++ ·) ++ [last])).map (dedentLine m.toList.length) = "" :: (ls ++ [""]) := by
  have back : (ls.map (m ++ ·)).map (dedentLine m.toList.length) = ls.map id := by
    rw [List.map_map]
    exact List.map_congr_left fun l member => dedentLine_append indent (filled l member)
  rw [List.map_cons, List.map_append, back, List.map_id, List.map_singleton,
    dedentLine_of_isBlankLine blank, dedentLine_of_isBlankLine rfl]

/-- Lines that have been indented alike, one of them by nothing else, are found again. -/
theorem dedent_indented (whole : ∀ l ∈ ls, '\n' ∉ l.toList)
    (flush : ∃ l ∈ ls, indentation l = []) :
    dedent (unlines ("" :: (ls.map (m ++ ·) ++ [last]))) = "\n" ++ unlines ls ++ "\n" := by
  have unbroken : ∀ l ∈ "" :: (ls.map (m ++ ·) ++ [last]), '\n' ∉ l.toList := by
    have front := newline_notMem_of_isBlankLine indent
    refine List.forall_mem_cons.mpr ⟨nofun, List.forall_mem_append.mpr ⟨?_, ?_⟩⟩
    · refine List.forall_mem_map.mpr fun l member => ?_
      rw [String.toList_append]
      exact List.not_mem_append front (whole l member)
    · exact List.forall_mem_singleton.mpr (newline_notMem_of_isBlankLine blank)
  have nonempty : ls ≠ [] := by
    obtain ⟨l, member, _⟩ := flush
    exact List.ne_nil_of_mem member
  rw [dedent_unlines unbroken (List.cons_ne_nil _ _), margin_indented indent blank filled flush,
    map_dedentLine_indented indent blank filled, unlines_cons (by simp), unlines_concat nonempty]
  simp [String.append_assoc]
end

theorem dropWhile_newline {cs : List Char} (plain : cs.head? ≠ some '\n') :
    cs.dropWhile (· = '\n') = cs := by
  cases cs with
  | nil => rfl
  | cons c cs =>
    have other : c ≠ '\n' := by simpa using plain
    exact List.dropWhile_cons_of_neg (by simpa using other)

/-- Breaks around a text that has none at its ends are all that is trimmed. -/
theorem trimBreaks_framed {s : String} (first : s.toList.head? ≠ some '\n')
    (last : s.toList.getLast? ≠ some '\n') : trimBreaks ("\n" ++ s ++ "\n") = s := by
  have reversed : s.toList.reverse.head? ≠ some '\n' := by rwa [List.head?_reverse]
  have front : ("\n" ++ s ++ "\n").toList.dropWhile (· = '\n') =
      (s.toList ++ ['\n']).dropWhile (· = '\n') := by
    simp
  rw [trimBreaks, front]
  cases found : s.toList with
  | nil =>
    have empty : s = "" := String.toList_inj.mp found
    rw [empty]
    rfl
  | cons c cs =>
    have kept : (s.toList ++ ['\n']).dropWhile (· = '\n') = s.toList ++ ['\n'] :=
      dropWhile_newline (by simpa [found] using first)
    have back : ((s.toList ++ ['\n']).reverse).dropWhile (· = '\n') = s.toList.reverse := by
      rw [List.reverse_append, List.reverse_singleton, List.singleton_append,
        List.dropWhile_cons_of_pos (by decide), dropWhile_newline reversed]
    rw [← found, kept, back, List.reverse_reverse, String.ofList_toList]

end CairoAsm.Text
