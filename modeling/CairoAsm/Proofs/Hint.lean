import CairoAsm.Proofs.Lists
import CairoAsm.Proofs.Operand
import CairoAsm.Proofs.Text.Dedent

/-!
Texts of hints. The kinds that compute a fixed thing write code that tells the kind and its
operands; the lines of any hint whose own code is on one line show where the hint ends.
-/
namespace CairoAsm.Hint
open Text

/-- The code of a hint that is given as code. -/
def source? : Hint → Option String
  | .verbatim source => some source
  | _ => none

/-- Code that is given keeps to one line. -/
def Unbroken (h : Hint) : Prop := ∀ source ∈ h.source?, '\n' ∉ source.toList

/-- The code follows from operands. -/
def Structured (h : Hint) : Prop := h.source? = none

instance (h : Hint) : Decidable h.Unbroken :=
  inferInstanceAs (Decidable (∀ source ∈ h.source?, '\n' ∉ source.toList))

instance (h : Hint) : Decidable h.Structured := inferInstanceAs (Decidable (h.source? = none))

theorem eq_verbatim {h : Hint} {source : String} (given : h.source? = some source) :
    h = .verbatim source := by
  cases h with
  | verbatim other => exact congrArg verbatim (Option.some.inj given)
  | _ => cases given

/-- Lines framed by line breaks. -/
def block (lines : List String) : String :=
  "\n" ++ "\n".intercalate lines ++ "\n"

/-- The lines of the code of a hint that has several. -/
def statements : Hint → List String
  | .squareRoot value dst => [
      "import math",
      fullTarget dst ++ " = math.isqrt(" ++ value.fullForm ++ ")"]
  | .allocConstantSize size dst => [
      "if '__boxed_segment' not in globals():",
      "    __boxed_segment = segments.add()",
      fullTarget dst ++ " = __boxed_segment",
      "__boxed_segment += " ++ size.fullForm]
  | .debugPrint first last => [
      "curr = " ++ first.fullForm,
      "end = " ++ last.fullForm,
      "while curr != end:",
      "    print(hex(memory[curr]))",
      "    curr += 1"]
  | _ => []

/-- Printable, and neither blank nor starting as a brace does. -/
def Visible (l : String) : Prop := Printable l ∧ ¬ isBlankLine l ∧ l.toList.head? ≠ some '%'

instance (l : String) : Decidable (Visible l) :=
  inferInstanceAs (Decidable (Printable l ∧ ¬ isBlankLine l ∧ l.toList.head? ≠ some '%'))

theorem Visible.append {l t : String} (start : Visible l) (rest : Printable t) :
    Visible (l ++ t) := by
  obtain ⟨printable, full, noBrace⟩ := start
  refine ⟨printable_append.mpr ⟨printable, rest⟩, ?_, ?_⟩
  · simp only [isBlankLine, String.toList_append, List.all_append, Bool.and_eq_true] at full ⊢
    exact fun blank => full blank.1
  · cases found : l.toList with
    | nil => exact absurd (by simp [isBlankLine, found]) full
    | cons c cs => simpa [found] using noBrace

theorem visible_fullTarget (dst : Cell) : Visible (fullTarget dst) :=
  .append (by decide) dst.printable_fullText

/-- No operand brings a line break into a statement, or makes it start as a brace does. -/
theorem visible_of_mem_statements {h : Hint} {l : String} (member : l ∈ h.statements) :
    Visible l := by
  cases h with
  | squareRoot value dst =>
    simp only [statements, List.mem_cons, List.not_mem_nil, or_false] at member
    obtain rfl | rfl := member
    · decide
    · exact (((visible_fullTarget dst).append (by decide)).append
        value.printable_fullForm).append (by decide)
  | allocConstantSize size dst =>
    simp only [statements, List.mem_cons, List.not_mem_nil, or_false] at member
    obtain rfl | rfl | rfl | rfl := member
    · decide
    · decide
    · exact (visible_fullTarget dst).append (by decide)
    · exact .append (by decide) size.printable_fullForm
  | debugPrint first last =>
    simp only [statements, List.mem_cons, List.not_mem_nil, or_false] at member
    obtain rfl | rfl | rfl | rfl | rfl := member
    · exact .append (by decide) first.printable_fullForm
    · exact .append (by decide) last.printable_fullForm
    · decide
    · decide
    · decide
  | _ => cases member

/-- What a template indents alike is the code, whatever operands are inserted in it. -/
theorem multiline_eq_block {m last : String} {ls : List String} (indent : isBlankLine m)
    (blank : isBlankLine last) (plain : ∀ l ∈ ls, Printable l ∧ ¬ isBlankLine l)
    (flush : ∃ l ∈ ls, indentation l = []) :
    multiline ("" :: (ls.map (m ++ ·) ++ [last])) = block ls := by
  have whole : ∀ l ∈ ls, '\n' ∉ l.toList := fun l member => (plain l member).1.newline_notMem
  have visible : ∀ l ∈ ls, ¬ isBlankLine l := fun l member => (plain l member).2
  have filled : ∀ l ∈ ls, l ≠ "" := by
    intro l member empty
    subst empty
    exact visible "" member rfl
  rw [multiline, dedent_indented indent blank visible whole flush,
    trimBreaks_framed (head?_unlines_ne whole filled) (getLast?_unlines_ne whole filled)]
  rfl

/-- Lines as a template has them. -/
def indented (ls : List String) : List String :=
  "" :: (ls.map ("            " ++ ·) ++ ["        "])

theorem fullCode_eq_multiline {h : Hint} (several : h.statements ≠ []) :
    h.fullCode = multiline (indented h.statements) := by
  cases h with
  | squareRoot value dst => simp [fullCode, indented, statements, ← String.append_assoc]
  | allocConstantSize size dst => simp [fullCode, indented, statements, ← String.append_assoc]
  | debugPrint first last => simp [fullCode, indented, statements, ← String.append_assoc]
  | _ => exact absurd rfl several

theorem exists_flush {h : Hint} (several : h.statements ≠ []) :
    ∃ l ∈ h.statements, indentation l = [] := by
  cases h with
  | squareRoot value dst => exact ⟨"import math", by simp [statements], rfl⟩
  | allocConstantSize size dst =>
    exact ⟨"if '__boxed_segment' not in globals():", by simp [statements], rfl⟩
  | debugPrint first last => exact ⟨"while curr != end:", by simp [statements], rfl⟩
  | _ => exact absurd rfl several

theorem fullCode_eq_block {h : Hint} (several : h.statements ≠ []) :
    h.fullCode = block h.statements := by
  rw [fullCode_eq_multiline several]
  refine multiline_eq_block rfl rfl (fun l member => ?_) (exists_flush several)
  obtain ⟨printable, visible, _⟩ := visible_of_mem_statements member
  exact ⟨printable, visible⟩

section
variable (dst : Cell) (l r : Operand)

theorem fullCode_allocSegment :
    (allocSegment dst).fullCode.toList =
      "memory".toList ++ (dst.fullText.toList ++ (" = ".toList ++ "segments.add()".toList)) := by
  simp [fullCode, fullTarget]

theorem fullCode_lessThan :
    (lessThan l r dst).fullCode.toList =
      "memory".toList ++ (dst.fullText.toList ++ (" = ".toList ++
        (l.fullForm.toList ++ ' ' :: '<' :: ' ' :: (r.fullForm.toList ++ [])))) := by
  simp [fullCode, fullTarget]

theorem fullCode_lessOrEqual :
    (lessOrEqual l r dst).fullCode.toList =
      "memory".toList ++ (dst.fullText.toList ++ (" = ".toList ++
        (l.fullForm.toList ++ ' ' :: '<' :: '=' :: ' ' :: (r.fullForm.toList ++ [])))) := by
  simp [fullCode, fullTarget]

theorem fullCode_divMod (quotient remainder : Cell) :
    (divMod l r quotient remainder).fullCode.toList =
      "(memory".toList ++ (quotient.fullText.toList ++ (", memory".toList ++
        (remainder.fullText.toList ++ (") = divmod(".toList ++
          (l.fullForm.toList ++ ',' :: ' ' :: (r.fullForm.toList ++ [')'])))))) := by
  simp [fullCode, fullTarget]

theorem fullCode_squareRoot (value : Operand) :
    (squareRoot value dst).fullCode.toList =
      "\nimport math\nmemory".toList ++ (dst.fullText.toList ++ (" = math.isqrt(".toList ++
        (value.fullForm.toList ++ [')', '\n']))) := by
  rw [fullCode_eq_block (h := squareRoot value dst) (List.cons_ne_nil _ _)]
  simp [statements, fullTarget, block]

theorem fullCode_allocConstantSize (size : Operand) :
    (allocConstantSize size dst).fullCode.toList =
      ("\nif '__boxed_segment' not in globals():\n" ++
        "    __boxed_segment = segments.add()\nmemory").toList ++
        (dst.fullText.toList ++ (" = __boxed_segment\n__boxed_segment += ".toList ++
          (size.fullForm.toList ++ ['\n']))) := by
  rw [fullCode_eq_block (h := allocConstantSize size dst) (List.cons_ne_nil _ _)]
  simp [statements, fullTarget, block]

theorem fullCode_debugPrint (first last : Operand) :
    (debugPrint first last).fullCode.toList =
      "\ncurr = ".toList ++ (first.fullForm.toList ++ '\n' :: ("end = ".toList ++
        (last.fullForm.toList ++ '\n' ::
          "while curr != end:\n    print(hex(memory[curr]))\n    curr += 1\n".toList))) := by
  rw [fullCode_eq_block (h := debugPrint first last) (List.cons_ne_nil _ _)]
  simp [statements, block]

end

/-- How the code starts: different for all kinds but the three that set one cell at once. -/
def opening : Hint → List Char
  | .verbatim source => source.toList.take 3
  | .allocSegment _ | .lessThan .. | .lessOrEqual .. => ['m', 'e', 'm']
  | .divMod .. => ['(', 'm', 'e']
  | .squareRoot .. => ['\n', 'i', 'm']
  | .allocConstantSize .. => ['\n', 'i', 'f']
  | .debugPrint .. => ['\n', 'c', 'u']

theorem take_fullCode (h : Hint) : h.fullCode.toList.take 3 = h.opening := by
  cases h with
  | verbatim source => rfl
  | allocSegment dst => rw [fullCode_allocSegment]; rfl
  | lessThan l r dst => rw [fullCode_lessThan]; rfl
  | lessOrEqual l r dst => rw [fullCode_lessOrEqual]; rfl
  | divMod l r quotient remainder => rw [fullCode_divMod]; rfl
  | squareRoot value dst => rw [fullCode_squareRoot]; rfl
  | allocConstantSize size dst => rw [fullCode_allocConstantSize]; rfl
  | debugPrint first last => rw [fullCode_debugPrint]; rfl

section
variable {c d c' d' : Cell} {l r l' r' : Operand}

theorem assignment_inj {r s : List Char}
    (h : "memory".toList ++ (c.fullText.toList ++ (" = ".toList ++ r)) =
      "memory".toList ++ (d.fullText.toList ++ (" = ".toList ++ s))) : c = d ∧ r = s := by
  obtain ⟨rfl, values⟩ := Cell.fullText_append_inj (List.append_cancel_left h)
  exact ⟨rfl, List.append_cancel_left values⟩

/-- A comparison shows its left side up to the sign, and the cell that it sets. -/
theorem comparison_inj {s t : List Char}
    (h : "memory".toList ++ (c.fullText.toList ++ (" = ".toList ++
        (l.fullForm.toList ++ ' ' :: '<' :: s))) =
      "memory".toList ++ (d.fullText.toList ++ (" = ".toList ++
        (l'.fullForm.toList ++ ' ' :: '<' :: t)))) : c = d ∧ l = l' ∧ s = t := by
  obtain ⟨rfl, values⟩ := assignment_inj h
  obtain ⟨rfl, right⟩ :=
    Operand.fullForm_append_inj (noDigit_cons rfl _) (noDigit_cons rfl _) values
  simp only [List.cons.injEq, true_and] at right
  exact ⟨rfl, rfl, right⟩

/-- A new segment is no comparison. -/
theorem segment_ne_comparison (o : Operand) (t : List Char) :
    "memory".toList ++ (c.fullText.toList ++ (" = ".toList ++ "segments.add()".toList)) ≠
      "memory".toList ++ (d.fullText.toList ++ (" = ".toList ++ (o.fullForm.toList ++ t))) := by
  intro same
  obtain ⟨_, values⟩ := assignment_inj same
  exact o.fullForm_append_ne_cons (by decide) (by decide) (by decide) (by decide) t _ values.symm

theorem fullCode_allocSegment_inj (same : (allocSegment c).fullCode = (allocSegment d).fullCode) :
    c = d := by
  have texts := congrArg String.toList same
  rw [fullCode_allocSegment, fullCode_allocSegment] at texts
  exact (assignment_inj texts).1

theorem fullCode_allocSegment_ne_lessThan :
    (allocSegment c).fullCode ≠ (lessThan l r d).fullCode := by
  intro same
  have texts := congrArg String.toList same
  rw [fullCode_allocSegment, fullCode_lessThan] at texts
  exact segment_ne_comparison l _ texts

theorem fullCode_allocSegment_ne_lessOrEqual :
    (allocSegment c).fullCode ≠ (lessOrEqual l r d).fullCode := by
  intro same
  have texts := congrArg String.toList same
  rw [fullCode_allocSegment, fullCode_lessOrEqual] at texts
  exact segment_ne_comparison l _ texts

theorem fullCode_lessThan_ne_lessOrEqual :
    (lessThan l r c).fullCode ≠ (lessOrEqual l' r' d).fullCode := by
  intro same
  have texts := congrArg String.toList same
  rw [fullCode_lessThan, fullCode_lessOrEqual] at texts
  obtain ⟨_, _, right⟩ := comparison_inj texts
  cases right

theorem fullCode_lessThan_inj
    (same : (lessThan l r c).fullCode = (lessThan l' r' d).fullCode) :
    l = l' ∧ r = r' ∧ c = d := by
  have texts := congrArg String.toList same
  rw [fullCode_lessThan, fullCode_lessThan] at texts
  obtain ⟨rfl, rfl, right⟩ := comparison_inj texts
  obtain ⟨rfl, _⟩ := Operand.fullForm_append_inj noDigit_nil noDigit_nil (List.cons.inj right).2
  exact ⟨rfl, rfl, rfl⟩

theorem fullCode_lessOrEqual_inj
    (same : (lessOrEqual l r c).fullCode = (lessOrEqual l' r' d).fullCode) :
    l = l' ∧ r = r' ∧ c = d := by
  have texts := congrArg String.toList same
  rw [fullCode_lessOrEqual, fullCode_lessOrEqual] at texts
  obtain ⟨rfl, rfl, right⟩ := comparison_inj texts
  simp only [List.cons.injEq, true_and] at right
  obtain ⟨rfl, _⟩ := Operand.fullForm_append_inj noDigit_nil noDigit_nil right
  exact ⟨rfl, rfl, rfl⟩

theorem fullCode_divMod_inj (same : (divMod l r c d).fullCode = (divMod l' r' c' d').fullCode) :
    l = l' ∧ r = r' ∧ c = c' ∧ d = d' := by
  have texts := congrArg String.toList same
  rw [fullCode_divMod, fullCode_divMod] at texts
  obtain ⟨rfl, h₁⟩ := Cell.fullText_append_inj (List.append_cancel_left texts)
  obtain ⟨rfl, h₂⟩ := Cell.fullText_append_inj (List.append_cancel_left h₁)
  obtain ⟨rfl, h₃⟩ := Operand.fullForm_append_inj (noDigit_cons rfl _) (noDigit_cons rfl _)
    (List.append_cancel_left h₂)
  simp only [List.cons.injEq, true_and] at h₃
  obtain ⟨rfl, _⟩ := Operand.fullForm_append_inj (noDigit_cons rfl _) (noDigit_cons rfl _) h₃
  exact ⟨rfl, rfl, rfl, rfl⟩

theorem fullCode_squareRoot_inj (same : (squareRoot l c).fullCode = (squareRoot l' d).fullCode) :
    l = l' ∧ c = d := by
  have texts := congrArg String.toList same
  rw [fullCode_squareRoot, fullCode_squareRoot] at texts
  obtain ⟨rfl, value⟩ := Cell.fullText_append_inj (List.append_cancel_left texts)
  obtain ⟨rfl, _⟩ := Operand.fullForm_append_inj (noDigit_cons rfl _) (noDigit_cons rfl _)
    (List.append_cancel_left value)
  exact ⟨rfl, rfl⟩

theorem fullCode_allocConstantSize_inj
    (same : (allocConstantSize l c).fullCode = (allocConstantSize l' d).fullCode) :
    l = l' ∧ c = d := by
  have texts := congrArg String.toList same
  rw [fullCode_allocConstantSize, fullCode_allocConstantSize] at texts
  obtain ⟨rfl, size⟩ := Cell.fullText_append_inj (List.append_cancel_left texts)
  obtain ⟨rfl, _⟩ := Operand.fullForm_append_inj (noDigit_cons rfl _) (noDigit_cons rfl _)
    (List.append_cancel_left size)
  exact ⟨rfl, rfl⟩

theorem fullCode_debugPrint_inj (same : (debugPrint l r).fullCode = (debugPrint l' r').fullCode) :
    l = l' ∧ r = r' := by
  have texts := congrArg String.toList same
  rw [fullCode_debugPrint, fullCode_debugPrint] at texts
  obtain ⟨rfl, last⟩ := Operand.fullForm_append_inj (noDigit_cons rfl _) (noDigit_cons rfl _)
    (List.append_cancel_left texts)
  obtain ⟨rfl, _⟩ := Operand.fullForm_append_inj (noDigit_cons rfl _) (noDigit_cons rfl _)
    (List.append_cancel_left (List.cons.inj last).2)
  exact ⟨rfl, rfl⟩

end

/-- Operands make different code in different kinds, and other operands make other code. -/
theorem fullCode_inj {h k : Hint} (hh : h.Structured) (hk : k.Structured)
    (same : h.fullCode = k.fullCode) : h = k := by
  have openings : h.opening = k.opening := by rw [← take_fullCode, ← take_fullCode, same]
  cases h with
  | verbatim source => cases hh
  | allocSegment dst =>
    cases k with
    | verbatim source => cases hk
    | allocSegment dst' => rw [fullCode_allocSegment_inj same]
    | lessThan l r dst' => exact absurd same fullCode_allocSegment_ne_lessThan
    | lessOrEqual l r dst' => exact absurd same fullCode_allocSegment_ne_lessOrEqual
    | _ => cases openings
  | lessThan l r dst =>
    cases k with
    | verbatim source => cases hk
    | allocSegment dst' => exact absurd same.symm fullCode_allocSegment_ne_lessThan
    | lessThan l' r' dst' =>
      obtain ⟨rfl, rfl, rfl⟩ := fullCode_lessThan_inj same
      rfl
    | lessOrEqual l' r' dst' => exact absurd same fullCode_lessThan_ne_lessOrEqual
    | _ => cases openings
  | lessOrEqual l r dst =>
    cases k with
    | verbatim source => cases hk
    | allocSegment dst' => exact absurd same.symm fullCode_allocSegment_ne_lessOrEqual
    | lessThan l' r' dst' => exact absurd same.symm fullCode_lessThan_ne_lessOrEqual
    | lessOrEqual l' r' dst' =>
      obtain ⟨rfl, rfl, rfl⟩ := fullCode_lessOrEqual_inj same
      rfl
    | _ => cases openings
  | divMod l r quotient remainder =>
    cases k with
    | verbatim source => cases hk
    | divMod l' r' quotient' remainder' =>
      obtain ⟨rfl, rfl, rfl, rfl⟩ := fullCode_divMod_inj same
      rfl
    | _ => cases openings
  | squareRoot value dst =>
    cases k with
    | verbatim source => cases hk
    | squareRoot value' dst' =>
      obtain ⟨rfl, rfl⟩ := fullCode_squareRoot_inj same
      rfl
    | _ => cases openings
  | allocConstantSize size dst =>
    cases k with
    | verbatim source => cases hk
    | allocConstantSize size' dst' =>
      obtain ⟨rfl, rfl⟩ := fullCode_allocConstantSize_inj same
      rfl
    | _ => cases openings
  | debugPrint first last =>
    cases k with
    | verbatim source => cases hk
    | debugPrint first' last' =>
      obtain ⟨rfl, rfl⟩ := fullCode_debugPrint_inj same
      rfl
    | _ => cases openings

theorem map_fullCode_inj {hs ks : List Hint} (hhs : ∀ h ∈ hs, h.Structured)
    (hks : ∀ k ∈ ks, k.Structured) (same : hs.map fullCode = ks.map fullCode) : hs = ks := by
  rw [← List.forall₂_eq_eq_eq]
  refine forall₂_imp_of_mem (forall₂_of_map_eq same) fun h hh k hk codes => ?_
  exact fullCode_inj (hhs h hh) (hks k hk) codes

/-- Code that follows from operands is on one line unless it has several statements. -/
theorem printable_fullCode {h : Hint} (structured : h.Structured) (single : h.statements = []) :
    Printable h.fullCode := by
  cases h with
  | verbatim source => cases structured
  | squareRoot value dst => cases single
  | allocConstantSize size dst => cases single
  | debugPrint first last => cases single
  | _ => simp +decide [fullCode, fullTarget]

/-- Code that follows from operands is one line, or several framed by breaks, none of them a
brace. -/
theorem structured_fullCode_cases {h : Hint} (structured : h.Structured) :
    Printable h.fullCode ∨
      ∃ ls, h.fullCode = block ls ∧ ls ≠ [] ∧
        ∀ l ∈ ls, Printable l ∧ l.toList.head? ≠ some '%' := by
  by_cases single : h.statements = []
  · exact .inl (printable_fullCode structured single)
  · refine .inr ⟨h.statements, fullCode_eq_block single, single, fun l member => ?_⟩
    obtain ⟨printable, _, start⟩ := visible_of_mem_statements member
    exact ⟨printable, start⟩

/-- A hint is written on one line, or on several between its braces, none of them a brace. -/
theorem fullCode_cases {h : Hint} (unbroken : h.Unbroken) :
    '\n' ∉ h.fullCode.toList ∨
      ∃ ls, h.fullCode = block ls ∧ ls ≠ [] ∧
        ∀ l ∈ ls, Printable l ∧ l.toList.head? ≠ some '%' := by
  cases given : h.source? with
  | some source =>
    obtain rfl := eq_verbatim given
    exact .inl (unbroken source rfl)
  | none => exact (structured_fullCode_cases given).imp_left Printable.newline_notMem

/-- The line of a hint that is written on one. -/
def line (h : Hint) : String := "%\x7b " ++ h.fullCode ++ " %\x7d"

theorem lines_fullText_of_newline_notMem {h : Hint} (oneLine : '\n' ∉ h.fullCode.toList) :
    lines h.fullText = [h.line] := by
  have other : h.fullCode.toList.head? ≠ some '\n' :=
    fun first => oneLine (List.mem_of_head? first)
  rw [fullText, framed, if_neg other]
  exact lines_of_newline_notMem (by simp [oneLine])

theorem lines_fullText_of_block {h : Hint} {ls : List String} (framed : h.fullCode = block ls)
    (nonempty : ls ≠ []) (printable : ∀ l ∈ ls, Printable l) :
    lines h.fullText = "%\x7b" :: (ls ++ ["%\x7d"]) := by
  have first : h.fullCode.toList.head? = some '\n' := by simp [framed, block]
  have brace (s : String) (plain : Printable s) : lines s = [s] :=
    lines_of_newline_notMem plain.newline_notMem
  have framedText : h.fullText = "%\x7b" ++ "\n" ++ (unlines ls ++ "\n" ++ "%\x7d") := by
    rw [fullText, Hint.framed, if_pos first, framed, block, unlines]
    simp only [String.append_assoc]
  rw [framedText, lines_append_newline, lines_append_newline, brace "%\x7b" (by decide),
    brace "%\x7d" (by decide),
    lines_unlines (fun l hl => (printable l hl).newline_notMem) nonempty]
  rfl

theorem lines_fullText_eq_cons {h : Hint} (unbroken : h.Unbroken) :
    ∃ l rest, lines h.fullText = l :: rest ∧ l.toList.head? = some '%' := by
  rcases fullCode_cases unbroken with oneLine | ⟨ls, framed, nonempty, plain⟩
  · exact ⟨_, _, lines_fullText_of_newline_notMem oneLine, by simp [line]⟩
  · exact ⟨_, _, lines_fullText_of_block framed nonempty (fun l hl => (plain l hl).1), by simp⟩

theorem line_ne_brace (h : Hint) : h.line ≠ "%\x7b" := by
  intro same
  have texts := congrArg String.toList same
  simp [line] at texts

theorem fullCode_eq_of_line_eq {h k : Hint} (same : h.line = k.line) : h.fullCode = k.fullCode := by
  have texts := congrArg String.toList same
  simp only [line, String.toList_append, List.append_assoc] at texts
  exact String.toList_inj.mp (List.append_cancel_right (List.append_cancel_left texts))

/-- The lines of a hint show its code and where it ends. -/
theorem lines_append_inj {h k : Hint} (hh : h.Unbroken) (hk : k.Unbroken) {r s : List String}
    (same : lines h.fullText ++ r = lines k.fullText ++ s) : h.fullCode = k.fullCode ∧ r = s := by
  rcases fullCode_cases hh with oneLine | ⟨ls, framed, nonempty, plain⟩
  · rw [lines_fullText_of_newline_notMem oneLine] at same
    rcases fullCode_cases hk with oneLine' | ⟨ms, framed', nonempty', plain'⟩
    · rw [lines_fullText_of_newline_notMem oneLine'] at same
      obtain ⟨first, rest⟩ := List.cons.inj same
      exact ⟨fullCode_eq_of_line_eq first, rest⟩
    · rw [lines_fullText_of_block framed' nonempty' (fun l hl => (plain' l hl).1)] at same
      exact absurd (List.cons.inj same).1 h.line_ne_brace
  · rw [lines_fullText_of_block framed nonempty (fun l hl => (plain l hl).1)] at same
    rcases fullCode_cases hk with oneLine' | ⟨ms, framed', nonempty', plain'⟩
    · rw [lines_fullText_of_newline_notMem oneLine'] at same
      exact absurd (List.cons.inj same).1.symm k.line_ne_brace
    · rw [lines_fullText_of_block framed' nonempty' (fun l hl => (plain' l hl).1)] at same
      rw [List.cons_append, List.cons_append, List.append_assoc, List.append_assoc] at same
      have notBrace {ls : List String}
          (plain : ∀ l ∈ ls, Printable l ∧ l.toList.head? ≠ some '%') :
          ∀ l ∈ ls, l ≠ "%\x7d" := by
        rintro l hl rfl
        exact (plain _ hl).2 rfl
      obtain ⟨rfl, _, rest⟩ := append_last_inj (notBrace plain) (notBrace plain') rfl rfl
        (List.cons.inj same).2
      exact ⟨framed.trans framed'.symm, rest⟩

/-- A line that starts as no hint does ends a row of hints. -/
theorem flatMap_lines_append_inj {hs ks : List Hint} (hhs : ∀ h ∈ hs, h.Unbroken)
    (hks : ∀ k ∈ ks, k.Unbroken) {l m : String} {r s : List String}
    (hl : l.toList.head? ≠ some '%') (hm : m.toList.head? ≠ some '%')
    (same : (hs.flatMap fun h => lines h.fullText) ++ l :: r =
      (ks.flatMap fun k => lines k.fullText) ++ m :: s) :
    hs.map fullCode = ks.map fullCode ∧ l = m ∧ r = s := by
  induction hs generalizing ks with
  | nil =>
    cases ks with
    | nil => exact ⟨rfl, List.cons.inj same⟩
    | cons k ks =>
      obtain ⟨first, rest, start, brace⟩ := lines_fullText_eq_cons (hks k List.mem_cons_self)
      rw [List.flatMap_cons, start] at same
      obtain rfl : l = first := (List.cons.inj same).1
      exact absurd brace hl
  | cons h hs ih =>
    obtain ⟨unbroken, hhs⟩ := List.forall_mem_cons.mp hhs
    cases ks with
    | nil =>
      obtain ⟨first, rest, start, brace⟩ := lines_fullText_eq_cons unbroken
      rw [List.flatMap_cons, start] at same
      obtain rfl : first = m := (List.cons.inj same).1
      exact absurd brace hm
    | cons k ks =>
      obtain ⟨unbroken', hks⟩ := List.forall_mem_cons.mp hks
      rw [List.flatMap_cons, List.flatMap_cons, List.append_assoc, List.append_assoc] at same
      obtain ⟨code, after⟩ := lines_append_inj unbroken unbroken' same
      obtain ⟨codes, rest⟩ := ih hhs hks after
      exact ⟨by rw [List.map_cons, List.map_cons, code, codes], rest⟩

end CairoAsm.Hint
