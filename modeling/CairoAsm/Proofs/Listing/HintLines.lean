import CairoAsm.Proofs.Hint

/-!
Lines of single hints. The three kinds with code of several lines keep the lines of their templates
whatever their operands are, and all other kinds keep to one line.
-/
namespace CairoAsm.Hint
open Text

/-- The code is `ls` as a template indents them, moved to the left and with one break at each end.
Braces frame it on lines of their own. -/
structure Stacked (h : Hint) (ls : List String) : Prop where
  template : h.code = .ok (multiline (indented ls))
  code : h.code = .ok ("\n" ++ unlines ls ++ "\n")
  filled : ∀ l ∈ ls, l ≠ "" ∧ '\n' ∉ l.toList
  text : ∃ t, h.text = .ok t ∧ lines t = "%\x7b" :: (ls ++ ["%\x7d"])

/-- Blanks set the code off from the braces around it, all on one line. -/
structure OnOneLine (h : Hint) (line : String) : Prop where
  code : h.code = .ok line
  text : h.text = .ok ("%\x7b " ++ line ++ " %\x7d")
  whole : lines ("%\x7b " ++ line ++ " %\x7d") = ["%\x7b " ++ line ++ " %\x7d"]

section
variable {h : Hint} (short : WithinDigits digitLimit h.integers)
include short

theorem code_of_short : h.code = .ok h.fullCode := by
  rw [code_eq, showing_of_short short]

theorem text_of_short : h.text = .ok h.fullText := by
  rw [text_eq, showing_of_short short]

theorem stacked_statements (several : h.statements ≠ []) : h.Stacked h.statements where
  template := fullCode_eq_multiline several ▸ code_of_short short
  code := (code_of_short short).trans (congrArg Except.ok (fullCode_eq_block several))
  filled := by
    intro l member
    obtain ⟨printable, visible, _⟩ := visible_of_mem_statements member
    refine ⟨?_, printable.newline_notMem⟩
    intro empty
    subst empty
    exact visible rfl
  text := ⟨h.fullText, text_of_short short,
    lines_fullText_of_block (fullCode_eq_block several) several
    fun _ member => (visible_of_mem_statements member).1⟩

theorem onOneLine_of_newline_notMem (unbroken : '\n' ∉ h.fullCode.toList) :
    h.OnOneLine h.fullCode := by
  have whole := lines_fullText_of_newline_notMem unbroken
  have text : h.fullText = h.line := by
    have joined := unlines_lines h.fullText
    rw [whole] at joined
    exact joined.symm
  have written := text_of_short short
  rw [text] at written whole
  exact ⟨code_of_short short, written, whole⟩

theorem onOneLine_of_structured (structured : h.Structured) (single : h.statements = []) :
    h.OnOneLine h.fullCode :=
  onOneLine_of_newline_notMem short (printable_fullCode structured single).newline_notMem

end

/-- Operands of all kinds leave the lines of a hint as they are. -/
theorem layout_unaffected_by_operands {l r : Operand} {dst dst' : Cell} {source : String}
    (short : WithinDigits digitLimit
      (l.integers ++ r.integers ++ dst.integers ++ dst'.integers))
    (unbroken : '\n' ∉ source.toList) :
    ∃ left right place place', l.integerForm = .ok left ∧ r.integerForm = .ok right ∧
      dst.text = .ok place ∧ dst'.text = .ok place' ∧
      (squareRoot l dst).Stacked [
        "import math",
        "memory" ++ place ++ " = math.isqrt(" ++ left ++ ")"] ∧
      (allocConstantSize l dst).Stacked [
        "if '__boxed_segment' not in globals():",
        "    __boxed_segment = segments.add()",
        "memory" ++ place ++ " = __boxed_segment",
        "__boxed_segment += " ++ left] ∧
      (debugPrint l r).Stacked [
        "curr = " ++ left,
        "end = " ++ right,
        "while curr != end:",
        "    print(hex(memory[curr]))",
        "    curr += 1"] ∧
      (allocSegment dst).OnOneLine ("memory" ++ place ++ " = segments.add()") ∧
      (lessThan l r dst).OnOneLine ("memory" ++ place ++ " = " ++ left ++ " < " ++ right) ∧
      (lessOrEqual l r dst).OnOneLine ("memory" ++ place ++ " = " ++ left ++ " <= " ++ right) ∧
      (divMod l r dst dst').OnOneLine
        ("(memory" ++ place ++ ", memory" ++ place' ++ ") = divmod(" ++ left ++ ", " ++ right
          ++ ")") ∧
      (verbatim source).OnOneLine source := by
  simp only [withinDigits_append] at short
  obtain ⟨⟨⟨hl, hr⟩, hd⟩, hd'⟩ := short
  refine ⟨l.fullForm, r.fullForm, dst.fullText, dst'.fullText, ?_, ?_, ?_, ?_, ?_, ?_, ?_, ?_, ?_,
    ?_, ?_, ?_⟩
  · rw [l.integerForm_eq, showing_of_short hl]
  · rw [r.integerForm_eq, showing_of_short hr]
  · rw [dst.text_eq, showing_of_short hd]
  · rw [dst'.text_eq, showing_of_short hd']
  · exact stacked_statements (by simp [integers, hl, hd]) (List.cons_ne_nil _ _)
  · exact stacked_statements (by simp [integers, hl, hd]) (List.cons_ne_nil _ _)
  · exact stacked_statements (by simp [integers, hl, hr]) (List.cons_ne_nil _ _)
  · exact onOneLine_of_structured (h := allocSegment dst) hd rfl rfl
  · exact onOneLine_of_structured (h := lessThan l r dst) (by simp [integers, hl, hr, hd]) rfl rfl
  · exact onOneLine_of_structured (h := lessOrEqual l r dst)
      (by simp [integers, hl, hr, hd]) rfl rfl
  · have line := onOneLine_of_structured (h := divMod l r dst dst')
      (by simp [integers, hl, hr, hd, hd']) rfl rfl
    have same : (divMod l r dst dst').fullCode = "(memory" ++ dst.fullText ++ ", memory" ++
        dst'.fullText ++ ") = divmod(" ++ l.fullForm ++ ", " ++ r.fullForm ++ ")" := by
      apply String.toList_inj.mp
      simp [fullCode, fullTarget]
    exact same ▸ line
  · exact onOneLine_of_newline_notMem (h := verbatim source) withinDigits_nil unbroken

theorem layout_unaffected_by_operands_negative :
    let product : Operand := .binary .mul (.immediate (-7)) (.cell ⟨.fp, -3⟩)
    let far : Operand := .indirect ⟨.ap, 0⟩ (-1)
    let cells : List Int := (⟨.ap, 1⟩ : Cell).integers ++ (⟨.fp, 2⟩ : Cell).integers
    WithinDigits digitLimit (product.integers ++ far.integers ++ cells) ∧
      '\n' ∉ " %\x7d ret".toList ∧
      (∃ t, (debugPrint product far).text = .ok t ∧ lines t = [
        "%\x7b",
        "curr = (-7 * memory[fp + -3]) % PRIME",
        "end = memory[memory[ap + 0] + -1]",
        "while curr != end:",
        "    print(hex(memory[curr]))",
        "    curr += 1",
        "%\x7d"]) ∧
      (verbatim " %\x7d ret").text = .ok "%\x7b  %\x7d ret %\x7d" := by
  intro product far cells
  have unbroken : '\n' ∉ " %\x7d ret".toList := by decide
  have short : WithinDigits digitLimit (product.integers ++ far.integers ++
    (⟨.ap, 1⟩ : Cell).integers ++ (⟨.fp, 2⟩ : Cell).integers) := by decide +kernel
  obtain ⟨left, right, _, _, hl, hr, _, _, _, _, printed, _, _, _, _, given⟩ :=
    layout_unaffected_by_operands short unbroken
  have left' : product.integerForm = .ok "(-7 * memory[fp + -3]) % PRIME" := by decide +kernel
  have right' : far.integerForm = .ok "memory[memory[ap + 0] + -1]" := by decide +kernel
  obtain rfl := Except.ok.inj (left'.symm.trans hl)
  obtain rfl := Except.ok.inj (right'.symm.trans hr)
  exact ⟨by decide +kernel, unbroken, printed.text, given.text⟩

/-- An operand with too long a number leaves a hint of several lines without code. -/
theorem unwritable_operand_leaves_no_lines :
    ¬∃ ls, (squareRoot (.atom (.immediate tooLong)) ⟨.ap, 0⟩).Stacked ls := by
  intro ⟨ls, stacked⟩
  have written := stacked.template
  rw [code_eq, showing_eq_ok_iff] at written
  exact not_withinDigits_of_tooLong_mem (by simp [integers, Operand.integers, Atom.integers])
    written.1

end CairoAsm.Hint
