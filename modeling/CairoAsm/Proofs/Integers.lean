import CairoAsm.Program
import CairoAsm.Proofs.Text.Writing

/-!
The whole numbers of a program, and the texts that it would have if numbers of any length could be
written. A text is made exactly if all the numbers that it shows are within the digit limit, and it
is the full text then.
-/
namespace CairoAsm

namespace Cell

def integers (c : Cell) : List Int := [c.offset]

def fullText (c : Cell) : String := "[" ++ c.register.name ++ " + " ++ c.offset.repr ++ "]"

theorem text_eq (c : Cell) : c.text = showing c.integers c.fullText := by
  simp only [text, decimal_eq, bind_pure_comp, map_showing, integers, fullText]

end Cell

namespace Atom

def integers : Atom → List Int
  | .cell c => c.integers
  | .immediate n => [n]

def fullText : Atom → String
  | .cell c => c.fullText
  | .immediate n => n.repr

def fullForm : Atom → String
  | .cell c => "memory" ++ c.fullText
  | .immediate n => n.repr

theorem text_eq (a : Atom) : a.text = showing a.integers a.fullText := by
  cases a with
  | cell c => exact c.text_eq
  | immediate n => exact decimal_eq n

theorem integerForm_eq (a : Atom) : a.integerForm = showing a.integers a.fullForm := by
  cases a with
  | cell c => simp only [integerForm, Cell.text_eq, bind_pure_comp, map_showing, integers, fullForm]
  | immediate n => exact decimal_eq n

end Atom

namespace Operand

def integers : Operand → List Int
  | .atom a => a.integers
  | .indirect c n => c.integers ++ [n]
  | .binary _ a b => a.integers ++ b.integers

def fullText : Operand → String
  | .atom a => a.fullText
  | .indirect c n => "[" ++ c.fullText ++ " + " ++ n.repr ++ "]"
  | .binary op a b => a.fullText ++ " " ++ op.symbol ++ " " ++ b.fullText

def fullForm : Operand → String
  | .atom a => a.fullForm
  | .indirect c n => "memory[memory" ++ c.fullText ++ " + " ++ n.repr ++ "]"
  | .binary op a b =>
    "(" ++ a.fullForm ++ " " ++ op.symbol ++ " " ++ b.fullForm ++ ") % PRIME"

theorem text_eq (o : Operand) : o.text = showing o.integers o.fullText := by
  unfold text integers fullText
  cases o with
  | atom a => exact a.text_eq
  | indirect c n =>
    simp only [Cell.text_eq, decimal_eq, bind_pure_comp, map_showing, showing_bind_showing]
  | binary op a b => simp only [Atom.text_eq, bind_pure_comp, map_showing, showing_bind_showing]

theorem integerForm_eq (o : Operand) : o.integerForm = showing o.integers o.fullForm := by
  unfold integerForm integers fullForm
  cases o with
  | atom a => exact a.integerForm_eq
  | indirect c n =>
    simp only [Cell.text_eq, decimal_eq, bind_pure_comp, map_showing, showing_bind_showing]
  | binary op a b =>
    simp only [Atom.integerForm_eq, bind_pure_comp, map_showing, showing_bind_showing]

end Operand

namespace Hint

def integers : Hint → List Int
  | .verbatim _ => []
  | .allocSegment dst => dst.integers
  | .lessThan l r dst => dst.integers ++ l.integers ++ r.integers
  | .lessOrEqual l r dst => dst.integers ++ l.integers ++ r.integers
  | .divMod l r quotient remainder =>
    l.integers ++ r.integers ++ quotient.integers ++ remainder.integers
  | .squareRoot value dst => dst.integers ++ value.integers
  | .allocConstantSize size dst => dst.integers ++ size.integers
  | .debugPrint first last => first.integers ++ last.integers

def fullTarget (c : Cell) : String := "memory" ++ c.fullText

def fullCode : Hint → String
  | .verbatim source => source
  | .allocSegment dst => fullTarget dst ++ " = segments.add()"
  | .lessThan l r dst => fullTarget dst ++ " = " ++ l.fullForm ++ " < " ++ r.fullForm
  | .lessOrEqual l r dst => fullTarget dst ++ " = " ++ l.fullForm ++ " <= " ++ r.fullForm
  | .divMod l r quotient remainder =>
    "(" ++ fullTarget quotient ++ ", " ++ fullTarget remainder ++ ") = divmod("
      ++ l.fullForm ++ ", " ++ r.fullForm ++ ")"
  | .squareRoot value dst => multiline [
      "",
      "            import math",
      "            " ++ fullTarget dst ++ " = math.isqrt(" ++ value.fullForm ++ ")",
      "        "]
  | .allocConstantSize size dst => multiline [
      "",
      "            if '__boxed_segment' not in globals():",
      "                __boxed_segment = segments.add()",
      "            " ++ fullTarget dst ++ " = __boxed_segment",
      "            __boxed_segment += " ++ size.fullForm,
      "        "]
  | .debugPrint first last => multiline [
      "",
      "            curr = " ++ first.fullForm,
      "            end = " ++ last.fullForm,
      "            while curr != end:",
      "                print(hex(memory[curr]))",
      "                curr += 1",
      "        "]

def fullText (h : Hint) : String := framed h.fullCode

theorem target_eq (c : Cell) : target c = showing c.integers (fullTarget c) := by
  simp only [target, Cell.text_eq, bind_pure_comp, map_showing, fullTarget]

theorem code_eq (h : Hint) : h.code = showing h.integers h.fullCode := by
  unfold code integers fullCode
  cases h with
  | verbatim source => exact pure_eq_showing source
  | _ =>
    simp only [target_eq, Operand.integerForm_eq, bind_pure_comp, map_showing,
      showing_bind_showing, List.append_assoc]

theorem text_eq (h : Hint) : h.text = showing h.integers h.fullText := by
  simp only [text, code_eq, bind_pure_comp, map_showing, fullText]

end Hint

namespace Body

def integers : Body → List Int
  | .addAp operand => operand.integers
  | .assertEq a b => a.integers ++ b.integers
  | .assertEqQm31 a b => a.integers ++ b.integers
  | .call target _ => target.integers
  | .jump target _ => target.integers
  | .jumpNonzero offset condition => offset.integers ++ condition.integers
  | .ret => []
  | .blake2s state byteCount message _ => state.integers ++ message.integers ++ byteCount.integers

def fullText : Body → String
  | .addAp operand => "ap += " ++ operand.fullText
  | .assertEq a b => a.fullText ++ " = " ++ b.fullText
  | .assertEqQm31 a b => "\x7bQM31\x7d " ++ a.fullText ++ " = " ++ b.fullText
  | .call target relative => "call " ++ distance relative ++ " " ++ target.fullText
  | .jump target relative => "jmp " ++ distance relative ++ " " ++ target.fullText
  | .jumpNonzero offset condition =>
    "jmp rel " ++ offset.fullText ++ " if " ++ condition.fullText ++ " != 0"
  | .ret => "ret"
  | .blake2s state byteCount message finalize =>
    "blake2s[state=" ++ state.fullText ++ ", message=" ++ message.fullText
      ++ ", byte_count=" ++ byteCount.fullText
      ++ ", finalize=" ++ (if finalize then "true" else "false") ++ "] => [ap + 0]"

theorem text_eq (b : Body) : b.text = showing b.integers b.fullText := by
  unfold text integers fullText
  cases b with
  | ret => exact pure_eq_showing "ret"
  | _ =>
    simp only [Operand.text_eq, Atom.text_eq, Cell.text_eq, bind_pure_comp, map_showing,
      showing_bind_showing, List.append_assoc]

end Body

namespace Instruction

def integers (i : Instruction) : List Int := i.hints.flatMap Hint.integers ++ i.body.integers

def fullLine (i : Instruction) : String := i.body.fullText ++ if i.incAp then ", ap++" else ""

def fullText (i : Instruction) : String :=
  "\n".intercalate (i.hints.map Hint.fullText ++ [i.fullLine])

theorem bodyLine_eq (i : Instruction) : i.bodyLine = showing i.body.integers i.fullLine := by
  simp only [bodyLine, Body.text_eq, bind_pure_comp, map_showing, fullLine]

theorem text_eq (i : Instruction) : i.text = showing i.integers i.fullText := by
  have hints : i.hints.mapM Hint.text =
      showing (i.hints.flatMap Hint.integers) (i.hints.map Hint.fullText) := by
    rw [funext Hint.text_eq, mapM_showing]
  simp only [text, hints, bodyLine_eq, bind_pure_comp, map_showing, showing_bind_showing, integers,
    fullText]

end Instruction

/-- A body that cannot be written. -/
def Body.unwritable : Body := .addAp (.atom (.immediate tooLong))

theorem Body.not_withinDigits_unwritable : ¬WithinDigits digitLimit unwritable.integers :=
  not_withinDigits_of_tooLong_mem List.mem_cons_self

theorem Body.text_unwritable : unwritable.text = .error ⟨⟩ := by
  rw [text_eq, showing_of_long not_withinDigits_unwritable]

namespace Program

def integers (p : Program) : List Int := p.instructions.flatMap Instruction.integers

/-- A program of one instruction that cannot be written. -/
def unwritable : Program := ⟨[⟨.unwritable, false, []⟩]⟩

theorem not_withinDigits_unwritable : ¬WithinDigits digitLimit unwritable.integers :=
  not_withinDigits_of_tooLong_mem List.mem_cons_self

end Program
end CairoAsm
