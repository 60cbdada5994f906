import CairoAsm.Operand
import CairoAsm.Text.Dedent

/-!
Hints: code that runs before an instruction. Seven kinds compute a fixed thing from operands; the
eighth is any code. Hints of several lines begin and end with a line break of their own.
-/
namespace CairoAsm

inductive Hint where
  | verbatim (source : String)
  | allocSegment (dst : Cell)
  | lessThan (lhs rhs : Operand) (dst : Cell)
  | lessOrEqual (lhs rhs : Operand) (dst : Cell)
  | divMod (lhs rhs : Operand) (quotient remainder : Cell)
  | squareRoot (value : Operand) (dst : Cell)
  | allocConstantSize (size : Operand) (dst : Cell)
  | debugPrint (first last : Operand)
  deriving DecidableEq

namespace Hint

/-- Code from an indented template, with a line break of its own at each end. -/
def multiline (template : List String) : String :=
  "\n" ++ Text.trimBreaks (Text.dedent (Text.unlines template)) ++ "\n"

def target (c : Cell) : Writing String := do return "memory" ++ (← c.text)

def code : Hint → Writing String
  | .verbatim source => return source
  | .allocSegment dst => do return (← target dst) ++ " = segments.add()"
  | .lessThan l r dst => do
    return (← target dst) ++ " = " ++ (← l.integerForm) ++ " < " ++ (← r.integerForm)
  | .lessOrEqual l r dst => do
    return (← target dst) ++ " = " ++ (← l.integerForm) ++ " <= " ++ (← r.integerForm)
  | .divMod l r quotient remainder => do
    let left ← l.integerForm
    let right ← r.integerForm
    return "(" ++ (← target quotient) ++ ", " ++ (← target remainder) ++ ") = divmod("
      ++ left ++ ", " ++ right ++ ")"
  | .squareRoot value dst => do
    return multiline [
      "",
      "            import math",
      "            " ++ (← target dst) ++ " = math.isqrt(" ++ (← value.integerForm) ++ ")",
      "        "]
  | .allocConstantSize size dst => do
    return multiline [
      "",
      "            if '__boxed_segment' not in globals():",
      "                __boxed_segment = segments.add()",
      "            " ++ (← target dst) ++ " = __boxed_segment",
      "            __boxed_segment += " ++ (← size.integerForm),
      "        "]
  | .debugPrint first last => do
    return multiline [
      "",
      "            curr = " ++ (← first.integerForm),
      "            end = " ++ (← last.integerForm),
      "            while curr != end:",
      "                print(hex(memory[curr]))",
      "                curr += 1",
      "        "]

/-- Code between hint braces; a blank sets it off unless it starts on a line of its own. -/
def framed (code : String) : String :=
  if code.toList.head? = some '\n' then "%\x7b" ++ code ++ "%\x7d"
  else "%\x7b " ++ code ++ " %\x7d"

def text (h : Hint) : Writing String := do return framed (← h.code)

end Hint
end CairoAsm
