import CairoAsm.Hint

namespace CairoAsm

inductive Body where
  | addAp (operand : Operand)
  | assertEq (a : Cell) (b : Operand)
  | assertEqQm31 (a : Cell) (b : Operand)
  | call (target : Atom) (relative : Bool)
  | jump (target : Atom) (relative : Bool)
  | jumpNonzero (offset : Atom) (condition : Cell)
  | ret
  | blake2s (state byteCount message : Cell) (finalize : Bool)
  deriving DecidableEq

namespace Body

def size : Body → Nat
  | .addAp operand => operand.size
  | .assertEq _ b => b.size
  | .assertEqQm31 _ b => b.size
  | .call target _ => target.size
  | .jump target _ => target.size
  | .jumpNonzero offset _ => offset.size
  | .ret => 1
  | .blake2s .. => 1

def distance (relative : Bool) : String := if relative then "rel" else "abs"

def text : Body → Writing String
  | .addAp operand => do return "ap += " ++ (← operand.text)
  | .assertEq a b => do return (← a.text) ++ " = " ++ (← b.text)
  | .assertEqQm31 a b => do return "\x7bQM31\x7d " ++ (← a.text) ++ " = " ++ (← b.text)
  | .call target relative => do return "call " ++ distance relative ++ " " ++ (← target.text)
  | .jump target relative => do return "jmp " ++ distance relative ++ " " ++ (← target.text)
  | .jumpNonzero offset condition => do
    return "jmp rel " ++ (← offset.text) ++ " if " ++ (← condition.text) ++ " != 0"
  | .ret => return "ret"
  | .blake2s state byteCount message finalize => do
    return "blake2s[state=" ++ (← state.text) ++ ", message=" ++ (← message.text)
      ++ ", byte_count=" ++ (← byteCount.text)
      ++ ", finalize=" ++ (if finalize then "true" else "false") ++ "] => [ap + 0]"

end Body

structure Instruction where
  body : Body
  incAp : Bool
  hints : List Hint
  deriving DecidableEq

namespace Instruction

def size (i : Instruction) : Nat := i.body.size

/-- The body with the mark that `ap` moves on. -/
def bodyLine (i : Instruction) : Writing String := do
  return (← i.body.text) ++ if i.incAp then ", ap++" else ""

/-- The hints in order, then the body, one below the other. -/
def text (i : Instruction) : Writing String := do
  let hints ← i.hints.mapM Hint.text
  return "\n".intercalate (hints ++ [← i.bodyLine])

end Instruction
end CairoAsm
