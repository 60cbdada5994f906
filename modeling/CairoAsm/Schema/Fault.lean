import CairoAsm.Json.Display

namespace CairoAsm

inductive Fault where
  | notObject (got : Json)
  | missing (key : String) (className : Option Json)
  | notInteger (key : String) (got : Json)
  | notBoolean (key : String) (got : Json)
  | notCode (got : Json)
  | hintsNotList (got : Json)
  | instructionsNotList
  | unknownRegister (got : Json)
  | unknownOperation (got : Json)
  | notCell (className : Json)
  | notAtom (className : Json)
  | unknownOperand (className : Json)
  | unknownHint (className : Json)
  | unknownBody (className : Json)
  | notInstruction (className : Json)
  | notProgram (className : Json)

namespace Fault

section
variable (unprintable : Char → Bool)

def message : Fault → Writing String
  | .notObject got => do return "Expected an object, got " ++ (← got.shown unprintable)
  | .missing key none => return "Missing " ++ key ++ " in object"
  | .missing key (some className) => do
    return "Missing " ++ key ++ " in " ++ (← className.plain unprintable)
  | .notInteger key got => do
    return key ++ " must be an integer, got " ++ (← got.shown unprintable)
  | .notBoolean key got => do return key ++ " must be a boolean, got " ++ (← got.shown unprintable)
  | .notCode got => do return "Hint code must be a string, got " ++ (← got.shown unprintable)
  | .hintsNotList got => do return "Hints must be a list, got " ++ (← got.shown unprintable)
  | .instructionsNotList => return "Instructions must be a list"
  | .unknownRegister got => do return "Unknown register " ++ (← got.plain unprintable)
  | .unknownOperation got => do return "Unsupported operation " ++ (← got.plain unprintable)
  | .notCell className => do
    return "Expected a cell reference, got " ++ (← className.plain unprintable)
  | .notAtom className => do
    return "Expected a cell reference or immediate, got " ++ (← className.plain unprintable)
  | .unknownOperand className => do
    return "Unsupported operand " ++ (← className.plain unprintable)
  | .unknownHint className => do return "Unsupported hint " ++ (← className.plain unprintable)
  | .unknownBody className => do
    return "Unsupported instruction " ++ (← className.plain unprintable)
  | .notInstruction className => do
    return "Expected an instruction, got " ++ (← className.plain unprintable)
  | .notProgram className => do
    return "Expected a program, got " ++ (← className.plain unprintable)

end

end Fault

/-- An import fails by a fault, or because a text that it makes would show too long a number. -/
inductive Failure where
  | fault (f : Fault)
  | oversized

/-- The failure by a fault, whose message is made at once. Whether that can be done does not depend
on how characters are shown. -/
def Failure.ofFault (f : Fault) : Failure :=
  match f.message fun _ => false with
  | .ok _ => .fault f
  | .error _ => .oversized

end CairoAsm
