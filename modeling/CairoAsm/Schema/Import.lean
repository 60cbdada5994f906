import CairoAsm.Event
import CairoAsm.Program
import CairoAsm.Schema.Fault

/-!
Programs and their parts from JSON data. Fields are looked up by key and checked in a fixed order,
and the first fault ends the import. Instructions report when they are created, once their body is
known and before their hints are looked at; the report shows the body.
-/
namespace CairoAsm
namespace Json

def get (v : Json) (key : String) : Except Fault Json :=
  match v with
  | .obj fields =>
    match fields.lookup key with
    | some x => .ok x
    | none => .error (.missing key (fields.lookup "Class"))
  | v => .error (.notObject v)

def getInt (v : Json) (key : String) : Except Fault Int := do
  match ← v.get key with
  | .int n => return n
  | got => throw (.notInteger key got)

def getBool (v : Json) (key : String) : Except Fault Bool := do
  match ← v.get key with
  | .bool b => return b
  | got => throw (.notBoolean key got)

end Json

def Register.ofJson? : Json → Option Register
  | .str s => Register.ofName? s
  | _ => none

def Operation.ofJson? : Json → Option Operation
  | .str s => Operation.ofSymbol? s
  | _ => none

def Register.ofJson (v : Json) : Except Fault Register :=
  match Register.ofJson? v with
  | some r => .ok r
  | none => .error (.unknownRegister v)

def Operation.ofJson (v : Json) : Except Fault Operation :=
  match Operation.ofJson? v with
  | some op => .ok op
  | none => .error (.unknownOperation v)

def Cell.ofJson (v : Json) : Except Fault Cell := do
  match ← v.get "Class" with
  | .str "CellRef" =>
    let register ← Register.ofJson (← v.get "Register")
    let offset ← v.getInt "Offset"
    return ⟨register, offset⟩
  | other => throw (.notCell other)

def Atom.ofJson (v : Json) : Except Fault Atom := do
  match ← v.get "Class" with
  | .str "CellRef" => return .cell (← Cell.ofJson v)
  | .str "Immediate" => return .immediate (← v.getInt "Value")
  | other => throw (.notAtom other)

def Operand.ofJson (v : Json) : Except Fault Operand := do
  match ← v.get "Class" with
  | .str "CellRef" => return .atom (← Atom.ofJson v)
  | .str "Immediate" => return .atom (← Atom.ofJson v)
  | .str "DoubleDeref" =>
    let cell ← Cell.ofJson (← v.get "Cell")
    let offset ← v.getInt "Offset"
    return .indirect cell offset
  | .str "BinOpOperand" =>
    let op ← Operation.ofJson (← v.get "Op")
    let a ← Atom.ofJson (← v.get "A")
    let b ← Atom.ofJson (← v.get "B")
    return .binary op a b
  | other => throw (.unknownOperand other)

namespace Json

def getCell (v : Json) (key : String) : Except Fault Cell := do Cell.ofJson (← v.get key)

def getAtom (v : Json) (key : String) : Except Fault Atom := do Atom.ofJson (← v.get key)

def getOperand (v : Json) (key : String) : Except Fault Operand := do Operand.ofJson (← v.get key)

end Json

def Hint.ofJson (v : Json) : Except Fault Hint := do
  match ← v.get "Class" with
  | .str "CodeHint" =>
    match ← v.get "Code" with
    | .str source => return .verbatim source
    | got => throw (.notCode got)
  | .str "AllocSegment" => return .allocSegment (← v.getCell "Dst")
  | .str "TestLessThan" =>
    let l ← v.getOperand "Lhs"
    let r ← v.getOperand "Rhs"
    let dst ← v.getCell "Dst"
    return .lessThan l r dst
  | .str "TestLessThanOrEqual" =>
    let l ← v.getOperand "Lhs"
    let r ← v.getOperand "Rhs"
    let dst ← v.getCell "Dst"
    return .lessOrEqual l r dst
  | .str "DivMod" =>
    let l ← v.getOperand "Lhs"
    let r ← v.getOperand "Rhs"
    let quotient ← v.getCell "Quotient"
    let remainder ← v.getCell "Remainder"
    return .divMod l r quotient remainder
  | .str "SquareRoot" =>
    let value ← v.getOperand "Value"
    let dst ← v.getCell "Dst"
    return .squareRoot value dst
  | .str "AllocConstantSize" =>
    let size ← v.getOperand "Size"
    let dst ← v.getCell "Dst"
    return .allocConstantSize size dst
  | .str "DebugPrint" =>
    let first ← v.getOperand "Start"
    let last ← v.getOperand "End"
    return .debugPrint first last
  | other => throw (.unknownHint other)

def Body.ofJson (v : Json) : Except Fault Body := do
  match ← v.get "Class" with
  | .str "AddAp" => return .addAp (← v.getOperand "Operand")
  | .str "AssertEq" =>
    let a ← v.getCell "A"
    let b ← v.getOperand "B"
    return .assertEq a b
  | .str "QM31AssertEq" =>
    let a ← v.getCell "A"
    let b ← v.getOperand "B"
    return .assertEqQm31 a b
  | .str "Call" =>
    let target ← v.getAtom "Target"
    let relative ← v.getBool "Relative"
    return .call target relative
  | .str "Jump" =>
    let target ← v.getAtom "Target"
    let relative ← v.getBool "Relative"
    return .jump target relative
  | .str "Jnz" =>
    let offset ← v.getAtom "JumpOffset"
    let condition ← v.getCell "Condition"
    return .jumpNonzero offset condition
  | .str "Ret" => return .ret
  | .str "Blake2sCompress" =>
    let state ← v.getCell "State"
    let byteCount ← v.getCell "ByteCount"
    let message ← v.getCell "Message"
    let finalize ← v.getBool "Finalize"
    return .blake2s state byteCount message finalize
  | other => throw (.unknownBody other)

namespace Instruction

/-- An instruction whose hints are still data. -/
structure Draft where
  body : Body
  incAp : Bool
  hints : List Json

/-- The hints of an instruction; none are needed. -/
def hintData (v : Json) : Except Fault (List Json) :=
  match v.field? "Hints" with
  | none => .ok []
  | some (.arr items) => .ok items
  | some got => .error (.hintsNotList got)

/-- Whether `ap` moves on; not if nothing is said. -/
def incApData (v : Json) : Except Fault Bool :=
  if (v.field? "IncAp").isSome then v.getBool "IncAp" else .ok false

def Draft.ofJson (v : Json) : Except Fault Draft := do
  match ← v.get "Class" with
  | .str "Instruction" =>
    let hints ← hintData v
    let body ← Body.ofJson (← v.get "Body")
    let incAp ← incApData v
    return ⟨body, incAp, hints⟩
  | other => throw (.notInstruction other)

def ofJson (v : Json) : Traced Failure Instruction := do
  let draft ← .lift ((Draft.ofJson v).mapError .ofFault)
  let body ← .lift (draft.body.text.mapError fun _ => .oversized)
  .report (.created body draft.hints.length)
  let hints ← .lift ((draft.hints.mapM Hint.ofJson).mapError .ofFault)
  return ⟨draft.body, draft.incAp, hints⟩

end Instruction

namespace Program

/-- The instructions of a program: the list itself, or a field of an object. -/
def instructionData : Json → Except Fault (List Json)
  | .arr items => .ok items
  | v => do
    match ← v.get "Class" with
    | .str "CasmProgram" =>
      match ← v.get "Instructions" with
      | .arr items => return items
      | _ => throw .instructionsNotList
    | other => throw (.notProgram other)

def ofJson (v : Json) : Traced Failure Program := do
  let items ← .lift ((instructionData v).mapError .ofFault)
  let instructions ← items.mapM Instruction.ofJson
  return ⟨instructions⟩

end Program
end CairoAsm
