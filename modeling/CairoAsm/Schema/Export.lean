import CairoAsm.Json.Basic
import CairoAsm.Program

namespace CairoAsm

def classObject (name : String) (fields : Json.Fields) : Json :=
  .obj (("Class", .str name) :: fields)

def Cell.toJson (c : Cell) : Json :=
  classObject "CellRef" [("Register", .str c.register.name), ("Offset", .int c.offset)]

def Atom.toJson : Atom → Json
  | .cell c => c.toJson
  | .immediate n => classObject "Immediate" [("Value", .int n)]

def Operand.toJson : Operand → Json
  | .atom a => a.toJson
  | .indirect c n => classObject "DoubleDeref" [("Cell", c.toJson), ("Offset", .int n)]
  | .binary op a b =>
    classObject "BinOpOperand" [("Op", .str op.symbol), ("A", a.toJson), ("B", b.toJson)]

def Hint.toJson : Hint → Json
  | .verbatim source => classObject "CodeHint" [("Code", .str source)]
  | .allocSegment dst => classObject "AllocSegment" [("Dst", dst.toJson)]
  | .lessThan l r dst =>
    classObject "TestLessThan" [("Lhs", l.toJson), ("Rhs", r.toJson), ("Dst", dst.toJson)]
  | .lessOrEqual l r dst =>
    classObject "TestLessThanOrEqual" [("Lhs", l.toJson), ("Rhs", r.toJson), ("Dst", dst.toJson)]
  | .divMod l r quotient remainder =>
    classObject "DivMod" [("Lhs", l.toJson), ("Rhs", r.toJson), ("Quotient", quotient.toJson),
      ("Remainder", remainder.toJson)]
  | .squareRoot value dst =>
    classObject "SquareRoot" [("Value", value.toJson), ("Dst", dst.toJson)]
  | .allocConstantSize size dst =>
    classObject "AllocConstantSize" [("Size", size.toJson), ("Dst", dst.toJson)]
  | .debugPrint first last =>
    classObject "DebugPrint" [("Start", first.toJson), ("End", last.toJson)]

def Body.toJson : Body → Json
  | .addAp operand => classObject "AddAp" [("Operand", operand.toJson)]
  | .assertEq a b => classObject "AssertEq" [("A", a.toJson), ("B", b.toJson)]
  | .assertEqQm31 a b => classObject "QM31AssertEq" [("A", a.toJson), ("B", b.toJson)]
  | .call target relative =>
    classObject "Call" [("Target", target.toJson), ("Relative", .bool relative)]
  | .jump target relative =>
    classObject "Jump" [("Target", target.toJson), ("Relative", .bool relative)]
  | .jumpNonzero offset condition =>
    classObject "Jnz" [("JumpOffset", offset.toJson), ("Condition", condition.toJson)]
  | .ret => classObject "Ret" []
  | .blake2s state byteCount message finalize =>
    classObject "Blake2sCompress" [("State", state.toJson), ("ByteCount", byteCount.toJson),
      ("Message", message.toJson), ("Finalize", .bool finalize)]

def Instruction.toJson (i : Instruction) : Json :=
  classObject "Instruction" [("Body", i.body.toJson), ("IncAp", .bool i.incAp),
    ("Hints", .arr (i.hints.map Hint.toJson))]

def Program.toJson (p : Program) : Json :=
  classObject "CasmProgram" [("Instructions", .arr (p.instructions.map Instruction.toJson))]

end CairoAsm
