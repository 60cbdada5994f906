import CairoAsm.Listing
import CairoAsm.Schema.Export
import CairoAsm.Schema.Import

/-!
Programs and all their parts as one type, for whatever is asked of a thing before it is known what
it is. A question that does not fit a thing has no answer.
-/
namespace CairoAsm

/-- What data is expected to describe. Cells, atoms and operands are all operands once read. -/
inductive Kind where
  | cell
  | atom
  | operand
  | hint
  | body
  | instruction
  | program
  deriving DecidableEq

inductive Entity where
  | operand (o : Operand)
  | hint (h : Hint)
  | body (b : Body)
  | instruction (i : Instruction)
  | program (p : Program)
  deriving DecidableEq

/-- Why an item cannot be counted: it describes nothing, or a thing that can still change. -/
inductive CountError where
  | failure (f : Failure)
  | changeable

namespace Entity

def toJson : Entity → Json
  | .operand o => o.toJson
  | .hint h => h.toJson
  | .body b => b.toJson
  | .instruction i => i.toJson
  | .program p => p.toJson

/-- The result of an import without reports. -/
def imported (x : Except Fault α) : Traced Failure α := .lift (x.mapError .ofFault)

def ofJson (kind : Kind) (v : Json) : Traced Failure Entity :=
  match kind with
  | .cell => (imported (Cell.ofJson v)).map fun c => .operand (.atom (.cell c))
  | .atom => (imported (Atom.ofJson v)).map fun a => .operand (.atom a)
  | .operand => (imported (Operand.ofJson v)).map .operand
  | .hint => (imported (Hint.ofJson v)).map .hint
  | .body => (imported (Body.ofJson v)).map .body
  | .instruction => (Instruction.ofJson v).map .instruction
  | .program => (Program.ofJson v).map .program

def atomSize? : Entity → Option Nat
  | .operand o => o.atom?.map Atom.size
  | _ => none

def operandSize? : Entity → Option Nat
  | .operand o => some o.size
  | _ => none

def integerForm? : Entity → Option (Writing String)
  | .operand o => some o.integerForm
  | _ => none

def bodySize? : Entity → Option Nat
  | .body b => some b.size
  | _ => none

def bodyText? : Entity → Option (Writing String)
  | .body b => some b.text
  | _ => none

/-- A hint has its code, but no text outside an instruction. -/
def text? : Entity → Option (Writing String)
  | .operand o => some o.text
  | .hint _ => none
  | .body b => some b.text
  | .instruction i => some i.text
  | .program p => some p.text.result

/-- Whether a thing stays as it is. Programs do not: instructions can be appended to them. -/
def isFixed : Entity → Bool
  | .program _ => false
  | _ => true

/-- The thing that data describes, if it stays as it is. -/
def fixedOfJson (kind : Kind) (v : Json) : Except CountError Entity := do
  let e ← (ofJson kind v).result.mapError .failure
  if e.isFixed then return e else throw .changeable

/-- The number of different things that items describe. The first item that cannot be counted ends
the count. -/
def countDistinct (kind : Kind) (items : List Json) : Except CountError Nat := do
  let entities ← items.mapM (fixedOfJson kind)
  return entities.eraseDups.length

end Entity
end CairoAsm
