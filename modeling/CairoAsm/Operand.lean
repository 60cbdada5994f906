import CairoAsm.Text.Number

/-!
Operands of Cairo assembly. A cell is addressed from a register; an atom is a cell or a constant;
an operand is what an instruction can read. Each has its text, its size in words and the integer
expression that hint code uses for it.
-/
namespace CairoAsm

inductive Register where
  | ap
  | fp
  deriving DecidableEq

namespace Register

def name : Register → String
  | .ap => "ap"
  | .fp => "fp"

def ofName? : String → Option Register
  | "ap" => some .ap
  | "fp" => some .fp
  | _ => none

theorem ofName?_eq_some_iff {s : String} {r : Register} : ofName? s = some r ↔ s = r.name := by
  constructor
  · unfold ofName?
    split <;> rintro ⟨⟩ <;> rfl
  · rintro rfl
    cases r <;> rfl

end Register

/-- The memory cell at a register plus an offset. -/
structure Cell where
  register : Register
  offset : Int
  deriving DecidableEq

def Cell.text (c : Cell) : Writing String := do
  return "[" ++ c.register.name ++ " + " ++ (← decimal c.offset) ++ "]"

/-- What a jump target or one side of an operation can be. -/
inductive Atom where
  | cell (c : Cell)
  | immediate (value : Int)
  deriving DecidableEq

namespace Atom

def text : Atom → Writing String
  | .cell c => c.text
  | .immediate n => decimal n

/-- A constant takes a word of its own after the opcode. -/
def size : Atom → Nat
  | .cell _ => 1
  | .immediate _ => 2

def integerForm : Atom → Writing String
  | .cell c => do return "memory" ++ (← c.text)
  | .immediate n => decimal n

end Atom

inductive Operation where
  | add
  | mul
  deriving DecidableEq

namespace Operation

def symbol : Operation → String
  | .add => "+"
  | .mul => "*"

def ofSymbol? : String → Option Operation
  | "+" => some .add
  | "*" => some .mul
  | _ => none

theorem ofSymbol?_eq_some_iff {s : String} {op : Operation} :
    ofSymbol? s = some op ↔ s = op.symbol := by
  constructor
  · unfold ofSymbol?
    split <;> rintro ⟨⟩ <;> rfl
  · rintro rfl
    cases op <;> rfl

end Operation

/-- What an instruction or a hint can read: an atom, the cell an offset away from the address that
another cell holds, or an operation on two atoms. -/
inductive Operand where
  | atom (a : Atom)
  | indirect (c : Cell) (offset : Int)
  | binary (op : Operation) (a b : Atom)
  deriving DecidableEq

namespace Operand

def text : Operand → Writing String
  | .atom a => a.text
  | .indirect c n => do return "[" ++ (← c.text) ++ " + " ++ (← decimal n) ++ "]"
  | .binary op a b => do return (← a.text) ++ " " ++ op.symbol ++ " " ++ (← b.text)

/-- Only the right side of an operation can hold the constant that takes the second word. -/
def size : Operand → Nat
  | .atom a => a.size
  | .indirect _ _ => 1
  | .binary _ _ b => b.size

def integerForm : Operand → Writing String
  | .atom a => a.integerForm
  | .indirect c n => do return "memory[memory" ++ (← c.text) ++ " + " ++ (← decimal n) ++ "]"
  | .binary op a b => do
    return "(" ++ (← a.integerForm) ++ " " ++ op.symbol ++ " " ++ (← b.integerForm) ++ ") % PRIME"

/-- The operand as an atom, if it is one. -/
def atom? : Operand → Option Atom
  | .atom a => some a
  | _ => none

end Operand
end CairoAsm
