import CairoAsm.Event
import CairoAsm.Instruction

namespace CairoAsm

-- Sums start from the core library's zero, whichever others are in scope.
attribute [local instance (high)] Zero.ofOfNat0

structure Program where
  instructions : List Instruction
  deriving DecidableEq

namespace Program

def length (p : Program) : Nat := p.instructions.length

def append (p : Program) (i : Instruction) (times : Nat) : Program :=
  ⟨p.instructions ++ List.replicate times i⟩

/-- Memory words that the program takes. -/
def size (p : Program) : Nat := (p.instructions.map Instruction.size).sum

/-- Whether a program is equal to another thing, which is given if it is a program. -/
def equals (p : Program) : Option Program → Bool
  | some q => p.instructions = q.instructions
  | none => false

/-- The addresses of instructions that follow one another from address `start`, each reported with
the body that goes there; `done` is in reverse. -/
def offsetsFrom (start : Nat) (done : List Nat) : List Instruction → Traced Oversized (List Nat)
  | [] => return done.reverse
  | i :: rest => do
    let body ← .lift i.body.text
    .report (.placed start body)
    offsetsFrom (start + i.size) (start :: done) rest

def offsets (p : Program) : Traced Oversized (List Nat) := offsetsFrom 0 [] p.instructions

end Program
end CairoAsm
