import CairoAsm.Program
import CairoAsm.Text.Lines

namespace CairoAsm

structure Settings where
  showOffsets : Bool := false
  showSizes : Bool := false
  verbose : Bool := false
  deriving DecidableEq

def Settings.update (s : Settings) (showOffsets showSizes verbose : Option Bool) : Settings :=
  ⟨showOffsets.getD s.showOffsets, showSizes.getD s.showSizes, verbose.getD s.verbose⟩

namespace Listing

def padded (width n : Nat) : String := String.ofList (n.repr.toList.leftpad width '0')

def blanks (n : Nat) : String := String.ofList (List.replicate n ' ')

def bodyLine (s : Settings) (width offset size : Nat) (text : String) : String :=
  (if s.showOffsets then padded width offset ++ ": " else "") ++ text
    ++ if s.showSizes then "  // size " ++ size.repr else ""

/-- A hint line, moved past the address column; an empty line stays empty. -/
def hintLine (s : Settings) (width : Nat) (text : String) : String :=
  if s.showOffsets ∧ text ≠ "" then blanks (width + 2) ++ text else text

/-- The lines of an instruction at an address. The last line of its text is its body. -/
def instructionLines (s : Settings) (width offset : Nat) (i : Instruction) :
    Writing (List String) := do
  let all := Text.lines (← i.text)
  return all.dropLast.map (hintLine s width) ++ [bodyLine s width offset i.size (all.getLastD "")]

end Listing

namespace Program

def addressWidth (p : Program) : Nat := max 4 p.size.repr.length

def emit (p : Program) (s : Settings) : Traced Oversized (List String) := do
  let width := p.addressWidth
  let offsets ← p.offsets
  let blocks ← .lift ((offsets.zip p.instructions).mapM fun (offset, i) =>
    Listing.instructionLines s width offset i)
  return blocks.flatten

def listing (p : Program) (s : Settings) : Traced Oversized String := do
  return Text.unlines (← p.emit s)

def text (p : Program) : Traced Oversized String := p.listing {}

end Program
end CairoAsm
