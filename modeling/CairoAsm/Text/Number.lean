/-!
Whole numbers as decimal text. A number with too many digits is neither written nor read: a text
that is to show one is never made.
-/
namespace CairoAsm

/-- The most digits that a number can have where it is written or read. -/
def digitLimit : Nat := 4300

structure Oversized where
  deriving DecidableEq

abbrev Writing := Except Oversized

def decimal (n : Int) : Writing String :=
  if n.natAbs.repr.length ≤ digitLimit then .ok n.repr else .error ⟨⟩

end CairoAsm
