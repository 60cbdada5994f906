import CairoAsm.Proofs.Command.Stages
import CairoAsm.Proofs.Schema.Progress

/-!
Two runs on one file, of which only one is asked to say more. They end alike and print the same, and
what the one says more are the records for debugging: that the file is loaded, the instructions up
to the first fault, and the addresses if there is none.
-/
namespace CairoAsm.Command
open Text

/-! ### The records for debugging -/

section
variable {host : Host} {path : String} {bytes : List UInt8} {v : Json} {p : Program}
  {is : List Instruction} {log : List Event}

/-- All that is logged before the end is for debugging. -/
def OnlyDebug (log : List Event) : Prop := ∀ e ∈ log, e.severity = .debug

theorem OnlyDebug.visible (debug : OnlyDebug log) (offsets sizes : Bool) :
    visible ⟨offsets, sizes, false⟩ log = [] ∧ visible ⟨offsets, sizes, true⟩ log = log := by
  refine ⟨List.filter_eq_nil_iff.mpr fun e member => ?_, rfl⟩
  simp [debug e member]

end

section
variable {host : Host} {disk : Disk} {args args' words words' : List String} {path : String}
  {bytes : List UInt8}

end

end CairoAsm.Command
