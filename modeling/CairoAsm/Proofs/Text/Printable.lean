import CairoAsm.Proofs.Text.Number

namespace CairoAsm.Text

/-- A text of ASCII characters from the blank on, without the last, which is a control character. -/
def Printable (s : String) : Prop := s.toList.all fun c => 32 ≤ c.toNat ∧ c.toNat < 127

instance (s : String) : Decidable (Printable s) :=
  inferInstanceAs (Decidable ((s.toList.all fun c => 32 ≤ c.toNat ∧ c.toNat < 127) = true))

theorem printable_iff {s : String} :
    Printable s ↔ ∀ c ∈ s.toList, 32 ≤ c.toNat ∧ c.toNat < 127 := by
  simp [Printable]

@[simp] theorem printable_append {s t : String} :
    Printable (s ++ t) ↔ Printable s ∧ Printable t := by
  rw [printable_iff, printable_iff, printable_iff, String.toList_append, List.forall_mem_append]

theorem printable_natRepr (n : Nat) : Printable n.repr := by
  rw [printable_iff]
  intro c member
  obtain ⟨low, high⟩ := Char.isDigit_iff_toNat.mp (isDigit_of_mem_repr member)
  exact ⟨Nat.le_trans (by decide) low, Nat.lt_of_le_of_lt high (by decide)⟩

@[simp] theorem printable_repr (n : Int) : Printable n.repr := by
  cases n with
  | ofNat m => exact printable_natRepr m
  | negSucc m => exact printable_append.mpr ⟨by decide, printable_natRepr (m + 1)⟩

theorem Printable.notMem {s : String} (h : Printable s) {c : Char} (low : c.toNat < 32) :
    c ∉ s.toList :=
  fun member => absurd (printable_iff.mp h c member).1 (Nat.not_le.mpr low)

theorem Printable.newline_notMem {s : String} (h : Printable s) : '\n' ∉ s.toList :=
  h.notMem (by decide)

end CairoAsm.Text
