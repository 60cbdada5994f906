import CairoAsm.Json.Token
import CairoAsm.Proofs.Text.Number

namespace CairoAsm.Json.Token
open Text

/-- Text that no number goes on with. -/
def EndsNumber (r : List Char) : Prop :=
  ∀ c ∈ r.head?, c.isDigit = false ∧ c ≠ '.' ∧ c ≠ 'e' ∧ c ≠ 'E'

theorem endsNumber_nil : EndsNumber [] := nofun

theorem endsNumber_cons {c : Char} (h : c.isDigit = false ∧ c ≠ '.' ∧ c ≠ 'e' ∧ c ≠ 'E')
    (r : List Char) : EndsNumber (c :: r) := by
  rintro d hd
  cases hd
  exact h

theorem EndsNumber.noDigit {r : List Char} (h : EndsNumber r) : NoDigit r :=
  fun c hc => (h c hc).1

theorem ne_of_isDigit {c d : Char} (digit : c.isDigit) (other : d.isDigit = false) : c ≠ d := by
  rintro rfl
  rw [digit] at other
  cases other

/-- Only zero starts with the digit zero. -/
theorem head?_natRepr_ne_zero {n : Nat} (h : n ≠ 0) : n.repr.toList.head? ≠ some '0' := by
  rw [Nat.toList_repr]
  induction n using Nat.strongRecOn with
  | _ n ih =>
    rw [Nat.toDigits_eq_if (by decide)]
    split
    · rename_i small
      have notZero : ∀ d < 10, d ≠ 0 → Nat.digitChar d ≠ '0' := by decide
      exact fun same => notZero n small h (Option.some.inj same)
    · rename_i large
      have earlier := ih (n / 10) (by omega) (by omega)
      obtain ⟨d, ds, start⟩ := List.exists_cons_of_ne_nil
        (show Nat.toDigits 10 (n / 10) ≠ [] from Nat.toDigits_ne_nil)
      rw [start] at earlier ⊢
      exact earlier

theorem wholeDigits_natRepr (n : Nat) {r : List Char} (ends : NoDigit r) :
    wholeDigits (n.repr.toList ++ r) = n.repr.toList := by
  by_cases zero : n = 0
  · subst zero
    rfl
  · have first := head?_natRepr_ne_zero zero
    have digits : ∀ c ∈ n.repr.toList, c.isDigit := fun _ => isDigit_of_mem_repr
    have whole := takeWhile_digits_append digits ends
    unfold wholeDigits
    split
    · rename_i tail same
      obtain ⟨c, cs, start⟩ := List.exists_cons_of_ne_nil (show n.repr.toList ≠ [] by simp)
      rw [start] at same first
      exact absurd (congrArg some (List.cons.inj same).1) first
    · exact whole

theorem exponent?_eq_none {r : List Char} (ends : EndsNumber r) : exponent? r = none := by
  cases r with
  | nil => rfl
  | cons c r =>
    obtain ⟨_, _, lower, upper⟩ := ends c rfl
    simp [exponent?, lower, upper]

theorem fractionDigits_eq_nil {r : List Char} (ends : EndsNumber r) : fractionDigits r = [] := by
  unfold fractionDigits
  split
  · rename_i tail
    exact absurd rfl (ends '.' rfl).2.1
  · rfl

theorem natOfDigits_natRepr (n : Nat) : natOfDigits n.repr.toList = n := by
  rw [natOfDigits, Nat.toList_repr, Nat.ofDigitChars_ten_toDigits]

theorem number?_natRepr (limit : Option Nat) (negative : Bool) (n : Nat) {r : List Char}
    (ends : EndsNumber r) :
    number? limit negative (n.repr.toList ++ r) =
      some (wholeNumber limit negative n.repr.toList, n.repr.length) := by
  have whole := wholeDigits_natRepr n ends.noDigit
  have after : (n.repr.toList ++ r).drop n.repr.toList.length = r := List.drop_left
  have nonempty : n.repr.toList ≠ [] := by simp
  simp only [number?, whole, after, fractionDigits_eq_nil ends, if_true, Nat.add_zero,
    exponent?_eq_none ends, if_neg nonempty]
  rfl

section
variable {limit n : Nat} (negative : Bool)

theorem wholeNumber_natRepr (short : n.repr.length ≤ limit) :
    wholeNumber (some limit) negative n.repr.toList = .scalar (.int (signed negative n)) := by
  have within : ¬ limit < n.repr.toList.length := Nat.not_lt.mpr short
  rw [wholeNumber, natOfDigits_natRepr, if_neg (by simpa using within)]

theorem wholeNumber_natRepr_long (long : limit < n.repr.length) :
    wholeNumber (some limit) negative n.repr.toList = .oversized := by
  have beyond : limit < n.repr.toList.length := long
  rw [wholeNumber, if_pos (by simpa using beyond)]

end

/-- A one and zeros are a number. -/
theorem exists_natRepr_eq (k : Nat) :
    ∃ n : Nat, 0 < n ∧ n.repr.toList = '1' :: List.replicate k '0' := by
  induction k with
  | zero => exact ⟨1, by decide, rfl⟩
  | succ k ih =>
    obtain ⟨n, positive, digits⟩ := ih
    rw [Nat.toList_repr] at digits
    have large : ¬ 10 * n < 10 := by omega
    have front : 10 * n / 10 = n := by omega
    have last : 10 * n % 10 = 0 := by omega
    refine ⟨10 * n, by omega, ?_⟩
    rw [Nat.toList_repr, Nat.toDigits_eq_if (by decide), if_neg large, front, last, digits,
      List.replicate_succ', List.cons_append]
    rfl

theorem wholeDigits_start (cs : List Char) :
    wholeDigits cs <+: cs ∧ ∀ c ∈ wholeDigits cs, c.isDigit := by
  unfold wholeDigits
  split
  · rename_i tail
    exact ⟨⟨tail, rfl⟩, List.forall_mem_singleton.mpr rfl⟩
  · exact ⟨List.takeWhile_prefix _, List.all_eq_true.mp List.all_takeWhile⟩

theorem wholeNumber_eq_oversized {limit : Nat} {negative : Bool} {ds : List Char}
    (h : wholeNumber (some limit) negative ds = .oversized) : limit < ds.length := by
  rw [wholeNumber] at h
  split at h
  · rename_i long
    simpa using long
  · cases h

theorem natOfDigits_lt {ds : List Char} (digits : ∀ c ∈ ds, c.isDigit) :
    natOfDigits ds < Nat.pow 10 ds.length := by
  induction ds with
  | nil => exact Nat.one_pos
  | cons c ds ih =>
    obtain ⟨digit, others⟩ := List.forall_mem_cons.mp digits
    have small : c.toNat - '0'.toNat ≤ 9 := by
      have range : c.toNat ≤ 57 := (Char.isDigit_iff_toNat.mp digit).2
      exact Nat.sub_le_sub_right range 48
    have rest : Nat.ofDigitChars 10 ds 0 < Nat.pow 10 ds.length := ih others
    have leading := Nat.mul_le_mul_left (Nat.pow 10 ds.length) small
    rw [natOfDigits, Nat.ofDigitChars_cons, Nat.ofDigitChars_eq_ofDigitChars_zero, Nat.mul_zero,
      Nat.zero_add, List.length_cons, Nat.pow_eq, Nat.pow_succ]
    rw [Nat.pow_eq] at rest leading
    omega

theorem natAbs_signed (negative : Bool) (n : Nat) : (signed negative n).natAbs = n := by
  cases negative <;> simp [signed]

/-- A whole number that is read has no more digits than the limit. -/
theorem short_of_wholeNumber {limit : Nat} {negative : Bool} {ds : List Char} {v : Json}
    (nonempty : ds ≠ []) (digits : ∀ c ∈ ds, c.isDigit)
    (read : wholeNumber (some limit) negative ds = .scalar v) :
    ∃ n, v = .int n ∧ n.natAbs.repr.length ≤ limit := by
  rw [wholeNumber] at read
  split at read
  · cases read
  · rename_i fits
    have within : ds.length ≤ limit := by simpa using fits
    have positive : 0 < ds.length := List.length_pos_iff.mpr nonempty
    cases read
    refine ⟨_, rfl, Nat.le_trans ?_ within⟩
    rw [natAbs_signed, Nat.length_repr_le_iff positive]
    exact natOfDigits_lt digits

/-- The digits of a number that is too long stand at the head of the text. -/
theorem digits_of_number?_oversized {limit : Nat} {negative : Bool} {cs : List Char} {n : Nat}
    (h : number? (some limit) negative cs = some (.oversized, n)) :
    ∃ ds, ds <+: cs ∧ (∀ c ∈ ds, c.isDigit) ∧ limit < ds.length := by
  obtain ⟨start, digits⟩ := wholeDigits_start cs
  refine ⟨wholeDigits cs, start, digits, ?_⟩
  unfold number? at h
  dsimp only at h
  split at h
  · cases h
  · split at h
    · simp at h
    · split at h
      · simp only [Option.some.injEq, Prod.mk.injEq] at h
        exact wholeNumber_eq_oversized h.1
      · simp at h

end CairoAsm.Json.Token
