import CairoAsm.Proofs.Program

/-!
The layout of a program in memory. The address of an instruction is the size of what comes before
it, so programs are laid out piece by piece, and the instructions cover every word up to the size
of the program once.
-/
namespace CairoAsm

theorem Atom.size_cases (a : Atom) : a.size = 1 ∨ a.size = 2 := by
  cases a with
  | cell c => exact .inl rfl
  | immediate n => exact .inr rfl

theorem Operand.size_cases (o : Operand) : o.size = 1 ∨ o.size = 2 := by
  cases o with
  | atom a => exact a.size_cases
  | indirect c n => exact .inl rfl
  | binary op a b => exact b.size_cases

theorem Body.size_cases (b : Body) : b.size = 1 ∨ b.size = 2 := by
  cases b with
  | addAp operand => exact operand.size_cases
  | assertEq a b => exact b.size_cases
  | assertEqQm31 a b => exact b.size_cases
  | call target relative => exact target.size_cases
  | jump target relative => exact target.size_cases
  | jumpNonzero offset condition => exact offset.size_cases
  | ret => exact .inl rfl
  | blake2s state byteCount message finalize => exact .inl rfl

theorem Instruction.size_cases (i : Instruction) : i.size = 1 ∨ i.size = 2 := i.body.size_cases

namespace Program

theorem size_append (is js : List Instruction) : size ⟨is ++ js⟩ = size ⟨is⟩ + size ⟨js⟩ := by
  induction is with
  | nil => exact (Nat.zero_add _).symm
  | cons i is ih =>
    rw [List.cons_append, size_cons, size_cons, ih]
    omega

/-- Instructions laid out from a later address on are moved as a whole. -/
theorem addressesFrom_eq_map (start : Nat) (is : List Instruction) :
    addressesFrom start is = (addressesFrom 0 is).map (start + ·) := by
  have moved : ∀ a b, addressesFrom (a + b) is = (addressesFrom b is).map (a + ·) := by
    intro a b
    induction is generalizing b with
    | nil => rfl
    | cons i is ih => rw [addressesFrom, addressesFrom, Nat.add_assoc, ih, List.map_cons]
  exact moved start 0

/-- The size of the first `k` instructions: the address of the next one, or the end. -/
def sizeBefore (p : Program) (k : Nat) : Nat := size ⟨p.instructions.take k⟩

section
variable (p : Program)

theorem sizeBefore_length : p.sizeBefore p.length = p.size := by
  rw [sizeBefore, length, List.take_length]

theorem sizeBefore_succ {k : Nat} {i : Instruction} (at_k : p.instructions[k]? = some i) :
    p.sizeBefore (k + 1) = p.sizeBefore k + i.size := by
  have last : size ⟨[i]⟩ = i.size := Nat.add_zero _
  rw [sizeBefore, sizeBefore, List.take_add_one, at_k, Option.toList_some, size_append, last]

theorem getElem?_addressesFrom (start k : Nat) (is : List Instruction) (h : k < is.length) :
    (addressesFrom start is)[k]? = some (start + size ⟨is.take k⟩) := by
  induction is generalizing start k with
  | nil => exact absurd h (Nat.not_lt_zero k)
  | cons i is ih =>
    cases k with
    | zero => rfl
    | succ k =>
      have rest := ih (start + i.size) k (Nat.lt_of_succ_lt_succ h)
      rw [addressesFrom, List.getElem?_cons_succ, rest, List.take_succ_cons, size_cons,
        Nat.add_assoc]

theorem getElem?_addresses {k : Nat} (h : k < p.length) :
    p.addresses[k]? = some (p.sizeBefore k) := by
  have address := getElem?_addressesFrom 0 k p.instructions h
  rwa [Nat.zero_add] at address

theorem getElem?_placed {k : Nat} {i : Instruction} (at_k : p.instructions[k]? = some i) :
    p.placed[k]? = some (p.sizeBefore k, i) := by
  have inside : k < p.length := (List.getElem?_eq_some_iff.mp at_k).1
  exact List.getElem?_zip_eq_some.mpr ⟨p.getElem?_addresses inside, at_k⟩

theorem exists_instruction {k : Nat} (h : k < p.length) : ∃ i, p.instructions[k]? = some i :=
  ⟨p.instructions[k], List.getElem?_eq_getElem h⟩

theorem sizeBefore_lt {k l : Nat} (h : k < l) (inside : l ≤ p.length) :
    p.sizeBefore k < p.sizeBefore l := by
  induction l with
  | zero => exact absurd h (Nat.not_lt_zero k)
  | succ l ih =>
    obtain ⟨i, at_l⟩ := p.exists_instruction inside
    have next := p.sizeBefore_succ at_l
    have size := i.size_cases
    rcases Nat.lt_or_eq_of_le (Nat.le_of_lt_succ h) with before | rfl
    · have earlier := ih before (Nat.le_of_lt inside)
      omega
    · omega

theorem sizeBefore_le {k l : Nat} (h : k ≤ l) (inside : l ≤ p.length) :
    p.sizeBefore k ≤ p.sizeBefore l := by
  rcases Nat.lt_or_eq_of_le h with lt | rfl
  · exact Nat.le_of_lt (p.sizeBefore_lt lt inside)
  · exact Nat.le_refl _

/-- Each instruction takes one word or two. -/
theorem sizeBefore_bounds {k : Nat} (inside : k ≤ p.length) :
    k ≤ p.sizeBefore k ∧ p.sizeBefore k ≤ 2 * k := by
  induction k with
  | zero => exact ⟨Nat.le_refl 0, Nat.le_refl 0⟩
  | succ k ih =>
    obtain ⟨i, at_k⟩ := p.exists_instruction inside
    have next := p.sizeBefore_succ at_k
    have size := i.size_cases
    have earlier := ih (Nat.le_of_lt inside)
    omega

/-- The address of the next instruction, or the size after the last one. -/
theorem getD_addresses {k : Nat} (inside : k ≤ p.length) :
    p.addresses.getD k p.size = p.sizeBefore k := by
  rw [List.getD_eq_getElem?_getD]
  rcases Nat.lt_or_eq_of_le inside with lt | rfl
  · rw [p.getElem?_addresses lt, Option.getD_some]
  · have past : p.addresses[p.length]? = none :=
      List.getElem?_eq_none (Nat.le_of_eq p.length_addresses)
    rw [past, Option.getD_none, p.sizeBefore_length]

theorem pairwise_addresses : p.addresses.Pairwise (· < ·) := by
  rw [List.pairwise_iff_getElem]
  intro k l hk hl lt
  rw [p.length_addresses] at hk hl
  have lower := p.getElem?_addresses hk
  have upper := p.getElem?_addresses hl
  rw [List.getElem?_eq_some_iff] at lower upper
  rw [lower.2, upper.2]
  exact p.sizeBefore_lt lt (Nat.le_of_lt hl)

end

/-- The word at address `a` belongs to instruction `k`, if addresses are given out as `os`. -/
def Covers (p : Program) (os : List Nat) (k a : Nat) : Prop :=
  ∃ offset i, os[k]? = some offset ∧ p.instructions[k]? = some i ∧ offset ≤ a ∧ a < offset + i.size

theorem covers_iff {p : Program} {k a : Nat} :
    p.Covers p.addresses k a ↔ k < p.length ∧ p.sizeBefore k ≤ a ∧ a < p.sizeBefore (k + 1) := by
  constructor
  · rintro ⟨offset, i, address, instruction, low, high⟩
    have inside : k < p.length := (List.getElem?_eq_some_iff.mp instruction).1
    rw [p.getElem?_addresses inside] at address
    cases address
    rw [p.sizeBefore_succ instruction]
    exact ⟨inside, low, high⟩
  · rintro ⟨inside, low, high⟩
    obtain ⟨i, at_k⟩ := p.exists_instruction inside
    rw [p.sizeBefore_succ at_k] at high
    exact ⟨_, i, p.getElem?_addresses inside, at_k, low, high⟩

theorem covers_unique {p : Program} {k l a : Nat} (hk : p.Covers p.addresses k a)
    (hl : p.Covers p.addresses l a) :
    k = l := by
  obtain ⟨insideK, lowK, highK⟩ := covers_iff.mp hk
  obtain ⟨insideL, lowL, highL⟩ := covers_iff.mp hl
  rcases Nat.lt_trichotomy k l with before | same | after
  · have gap : p.sizeBefore (k + 1) ≤ p.sizeBefore l :=
      p.sizeBefore_le before (Nat.le_of_lt insideL)
    omega
  · exact same
  · have gap : p.sizeBefore (l + 1) ≤ p.sizeBefore k :=
      p.sizeBefore_le after (Nat.le_of_lt insideK)
    omega

/-- Every word below the size is inside of some instruction. -/
theorem exists_covers {p : Program} {a n : Nat} (inside : n ≤ p.length)
    (h : a < p.sizeBefore n) : ∃ k, p.Covers p.addresses k a := by
  induction n with
  | zero => exact absurd h (Nat.not_lt_zero a)
  | succ n ih =>
    rcases Nat.lt_or_ge a (p.sizeBefore n) with before | here
    · exact ih (Nat.le_of_lt inside) before
    · exact ⟨n, covers_iff.mpr ⟨inside, here, h⟩⟩

theorem exists_covers_iff {p : Program} {a : Nat} :
    (∃ k, p.Covers p.addresses k a) ↔ a < p.size := by
  constructor
  · rintro ⟨k, covers⟩
    obtain ⟨inside, _, high⟩ := covers_iff.mp covers
    have within : p.sizeBefore (k + 1) ≤ p.sizeBefore p.length :=
      p.sizeBefore_le inside (Nat.le_refl _)
    rw [p.sizeBefore_length] at within
    omega
  · intro below
    rw [← p.sizeBefore_length] at below
    exact exists_covers (Nat.le_refl _) below

end Program

/-- Programs laid out one after the other keep their layouts, the second one moved past the first.
Addresses start at zero, each is the one before it and the size there, and no word up to the size
is left out or taken twice. Addresses are given out if the bodies can be written. -/
theorem layout_tiles_memory :
    (∀ p q : Program, Program.size ⟨p.instructions ++ q.instructions⟩ = p.size + q.size) ∧
    (∀ p q : Program, WithinDigits digitLimit p.bodyIntegers →
      WithinDigits digitLimit q.bodyIntegers →
      ∃ ps qs, p.offsets.result = .ok ps ∧ q.offsets.result = .ok qs ∧
        (Program.offsets ⟨p.instructions ++ q.instructions⟩).result =
          .ok (ps ++ qs.map (p.size + ·))) ∧
    ∀ p : Program, WithinDigits digitLimit p.bodyIntegers → ∃ os, p.offsets.result = .ok os ∧
      os.length = p.length ∧
      (0 < p.length → os[0]? = some 0) ∧
      os.Pairwise (· < ·) ∧
      (∀ k i, p.instructions[k]? = some i → ∃ offset, os[k]? = some offset ∧
        os.getD (k + 1) p.size = offset + i.size ∧ k ≤ offset ∧ offset ≤ 2 * k) ∧
      (∀ k < p.length, ∃ a, p.Covers os k a) ∧
      (∀ a, (∃ k, p.Covers os k a) ↔ a < p.size) ∧
      ∀ k l a, p.Covers os k a → p.Covers os l a → k = l := by
  refine ⟨fun p q => Program.size_append p.instructions q.instructions, ?_, ?_⟩
  · intro p q hp hq
    have joined : WithinDigits digitLimit
        (Program.bodyIntegers ⟨p.instructions ++ q.instructions⟩) := by
      simp only [Program.bodyIntegers, List.flatMap_append, withinDigits_append]
      exact ⟨hp, hq⟩
    have later : Program.addressesFrom p.size q.instructions = q.addresses.map (p.size + ·) :=
      Program.addressesFrom_eq_map p.size q.instructions
    refine ⟨p.addresses, q.addresses, Program.offsets_eq_ok_iff.mpr ⟨hp, rfl⟩,
      Program.offsets_eq_ok_iff.mpr ⟨hq, rfl⟩, Program.offsets_eq_ok_iff.mpr ⟨joined, ?_⟩⟩
    rw [← later, Program.addresses, Program.addressesFrom_append, Nat.zero_add]
    rfl
  · intro p hp
    refine ⟨p.addresses, Program.offsets_eq_ok_iff.mpr ⟨hp, rfl⟩, p.length_addresses,
      p.getElem?_addresses, p.pairwise_addresses, ?_, ?_, fun _ => Program.exists_covers_iff,
      fun _ _ _ => Program.covers_unique⟩
    · intro k i at_k
      have inside : k < p.length := (List.getElem?_eq_some_iff.mp at_k).1
      have next := p.getD_addresses inside
      rw [p.sizeBefore_succ at_k] at next
      exact ⟨_, p.getElem?_addresses inside, next, p.sizeBefore_bounds (Nat.le_of_lt inside)⟩
    · intro k inside
      have room := p.sizeBefore_lt (Nat.lt_succ_self k) inside
      exact ⟨_, Program.covers_iff.mpr ⟨inside, Nat.le_refl _, room⟩⟩

/-- A constant on the right takes a word, on the left none. -/
theorem layout_tiles_memory_constants :
    let right : Instruction :=
      ⟨.addAp (.binary .add (.cell ⟨.fp, -3⟩) (.immediate (-7))), true, [.verbatim "x"]⟩
    let left : Instruction :=
      ⟨.assertEq ⟨.ap, 0⟩ (.binary .mul (.immediate (-7)) (.cell ⟨.fp, -3⟩)), false, []⟩
    let p : Program := ⟨[right, left, right]⟩
    let q : Program := ⟨[left]⟩
    WithinDigits digitLimit p.bodyIntegers ∧ WithinDigits digitLimit q.bodyIntegers ∧
      (∃ ps qs, p.offsets.result = .ok ps ∧ q.offsets.result = .ok qs ∧
        (Program.offsets ⟨p.instructions ++ q.instructions⟩).result =
          .ok (ps ++ qs.map (p.size + ·))) ∧
      ∃ os, p.offsets.result = .ok os ∧ 0 < p.length ∧ os[0]? = some 0 ∧
      p.instructions[1]? = some left ∧
      (∃ offset, os[1]? = some offset ∧
        os.getD 2 p.size = offset + left.size ∧ 1 ≤ offset ∧ offset ≤ 2 * 1) ∧
      (∃ a, p.Covers os 2 a) ∧ (∃ k, p.Covers os k 4) ∧ ¬ ∃ k, p.Covers os k 5 := by
  intro right left p q
  have short : WithinDigits digitLimit p.bodyIntegers := by decide +kernel
  have short' : WithinDigits digitLimit q.bodyIntegers := by decide +kernel
  obtain ⟨_, joined, tiles⟩ := layout_tiles_memory
  obtain ⟨os, given, _, start, _, step, nonempty, tiled, _⟩ := tiles p short
  have within : 4 < p.size := by decide
  have outside : ¬ 5 < p.size := by decide
  exact ⟨short, short', joined p q short short', os, given, by decide, start (by decide), rfl,
    step 1 left rfl, nonempty 2 (by decide), (tiled 4).mpr within,
    fun covered => outside ((tiled 5).mp covered)⟩

/-- Addresses are not given out for a body that cannot be written. -/
theorem unwritable_program_has_no_layout :
    ¬∃ os, Program.unwritable.offsets.result = .ok os ∧ os.length = Program.unwritable.length := by
  intro ⟨os, given, _⟩
  have short := (Program.offsets_eq_ok_iff.mp given).1
  exact Body.not_withinDigits_unwritable (Program.withinDigits_bodyIntegers.mp short _
    List.mem_cons_self)

end CairoAsm
