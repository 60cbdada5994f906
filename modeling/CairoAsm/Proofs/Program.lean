import CairoAsm.Proofs.Integers
import CairoAsm.Proofs.Lists
import CairoAsm.Proofs.Traced

/-!
Where instructions lie. Addresses depend on the sizes alone and stay within the size of the program.
Giving them out reports every body, so it needs bodies that can be written.
-/
namespace CairoAsm.Program

theorem equals_some_iff {p q : Program} : p.equals (some q) ↔ p = q := by
  obtain ⟨is⟩ := p
  obtain ⟨js⟩ := q
  simp [equals]

/-- The addresses of instructions that follow one another from address `start`. -/
def addressesFrom (start : Nat) : List Instruction → List Nat
  | [] => []
  | i :: rest => start :: addressesFrom (start + i.size) rest

def addresses (p : Program) : List Nat := addressesFrom 0 p.instructions

/-- The instructions, each with its address. -/
def placed (p : Program) : List (Nat × Instruction) := p.addresses.zip p.instructions

/-- The numbers that the bodies show. -/
def bodyIntegers (p : Program) : List Int := p.instructions.flatMap fun i => i.body.integers

theorem withinDigits_bodyIntegers {p : Program} {limit : Nat} :
    WithinDigits limit p.bodyIntegers ↔ ∀ i ∈ p.instructions, WithinDigits limit i.body.integers :=
  withinDigits_flatMap

theorem bodyIntegers_subset (p : Program) : p.bodyIntegers ⊆ p.integers := by
  intro n member
  obtain ⟨i, here, within⟩ := List.mem_flatMap.mp member
  exact List.mem_flatMap.mpr ⟨i, here, List.mem_append_right _ within⟩

def placement (offset : Nat) (i : Instruction) : Event := .placed offset i.body.fullText

theorem length_addressesFrom (start : Nat) (is : List Instruction) :
    (addressesFrom start is).length = is.length := by
  induction is generalizing start with
  | nil => rfl
  | cons i rest ih => simp [addressesFrom, ih]

theorem addressesFrom_append (start : Nat) (is js : List Instruction) :
    addressesFrom start (is ++ js) =
      addressesFrom start is ++ addressesFrom (start + size ⟨is⟩) js := by
  induction is generalizing start with
  | nil => rfl
  | cons i rest ih => simp [addressesFrom, ih, size, Nat.add_assoc]

theorem length_addresses (p : Program) : p.addresses.length = p.instructions.length :=
  length_addressesFrom 0 p.instructions

theorem result_offsetsFrom (start : Nat) (done : List Nat) (is : List Instruction) :
    (offsetsFrom start done is).result =
      showing (is.flatMap fun i => i.body.integers) (done.reverse ++ addressesFrom start is) := by
  induction is generalizing start done with
  | nil => simp [offsetsFrom, addressesFrom, ← pure_eq_showing, pure, Except.pure]
  | cons i rest ih =>
    simp only [offsetsFrom, Traced.result_bind, Traced.result_lift, Traced.result_report, ok_bind,
      ih, Body.text_eq, showing_bind_showing, List.flatMap_cons, addressesFrom, List.reverse_cons,
      List.append_assoc, List.singleton_append]

theorem log_offsetsFrom {start : Nat} {done : List Nat} {is : List Instruction}
    (short : ∀ i ∈ is, WithinDigits digitLimit i.body.integers) :
    (offsetsFrom start done is).log =
      List.zipWith placement (addressesFrom start is) is := by
  induction is generalizing start done with
  | nil => rfl
  | cons i rest ih =>
    obtain ⟨first, rest⟩ := List.forall_mem_cons.mp short
    have text : (Traced.lift i.body.text : Traced Oversized String).result =
        .ok i.body.fullText := by
      rw [Traced.result_lift, Body.text_eq, showing_of_short first]
    rw [offsetsFrom, Traced.bind_of_ok text, Traced.bind_of_ok rfl, ih rest]
    rfl

/-- Addresses are given out if no body shows too long a number. -/
theorem result_offsets (p : Program) : p.offsets.result = showing p.bodyIntegers p.addresses :=
  result_offsetsFrom 0 [] p.instructions

theorem offsets_eq_ok_iff {p : Program} {os : List Nat} :
    p.offsets.result = .ok os ↔ WithinDigits digitLimit p.bodyIntegers ∧ p.addresses = os := by
  rw [result_offsets, showing_eq_ok_iff]

/-- Each address is reported, in order, with the body that goes there. -/
theorem log_offsets {p : Program} (short : WithinDigits digitLimit p.bodyIntegers) :
    p.offsets.log = List.zipWith placement p.addresses p.instructions :=
  log_offsetsFrom (withinDigits_bodyIntegers.mp short)

theorem map_snd_placed (p : Program) : p.placed.map Prod.snd = p.instructions :=
  List.map_snd_zip (Nat.le_of_eq p.length_addresses.symm)

theorem length_placed (p : Program) : p.placed.length = p.length := by
  simp only [length, ← p.map_snd_placed, List.length_map]

theorem size_cons (i : Instruction) (is : List Instruction) :
    size ⟨i :: is⟩ = i.size + size ⟨is⟩ := rfl

theorem le_of_mem_addressesFrom {start offset : Nat} {is : List Instruction}
    (h : offset ∈ addressesFrom start is) : offset ≤ start + size ⟨is⟩ := by
  induction is generalizing start with
  | nil => exact absurd h List.not_mem_nil
  | cons i rest ih =>
    rw [size_cons]
    rcases List.mem_cons.mp h with rfl | later
    · omega
    · have bound := ih later
      omega

theorem le_size_of_mem_placed {p : Program} {offset : Nat} {i : Instruction}
    (h : (offset, i) ∈ p.placed) : offset ≤ p.size := by
  have bound := le_of_mem_addressesFrom (List.of_mem_zip h).1
  rwa [Nat.zero_add] at bound

theorem size_congr {is js : List Instruction}
    (same : List.Forall₂ (fun i j => i.size = j.size) is js) : size ⟨is⟩ = size ⟨js⟩ := by
  induction same with
  | nil => rfl
  | cons first _ ih => rw [size_cons, size_cons, first, ih]

theorem offsetsFrom_congr {is js : List Instruction}
    (same : List.Forall₂ (fun i j => i.body = j.body) is js) (start : Nat) (done : List Nat) :
    offsetsFrom start done is = offsetsFrom start done js := by
  induction same generalizing start done with
  | nil => rfl
  | cons first _ ih => simp only [offsetsFrom, Instruction.size, first, ih]

/-- The bodies determine the addresses, the reports on them, and whether they can be given out. -/
theorem offsets_congr {p q : Program}
    (same : List.Forall₂ (fun i j => i.body = j.body) p.instructions q.instructions) :
    p.offsets = q.offsets :=
  offsetsFrom_congr same 0 []

end CairoAsm.Program
