import CairoAsm.Proofs.Schema.Reading

/-!
Cells, atoms and operands take in one another. Data of a class that two of them share is read alike
as both, down to the fault. What is read can be measured, and so can the sides of an operation,
since only atoms are read there.
-/
namespace CairoAsm

theorem Atom.ofJson_of_cellRef {v : Json} (named : v.IsA "CellRef") :
    Atom.ofJson v = (Cell.ofJson v).map .cell := by
  simp only [Atom.ofJson, Json.get_eq_ok_iff.mpr named]
  rfl

theorem Operand.ofJson_of_shared {v : Json} (named : v.IsA "CellRef" ∨ v.IsA "Immediate") :
    Operand.ofJson v = (Atom.ofJson v).map .atom := by
  cases named with
  | inl cell =>
    simp only [Operand.ofJson, Json.get_eq_ok_iff.mpr cell]
    rfl
  | inr immediate =>
    simp only [Operand.ofJson, Json.get_eq_ok_iff.mpr immediate]
    rfl

namespace Entity
variable {v : Json} {x : Entity}

/-- A cell or a constant. -/
def IsAtom (x : Entity) : Prop :=
  (∃ c, x = .operand (.atom (.cell c))) ∨ ∃ n, x = .operand (.atom (.immediate n))

theorem isAtom_iff : x.IsAtom ↔ ∃ a, x = .operand (.atom a) := by
  constructor
  · intro atom
    cases atom with
    | inl cell =>
      obtain ⟨c, same⟩ := cell
      exact ⟨.cell c, same⟩
    | inr immediate =>
      obtain ⟨n, same⟩ := immediate
      exact ⟨.immediate n, same⟩
  · intro atom
    obtain ⟨a, same⟩ := atom
    cases a with
    | cell c => exact .inl ⟨c, same⟩
    | immediate n => exact .inr ⟨n, same⟩

/-- Only atoms are asked for the size of an atom, and it is their size as operands. -/
theorem isAtom_iff_atomSize? : x.IsAtom ↔ x.atomSize? ≠ none := by
  rw [isAtom_iff]
  constructor
  · intro atom
    obtain ⟨a, rfl⟩ := atom
    exact Option.some_ne_none a.size
  · intro sized
    cases x with
    | operand o =>
      cases o with
      | atom a => exact ⟨a, rfl⟩
      | indirect c n => exact absurd rfl sized
      | binary op a b => exact absurd rfl sized
    | _ => exact absurd rfl sized

theorem operandSize?_of_isAtom (atom : x.IsAtom) : x.atomSize? = x.operandSize? := by
  obtain ⟨a, rfl⟩ := isAtom_iff.mp atom
  rfl

theorem result_atom_of_cellRef (named : v.IsA "CellRef") :
    (ofJson .atom v).result = (ofJson .cell v).result := by
  simp only [ofJson, Atom.ofJson_of_cellRef named]
  cases Cell.ofJson v <;> rfl

theorem result_operand_of_shared (named : v.IsA "CellRef" ∨ v.IsA "Immediate") :
    (ofJson .operand v).result = (ofJson .atom v).result := by
  simp only [ofJson, Operand.ofJson_of_shared named]
  cases Atom.ofJson v <;> rfl

theorem result_atom_of_cell (read : (ofJson .cell v).result = .ok x) :
    (ofJson .atom v).result = .ok x := by
  obtain ⟨c, hc, _⟩ := imported_eq_ok_iff.mp read
  rw [result_atom_of_cellRef (Cell.ofJson_eq_ok_iff.mp hc).1]
  exact read

theorem result_operand_of_atom (read : (ofJson .atom v).result = .ok x) :
    (ofJson .operand v).result = .ok x := by
  obtain ⟨a, ha, _⟩ := imported_eq_ok_iff.mp read
  rw [result_operand_of_shared (Atom.isA_of_ofJson ha)]
  exact read

theorem exists_atom_iff (read : (ofJson .operand v).result = .ok x) :
    (∃ y, (ofJson .atom v).result = .ok y) ↔ x.IsAtom := by
  rw [isAtom_iff]
  constructor
  · intro narrow
    obtain ⟨y, read'⟩ := narrow
    obtain ⟨a, _, rfl⟩ := imported_eq_ok_iff.mp read'
    cases read.symm.trans (result_operand_of_atom read')
    exact ⟨a, rfl⟩
  · intro atom
    obtain ⟨a, rfl⟩ := atom
    obtain ⟨o, ho, same⟩ := imported_eq_ok_iff.mp read
    cases same
    exact ⟨_, imported_eq_ok_iff.mpr ⟨a, Operand.ofJson_eq_ok_iff.mp ho, rfl⟩⟩

/-- A side of an operation is read as an atom, so nothing that is asked of it is out of place. -/
structure Side (v : Json) (key : String) (a : Atom) : Prop where
  read : ∃ w, v.field? key = some w ∧ (ofJson .atom w).result = .ok (.operand (.atom a))
  size : (Entity.operand (.atom a)).atomSize? ≠ none
  form : (Entity.operand (.atom a)).integerForm? ≠ none

/-- The size and the integer form of what is read from data. Those of an operation come from its
sides: the size from the right one alone, the form from both. -/
structure Measured (v : Json) (x : Entity) : Prop where
  size : x.operandSize? ≠ none
  form : x.integerForm? ≠ none
  sides : ∀ op a b, x = .operand (.binary op a b) → Side v "A" a ∧ Side v "B" b
  rightSize : ∀ op a b, x = .operand (.binary op a b) →
    x.operandSize? = (Entity.operand (.atom b)).atomSize?
  bothForms : ∀ op a b, x = .operand (.binary op a b) →
    ∃ s t, (Entity.operand (.atom a)).integerForm? = some s ∧
      (Entity.operand (.atom b)).integerForm? = some t ∧
      x.integerForm? =
        some (do return "(" ++ (← s) ++ " " ++ op.symbol ++ " " ++ (← t) ++ ") % PRIME")

theorem side_of_getAtom {key : String} {a : Atom} (read : v.getAtom key = .ok a) :
    Side v key a := by
  obtain ⟨w, found, ha⟩ := Json.getAtom_eq_ok_iff.mp read
  exact ⟨⟨w, found, imported_eq_ok_iff.mpr ⟨a, ha, rfl⟩⟩, Option.some_ne_none _,
    Option.some_ne_none _⟩

theorem measured_of_operand (read : (ofJson .operand v).result = .ok x) : Measured v x := by
  obtain ⟨o, ho, rfl⟩ := imported_eq_ok_iff.mp read
  refine ⟨Option.some_ne_none _, Option.some_ne_none _, ?_, ?_, ?_⟩
  · intro op a b same
    cases same
    obtain ⟨_, _, left, right⟩ := Operand.ofJson_eq_ok_iff.mp ho
    exact ⟨side_of_getAtom left, side_of_getAtom right⟩
  · intro op a b same
    cases same
    rfl
  · intro op a b same
    cases same
    exact ⟨a.integerForm, b.integerForm, rfl, rfl, rfl⟩

/-- Each reader of operands extends the narrower ones, with what it reads and with its faults, and
an operand is an atom exactly if it is asked for no more than an atom has. -/
theorem operand_readers_nested (v : Json) :
    (∀ x, (ofJson .cell v).result = .ok x →
      (ofJson .atom v).result = .ok x ∧ (ofJson .operand v).result = .ok x) ∧
    (∀ x, (ofJson .atom v).result = .ok x → (ofJson .operand v).result = .ok x) ∧
    (∀ x, (ofJson .operand v).result = .ok x →
      ((∃ y, (ofJson .atom v).result = .ok y) ↔ x.IsAtom) ∧ (x.IsAtom ↔ x.atomSize? ≠ none) ∧
      (x.IsAtom → x.atomSize? = x.operandSize?)) ∧
    (v.IsA "CellRef" → (ofJson .cell v).result = (ofJson .atom v).result ∧
      (ofJson .atom v).result = (ofJson .operand v).result) ∧
    (v.IsA "Immediate" → (ofJson .atom v).result = (ofJson .operand v).result) ∧
    ∀ kind ∈ [Kind.cell, .atom, .operand], ∀ x, (ofJson kind v).result = .ok x → Measured v x := by
  refine ⟨?_, ?_, ?_, ?_, ?_, ?_⟩
  · intro x read
    have atom := result_atom_of_cell read
    exact ⟨atom, result_operand_of_atom atom⟩
  · intro x read
    exact result_operand_of_atom read
  · intro x read
    exact ⟨exists_atom_iff read, isAtom_iff_atomSize?, operandSize?_of_isAtom⟩
  · intro named
    exact ⟨(result_atom_of_cellRef named).symm, (result_operand_of_shared (.inl named)).symm⟩
  · intro named
    exact (result_operand_of_shared (.inr named)).symm
  · intro kind listed x read
    apply measured_of_operand
    cases kind with
    | cell => exact result_operand_of_atom (result_atom_of_cell read)
    | atom => exact result_operand_of_atom read
    | operand => exact read
    | _ => simp at listed

/-- A fault that two readers share, and an operation that is no atom. -/
theorem operand_readers_nested_operation :
    let flag : Json := .obj [("Value", .bool true), ("Class", .str "Immediate")]
    let seven : Json := .obj [("Class", .str "Immediate"), ("Value", .int 7)]
    let top : Json := .obj [("Class", .str "CellRef"), ("Register", .str "ap"), ("Offset", .int 0)]
    let sum : Json :=
      .obj [("Class", .str "BinOpOperand"), ("Op", .str "+"), ("A", seven), ("B", top)]
    let x : Entity := .operand (.binary .add (.immediate 7) (.cell ⟨.ap, 0⟩))
    flag.IsA "Immediate" ∧
      (ofJson .atom flag).result = (ofJson .operand flag).result ∧
      (ofJson .operand flag).result = .error (.fault (.notInteger "Value" (.bool true))) ∧
      (ofJson .operand sum).result = .ok x ∧ Measured sum x ∧ x.operandSize? = some 1 ∧
      ¬ ∃ y, (ofJson .atom sum).result = .ok y := by
  intro flag seven top sum x
  have read : (ofJson .operand sum).result = .ok x := rfl
  obtain ⟨_, _, _, _, shared, _⟩ := operand_readers_nested flag
  obtain ⟨_, _, wide, _, _, measured⟩ := operand_readers_nested sum
  have whole := measured .operand (by decide) x read
  have narrow : ¬ ∃ y, (ofJson .atom sum).result = .ok y := by
    obtain ⟨atoms, sized, _⟩ := wide x read
    rw [atoms, sized]
    exact absurd rfl
  exact ⟨rfl, shared rfl, rfl, read, whole, rfl, narrow⟩

end Entity
end CairoAsm
