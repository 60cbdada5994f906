import CairoAsm.Proofs.Schema.Grammar
import CairoAsm.Proofs.Schema.RoundTrip

/-!
The import of each kind accepts exactly the data that fits the grammar, as long as the bodies can be
written that it reports. The proof goes up from plain values to cells, atoms, operands, hints and
bodies, instructions and programs.
-/
namespace CairoAsm

section
variable {v w : Json} {key : String} {content : Content}

theorem fits_register_iff : Fits .register w ↔ ∃ r : Register, w = .str r.name := by
  constructor
  · rintro ⟨r⟩
    exact ⟨r, rfl⟩
  · rintro ⟨r, rfl⟩
    exact .register r

theorem fits_integer_iff : Fits .integer w ↔ ∃ n, w = .int n := by
  constructor
  · intro fits
    cases fits with
    | integer n => exact ⟨n, rfl⟩
  · rintro ⟨n, rfl⟩
    exact .integer n

theorem fits_boolean_iff : Fits .boolean w ↔ ∃ b, w = .bool b := by
  constructor
  · intro fits
    cases fits with
    | boolean b => exact ⟨b, rfl⟩
  · rintro ⟨b, rfl⟩
    exact .boolean b

theorem fits_text_iff : Fits .text w ↔ ∃ s, w = .str s := by
  constructor
  · intro fits
    cases fits with
    | text s => exact ⟨s, rfl⟩
  · rintro ⟨s, rfl⟩
    exact .text s

theorem fits_operation_iff : Fits .operation w ↔ ∃ op : Operation, w = .str op.symbol := by
  constructor
  · intro fits
    cases fits with
    | operation op => exact ⟨op, rfl⟩
  · rintro ⟨op, rfl⟩
    exact .operation op

/-- A field of plain values of one form is held if it has one. -/
theorem Field.held_plain_iff {form : α → Json} (fits : ∀ w, Fits content w ↔ ∃ x, w = form x) :
    (required key content).Held v ↔ ∃ x, v.field? key = some (form x) := by
  simp only [held_required_iff, fits]
  constructor
  · rintro ⟨_, found, x, rfl⟩
    exact ⟨x, found⟩
  · rintro ⟨x, found⟩
    exact ⟨_, found, x, rfl⟩

/-- A field that a reader goes on to is held if the reader accepts its value. -/
theorem Field.held_read_iff {read : Json → Except Fault α}
    (accepted : ∀ w, (∃ x, read w = .ok x) ↔ Fits content w) :
    (required key content).Held v ↔ ∃ x, v.get key >>= read = .ok x := by
  simp only [held_required_iff, bind_eq_ok_iff, Json.get_eq_ok_iff, ← accepted]
  constructor
  · rintro ⟨w, found, x, hx⟩
    exact ⟨x, w, found, hx⟩
  · rintro ⟨x, w, found, hx⟩
    exact ⟨w, found, x, hx⟩

theorem Field.held_register_iff :
    (required key .register).Held v ↔ ∃ r : Register, v.field? key = some (.str r.name) :=
  held_plain_iff fun _ => fits_register_iff

theorem Field.held_integer_iff :
    (required key .integer).Held v ↔ ∃ n, v.field? key = some (.int n) :=
  held_plain_iff fun _ => fits_integer_iff

theorem Field.held_boolean_iff :
    (required key .boolean).Held v ↔ ∃ b, v.getBool key = .ok b := by
  simp only [Json.getBool_eq_ok_iff, held_plain_iff fun _ => fits_boolean_iff]

theorem Field.held_text_iff : (required key .text).Held v ↔ ∃ s, v.field? key = some (.str s) :=
  held_plain_iff fun _ => fits_text_iff

theorem Field.held_operation_iff :
    (required key .operation).Held v ↔
      ∃ op : Operation, v.field? key = some (.str op.symbol) :=
  held_plain_iff fun _ => fits_operation_iff

end

theorem Cell.accepted_iff {v : Json} : (∃ c, Cell.ofJson v = .ok c) ↔ Fits (.part .cell) v := by
  constructor
  · rintro ⟨c, read⟩
    obtain ⟨named, register, offset⟩ := Cell.ofJson_eq_ok_iff.mp read
    apply fits_part_of_held named (by decide)
    simp only [fieldsOf, List.forall_mem_cons, Field.held_register_iff, Field.held_integer_iff]
    exact ⟨⟨_, register⟩, ⟨_, offset⟩, List.forall_mem_nil _⟩
  · intro fits
    obtain ⟨name, known, named, held⟩ := held_of_fits_part fits (by decide)
    obtain rfl := List.mem_singleton.mp known
    simp only [fieldsOf, List.forall_mem_cons, Field.held_register_iff,
      Field.held_integer_iff] at held
    obtain ⟨⟨r, register⟩, ⟨n, offset⟩, _⟩ := held
    exact ⟨⟨r, n⟩, Cell.ofJson_eq_ok_iff.mpr ⟨named, register, offset⟩⟩

theorem Field.held_cell_iff {v : Json} {key : String} :
    (required key (.part .cell)).Held v ↔ ∃ c, v.getCell key = .ok c :=
  held_read_iff fun _ => Cell.accepted_iff

theorem Atom.accepted_iff {v : Json} : (∃ a, Atom.ofJson v = .ok a) ↔ Fits (.part .atom) v := by
  constructor
  · rintro ⟨a, read⟩
    rw [Atom.ofJson_eq_ok_iff] at read
    cases a with
    | cell c =>
      have fits := Cell.accepted_iff.mp ⟨c, read⟩
      obtain ⟨name, known, named, held⟩ := held_of_fits_part fits (by decide)
      obtain rfl := List.mem_singleton.mp known
      exact fits_part_of_held named (by decide) held
    | immediate n =>
      apply fits_part_of_held read.1 (by decide)
      simp only [fieldsOf, List.forall_mem_cons, Field.held_integer_iff]
      exact ⟨⟨n, read.2⟩, List.forall_mem_nil _⟩
  · intro fits
    obtain ⟨name, known, named, held⟩ := held_of_fits_part fits (by decide)
    simp only [Kind.classNames, List.mem_cons, List.not_mem_nil, or_false] at known
    rcases known with rfl | rfl
    · obtain ⟨c, read⟩ := Cell.accepted_iff.mpr (fits_part_of_held named (by decide) held)
      exact ⟨.cell c, Atom.ofJson_eq_ok_iff.mpr read⟩
    · simp only [fieldsOf, List.forall_mem_cons, Field.held_integer_iff] at held
      obtain ⟨⟨n, value⟩, _⟩ := held
      exact ⟨.immediate n, Atom.ofJson_eq_ok_iff.mpr ⟨named, value⟩⟩

theorem Field.held_atom_iff {v : Json} {key : String} :
    (required key (.part .atom)).Held v ↔ ∃ a, v.getAtom key = .ok a :=
  held_read_iff fun _ => Atom.accepted_iff

theorem Operand.accepted_iff {v : Json} :
    (∃ o, Operand.ofJson v = .ok o) ↔ Fits (.part .operand) v := by
  constructor
  · rintro ⟨o, read⟩
    rw [Operand.ofJson_eq_ok_iff] at read
    cases o with
    | atom a =>
      have fits := Atom.accepted_iff.mp ⟨a, read⟩
      obtain ⟨name, known, named, held⟩ := held_of_fits_part fits (by decide)
      have wider := List.mem_append_left ["DoubleDeref", "BinOpOperand"] known
      exact fits_part_of_held named wider held
    | indirect c n =>
      obtain ⟨named, cell, offset⟩ := read
      apply fits_part_of_held named (by decide)
      simp only [fieldsOf, List.forall_mem_cons, Field.held_cell_iff, Field.held_integer_iff]
      exact ⟨⟨c, cell⟩, ⟨n, offset⟩, List.forall_mem_nil _⟩
    | binary op a b =>
      obtain ⟨named, symbol, left, right⟩ := read
      apply fits_part_of_held named (by decide)
      simp only [fieldsOf, List.forall_mem_cons, Field.held_operation_iff, Field.held_atom_iff]
      exact ⟨⟨op, symbol⟩, ⟨a, left⟩, ⟨b, right⟩, List.forall_mem_nil _⟩
  · intro fits
    obtain ⟨name, known, named, held⟩ := held_of_fits_part fits (by decide)
    simp only [Kind.classNames, List.mem_cons, List.not_mem_nil, or_false] at known
    rcases known with rfl | rfl | rfl | rfl
    · obtain ⟨a, read⟩ := Atom.accepted_iff.mpr (fits_part_of_held named (by decide) held)
      exact ⟨.atom a, Operand.ofJson_eq_ok_iff.mpr read⟩
    · obtain ⟨a, read⟩ := Atom.accepted_iff.mpr (fits_part_of_held named (by decide) held)
      exact ⟨.atom a, Operand.ofJson_eq_ok_iff.mpr read⟩
    · simp only [fieldsOf, List.forall_mem_cons, Field.held_cell_iff,
        Field.held_integer_iff] at held
      obtain ⟨⟨c, cell⟩, ⟨n, offset⟩, _⟩ := held
      exact ⟨.indirect c n, Operand.ofJson_eq_ok_iff.mpr ⟨named, cell, offset⟩⟩
    · simp only [fieldsOf, List.forall_mem_cons, Field.held_operation_iff,
        Field.held_atom_iff] at held
      obtain ⟨⟨op, symbol⟩, ⟨a, left⟩, ⟨b, right⟩, _⟩ := held
      exact ⟨.binary op a b, Operand.ofJson_eq_ok_iff.mpr ⟨named, symbol, left, right⟩⟩

theorem Field.held_operand_iff {v : Json} {key : String} :
    (required key (.part .operand)).Held v ↔ ∃ o, v.getOperand key = .ok o :=
  held_read_iff fun _ => Operand.accepted_iff

theorem Hint.accepted_iff {v : Json} : (∃ h, Hint.ofJson v = .ok h) ↔ Fits (.part .hint) v := by
  constructor
  · rintro ⟨h, read⟩
    rw [Hint.ofJson_eq_ok_iff] at read
    cases h with
    | verbatim source =>
      obtain ⟨named, hsource⟩ := read
      apply fits_part_of_held named (by decide)
      simp only [fieldsOf, List.forall_mem_cons, Field.held_text_iff]
      exact ⟨⟨source, hsource⟩, List.forall_mem_nil _⟩
    | allocSegment dst =>
      obtain ⟨named, hdst⟩ := read
      apply fits_part_of_held named (by decide)
      simp only [fieldsOf, List.forall_mem_cons, Field.held_cell_iff]
      exact ⟨⟨dst, hdst⟩, List.forall_mem_nil _⟩
    | lessThan l r dst =>
      obtain ⟨named, hl, hr, hdst⟩ := read
      apply fits_part_of_held named (by decide)
      simp only [fieldsOf, List.forall_mem_cons, Field.held_operand_iff, Field.held_cell_iff]
      exact ⟨⟨l, hl⟩, ⟨r, hr⟩, ⟨dst, hdst⟩, List.forall_mem_nil _⟩
    | lessOrEqual l r dst =>
      obtain ⟨named, hl, hr, hdst⟩ := read
      apply fits_part_of_held named (by decide)
      simp only [fieldsOf, List.forall_mem_cons, Field.held_operand_iff, Field.held_cell_iff]
      exact ⟨⟨l, hl⟩, ⟨r, hr⟩, ⟨dst, hdst⟩, List.forall_mem_nil _⟩
    | divMod l r quotient remainder =>
      obtain ⟨named, hl, hr, hq, hm⟩ := read
      apply fits_part_of_held named (by decide)
      simp only [fieldsOf, List.forall_mem_cons, Field.held_operand_iff, Field.held_cell_iff]
      exact ⟨⟨l, hl⟩, ⟨r, hr⟩, ⟨quotient, hq⟩, ⟨remainder, hm⟩, List.forall_mem_nil _⟩
    | squareRoot value dst =>
      obtain ⟨named, hvalue, hdst⟩ := read
      apply fits_part_of_held named (by decide)
      simp only [fieldsOf, List.forall_mem_cons, Field.held_operand_iff, Field.held_cell_iff]
      exact ⟨⟨value, hvalue⟩, ⟨dst, hdst⟩, List.forall_mem_nil _⟩
    | allocConstantSize size dst =>
      obtain ⟨named, hsize, hdst⟩ := read
      apply fits_part_of_held named (by decide)
      simp only [fieldsOf, List.forall_mem_cons, Field.held_operand_iff, Field.held_cell_iff]
      exact ⟨⟨size, hsize⟩, ⟨dst, hdst⟩, List.forall_mem_nil _⟩
    | debugPrint first last =>
      obtain ⟨named, hfirst, hlast⟩ := read
      apply fits_part_of_held named (by decide)
      simp only [fieldsOf, List.forall_mem_cons, Field.held_operand_iff]
      exact ⟨⟨first, hfirst⟩, ⟨last, hlast⟩, List.forall_mem_nil _⟩
  · intro fits
    obtain ⟨name, known, named, held⟩ := held_of_fits_part fits (by decide)
    simp only [Kind.classNames, List.mem_cons, List.not_mem_nil, or_false] at known
    rcases known with rfl | rfl | rfl | rfl | rfl | rfl | rfl | rfl
    · simp only [fieldsOf, List.forall_mem_cons, Field.held_text_iff] at held
      obtain ⟨⟨source, hsource⟩, _⟩ := held
      exact ⟨.verbatim source, Hint.ofJson_eq_ok_iff.mpr ⟨named, hsource⟩⟩
    · simp only [fieldsOf, List.forall_mem_cons, Field.held_cell_iff] at held
      obtain ⟨⟨dst, hdst⟩, _⟩ := held
      exact ⟨.allocSegment dst, Hint.ofJson_eq_ok_iff.mpr ⟨named, hdst⟩⟩
    · simp only [fieldsOf, List.forall_mem_cons, Field.held_operand_iff,
        Field.held_cell_iff] at held
      obtain ⟨⟨l, hl⟩, ⟨r, hr⟩, ⟨dst, hdst⟩, _⟩ := held
      exact ⟨.lessThan l r dst, Hint.ofJson_eq_ok_iff.mpr ⟨named, hl, hr, hdst⟩⟩
    · simp only [fieldsOf, List.forall_mem_cons, Field.held_operand_iff,
        Field.held_cell_iff] at held
      obtain ⟨⟨l, hl⟩, ⟨r, hr⟩, ⟨dst, hdst⟩, _⟩ := held
      exact ⟨.lessOrEqual l r dst, Hint.ofJson_eq_ok_iff.mpr ⟨named, hl, hr, hdst⟩⟩
    · simp only [fieldsOf, List.forall_mem_cons, Field.held_operand_iff,
        Field.held_cell_iff] at held
      obtain ⟨⟨l, hl⟩, ⟨r, hr⟩, ⟨quotient, hq⟩, ⟨remainder, hm⟩, _⟩ := held
      exact ⟨.divMod l r quotient remainder, Hint.ofJson_eq_ok_iff.mpr ⟨named, hl, hr, hq, hm⟩⟩
    · simp only [fieldsOf, List.forall_mem_cons, Field.held_operand_iff,
        Field.held_cell_iff] at held
      obtain ⟨⟨value, hvalue⟩, ⟨dst, hdst⟩, _⟩ := held
      exact ⟨.squareRoot value dst, Hint.ofJson_eq_ok_iff.mpr ⟨named, hvalue, hdst⟩⟩
    · simp only [fieldsOf, List.forall_mem_cons, Field.held_operand_iff,
        Field.held_cell_iff] at held
      obtain ⟨⟨size, hsize⟩, ⟨dst, hdst⟩, _⟩ := held
      exact ⟨.allocConstantSize size dst, Hint.ofJson_eq_ok_iff.mpr ⟨named, hsize, hdst⟩⟩
    · simp only [fieldsOf, List.forall_mem_cons, Field.held_operand_iff] at held
      obtain ⟨⟨first, hfirst⟩, ⟨last, hlast⟩, _⟩ := held
      exact ⟨.debugPrint first last, Hint.ofJson_eq_ok_iff.mpr ⟨named, hfirst, hlast⟩⟩

theorem Body.accepted_iff {v : Json} : (∃ b, Body.ofJson v = .ok b) ↔ Fits (.part .body) v := by
  constructor
  · rintro ⟨b, read⟩
    rw [Body.ofJson_eq_ok_iff] at read
    cases b with
    | addAp operand =>
      obtain ⟨named, hoperand⟩ := read
      apply fits_part_of_held named (by decide)
      simp only [fieldsOf, List.forall_mem_cons, Field.held_operand_iff]
      exact ⟨⟨operand, hoperand⟩, List.forall_mem_nil _⟩
    | assertEq a b =>
      obtain ⟨named, ha, hb⟩ := read
      apply fits_part_of_held named (by decide)
      simp only [fieldsOf, List.forall_mem_cons, Field.held_cell_iff, Field.held_operand_iff]
      exact ⟨⟨a, ha⟩, ⟨b, hb⟩, List.forall_mem_nil _⟩
    | assertEqQm31 a b =>
      obtain ⟨named, ha, hb⟩ := read
      apply fits_part_of_held named (by decide)
      simp only [fieldsOf, List.forall_mem_cons, Field.held_cell_iff, Field.held_operand_iff]
      exact ⟨⟨a, ha⟩, ⟨b, hb⟩, List.forall_mem_nil _⟩
    | call target relative =>
      obtain ⟨named, htarget, hrelative⟩ := read
      apply fits_part_of_held named (by decide)
      simp only [fieldsOf, List.forall_mem_cons, Field.held_atom_iff, Field.held_boolean_iff]
      exact ⟨⟨target, htarget⟩, ⟨relative, hrelative⟩, List.forall_mem_nil _⟩
    | jump target relative =>
      obtain ⟨named, htarget, hrelative⟩ := read
      apply fits_part_of_held named (by decide)
      simp only [fieldsOf, List.forall_mem_cons, Field.held_atom_iff, Field.held_boolean_iff]
      exact ⟨⟨target, htarget⟩, ⟨relative, hrelative⟩, List.forall_mem_nil _⟩
    | jumpNonzero offset condition =>
      obtain ⟨named, hoffset, hcondition⟩ := read
      apply fits_part_of_held named (by decide)
      simp only [fieldsOf, List.forall_mem_cons, Field.held_atom_iff, Field.held_cell_iff]
      exact ⟨⟨offset, hoffset⟩, ⟨condition, hcondition⟩, List.forall_mem_nil _⟩
    | ret =>
      have named : v.IsA "Ret" := read
      exact fits_part_of_held named (by decide) (List.forall_mem_nil _)
    | blake2s state byteCount message finalize =>
      obtain ⟨named, hs, hb, hm, hf⟩ := read
      apply fits_part_of_held named (by decide)
      simp only [fieldsOf, List.forall_mem_cons, Field.held_cell_iff, Field.held_boolean_iff]
      exact ⟨⟨state, hs⟩, ⟨byteCount, hb⟩, ⟨message, hm⟩, ⟨finalize, hf⟩, List.forall_mem_nil _⟩
  · intro fits
    obtain ⟨name, known, named, held⟩ := held_of_fits_part fits (by decide)
    simp only [Kind.classNames, List.mem_cons, List.not_mem_nil, or_false] at known
    rcases known with rfl | rfl | rfl | rfl | rfl | rfl | rfl | rfl
    · simp only [fieldsOf, List.forall_mem_cons, Field.held_operand_iff] at held
      obtain ⟨⟨operand, hoperand⟩, _⟩ := held
      exact ⟨.addAp operand, Body.ofJson_eq_ok_iff.mpr ⟨named, hoperand⟩⟩
    · simp only [fieldsOf, List.forall_mem_cons, Field.held_cell_iff,
        Field.held_operand_iff] at held
      obtain ⟨⟨a, ha⟩, ⟨b, hb⟩, _⟩ := held
      exact ⟨.assertEq a b, Body.ofJson_eq_ok_iff.mpr ⟨named, ha, hb⟩⟩
    · simp only [fieldsOf, List.forall_mem_cons, Field.held_cell_iff,
        Field.held_operand_iff] at held
      obtain ⟨⟨a, ha⟩, ⟨b, hb⟩, _⟩ := held
      exact ⟨.assertEqQm31 a b, Body.ofJson_eq_ok_iff.mpr ⟨named, ha, hb⟩⟩
    · simp only [fieldsOf, List.forall_mem_cons, Field.held_atom_iff,
        Field.held_boolean_iff] at held
      obtain ⟨⟨target, htarget⟩, ⟨relative, hrelative⟩, _⟩ := held
      exact ⟨.call target relative, Body.ofJson_eq_ok_iff.mpr ⟨named, htarget, hrelative⟩⟩
    · simp only [fieldsOf, List.forall_mem_cons, Field.held_atom_iff,
        Field.held_boolean_iff] at held
      obtain ⟨⟨target, htarget⟩, ⟨relative, hrelative⟩, _⟩ := held
      exact ⟨.jump target relative, Body.ofJson_eq_ok_iff.mpr ⟨named, htarget, hrelative⟩⟩
    · simp only [fieldsOf, List.forall_mem_cons, Field.held_atom_iff, Field.held_cell_iff] at held
      obtain ⟨⟨offset, hoffset⟩, ⟨condition, hcondition⟩, _⟩ := held
      exact ⟨.jumpNonzero offset condition, Body.ofJson_eq_ok_iff.mpr ⟨named, hoffset, hcondition⟩⟩
    · exact ⟨.ret, Body.ofJson_eq_ok_iff.mpr named⟩
    · simp only [fieldsOf, List.forall_mem_cons, Field.held_cell_iff,
        Field.held_boolean_iff] at held
      obtain ⟨⟨state, hs⟩, ⟨byteCount, hb⟩, ⟨message, hm⟩, ⟨finalize, hf⟩, _⟩ := held
      exact ⟨.blake2s state byteCount message finalize,
        Body.ofJson_eq_ok_iff.mpr ⟨named, hs, hb, hm, hf⟩⟩

theorem Instruction.exists_readFrom_iff {v : Json} :
    (∃ i : Instruction, i.ReadFrom v) ↔ Fits (.part .instruction) v := by
  constructor
  · rintro ⟨i, named, body, incAp, items, listed, hints⟩
    have fitHints : ∀ w ∈ items, Fits (.part .hint) w := fun w hw =>
      Hint.accepted_iff.mp (exists_mapM_eq_ok_iff.mp ⟨_, hints⟩ w hw)
    apply fits_part_of_held named (by decide)
    simp only [fieldsOf, List.forall_mem_cons]
    refine ⟨?_, ?_, ?_, List.forall_mem_nil _⟩
    · rcases Instruction.hintData_eq_ok_iff.mp listed with found | ⟨missing, _⟩
      · exact .inl ⟨_, found, .list fitHints⟩
      · exact .inr ⟨rfl, missing⟩
    · obtain ⟨w, found, hw⟩ := body
      exact .inl ⟨w, found, Body.accepted_iff.mp ⟨_, hw⟩⟩
    · rcases Instruction.incApData_eq_ok_iff.mp incAp with found | ⟨missing, _⟩
      · exact .inl ⟨_, found, .boolean _⟩
      · exact .inr ⟨rfl, missing⟩
  · intro fits
    obtain ⟨name, known, named, held⟩ := held_of_fits_part fits (by decide)
    obtain rfl := List.mem_singleton.mp known
    simp only [fieldsOf, List.forall_mem_cons] at held
    obtain ⟨heldHints, heldBody, heldIncAp, _⟩ := held
    have hints : ∃ items, hintData v = .ok items ∧ ∀ w ∈ items, Fits (.part .hint) w := by
      rcases heldHints with ⟨w, found, fit⟩ | ⟨_, missing⟩
      · obtain ⟨items, rfl, each⟩ := fits_parts_iff.mp fit
        exact ⟨items, hintData_eq_ok_iff.mpr (.inl found), each⟩
      · exact ⟨[], hintData_eq_ok_iff.mpr (.inr ⟨missing, rfl⟩), List.forall_mem_nil _⟩
    have body : ∃ w, v.field? "Body" = some w ∧ ∃ b, Body.ofJson w = .ok b := by
      obtain ⟨w, found, fit⟩ := Field.held_required_iff.mp heldBody
      exact ⟨w, found, Body.accepted_iff.mpr fit⟩
    have incAp : ∃ b, incApData v = .ok b := by
      rcases heldIncAp with ⟨w, found, fit⟩ | ⟨_, missing⟩
      · obtain ⟨b, rfl⟩ := fits_boolean_iff.mp fit
        exact ⟨b, incApData_eq_ok_iff.mpr (.inl found)⟩
      · exact ⟨false, incApData_eq_ok_iff.mpr (.inr ⟨missing, rfl⟩)⟩
    obtain ⟨items, listed, each⟩ := hints
    obtain ⟨w, found, b, hb⟩ := body
    obtain ⟨flag, hflag⟩ := incAp
    obtain ⟨hs, hhs⟩ := exists_mapM_eq_ok_iff.mpr fun w hw => Hint.accepted_iff.mpr (each w hw)
    exact ⟨⟨b, flag, hs⟩, named, ⟨w, found, hb⟩, hflag, items, listed, hhs⟩

/-- A body that data describes can be written. -/
def ShortBody (v : Json) : Prop :=
  ∀ w b, v.field? "Body" = some w → Body.ofJson w = .ok b → WithinDigits digitLimit b.integers

theorem Instruction.shortBody_iff {v : Json} {i : Instruction} (described : i.ReadFrom v) :
    ShortBody v ↔ WithinDigits digitLimit i.body.integers := by
  obtain ⟨_, ⟨w, found, body⟩, _⟩ := described
  constructor
  · intro short
    exact short w i.body found body
  · intro short w' b found' body'
    cases found.symm.trans found'
    cases body.symm.trans body'
    exact short

theorem Instruction.accepted_iff {v : Json} :
    (∃ i, (Instruction.ofJson v).result = .ok i) ↔ Fits (.part .instruction) v ∧ ShortBody v := by
  rw [← exists_readFrom_iff]
  constructor
  · rintro ⟨i, read⟩
    obtain ⟨described, short⟩ := ofJson_eq_ok_iff.mp read
    exact ⟨⟨i, described⟩, (shortBody_iff described).mpr short⟩
  · rintro ⟨⟨i, described⟩, short⟩
    exact ⟨i, ofJson_eq_ok_iff.mpr ⟨described, (shortBody_iff described).mp short⟩⟩

/-- The instructions of a program are the items of a list, and each of them fits. -/
theorem Program.fits_iff {v : Json} :
    Fits (.part .program) v ↔
      ∃ items, instructionData v = .ok items ∧ ∀ w ∈ items, Fits (.part .instruction) w := by
  rw [fits_part_iff]
  simp only [instructionData_eq_ok_iff, true_and]
  constructor
  · rintro (⟨name, known, named, held⟩ | ⟨items, bare, each⟩)
    · obtain rfl := List.mem_singleton.mp known
      simp only [fieldsOf, List.forall_mem_cons, Field.held_required_iff] at held
      obtain ⟨⟨w, found, fit⟩, _⟩ := held
      obtain ⟨items, rfl, each⟩ := fits_parts_iff.mp fit
      exact ⟨items, .inr ⟨named, found⟩, each⟩
    · exact ⟨items, .inl bare, each⟩
  · rintro ⟨items, bare | ⟨named, found⟩, each⟩
    · exact .inr ⟨items, bare, each⟩
    · refine .inl ⟨"CasmProgram", by decide, named, ?_⟩
      simp only [fieldsOf, List.forall_mem_cons]
      exact ⟨.inl ⟨_, found, .list each⟩, List.forall_mem_nil _⟩

/-- The bodies of all instructions that data lists can be written. -/
def ShortBodies (v : Json) : Prop :=
  ∀ items, v = .arr items ∨ v.field? "Instructions" = some (.arr items) → ∀ w ∈ items, ShortBody w

theorem Program.shortBodies_iff {v : Json} {items : List Json}
    (listed : instructionData v = .ok items) : ShortBodies v ↔ ∀ w ∈ items, ShortBody w := by
  constructor
  · intro short
    exact short items ((instructionData_eq_ok_iff.mp listed).imp_right And.right)
  · intro short items' listed'
    rcases instructionData_eq_ok_iff.mp listed with rfl | ⟨named, found⟩
    · rcases listed' with same | ⟨⟨⟩⟩
      cases same
      exact short
    · rcases listed' with rfl | found'
      · cases named
      · cases found.symm.trans found'
        exact short

theorem Program.accepted_iff {v : Json} :
    (∃ p, (Program.ofJson v).result = .ok p) ↔ Fits (.part .program) v ∧ ShortBodies v := by
  have read : (∃ p, (Program.ofJson v).result = .ok p) ↔ ∃ items, instructionData v = .ok items ∧
      ∀ w ∈ items, ∃ i, (Instruction.ofJson w).result = .ok i := by
    simp only [ofJson_eq_ok_iff, ← exists_mapM_eq_ok_iff]
    constructor
    · rintro ⟨p, items, listed, created⟩
      exact ⟨items, listed, p.instructions, created⟩
    · rintro ⟨items, listed, is, created⟩
      exact ⟨⟨is⟩, items, listed, created⟩
  simp only [read, Instruction.accepted_iff, Program.fits_iff]
  constructor
  · rintro ⟨items, listed, each⟩
    exact ⟨⟨items, listed, fun w hw => (each w hw).1⟩,
      (shortBodies_iff listed).mpr fun w hw => (each w hw).2⟩
  · rintro ⟨⟨items, listed, each⟩, short⟩
    exact ⟨items, listed, fun w hw => ⟨each w hw, (shortBodies_iff listed).mp short w hw⟩⟩

/-- What an import has to write, besides reading its data: the bodies of all instructions. -/
def Writable : Kind → Json → Prop
  | .instruction, v => ShortBody v
  | .program, v => ShortBodies v
  | _, _ => True

/-- Nothing has to be written where nothing is reported. -/
theorem Entity.exists_imported_iff {x : Except Fault α} {f : α → Entity} {fits : Prop}
    (accepted : (∃ a, x = .ok a) ↔ fits) :
    (∃ e, ((imported x).map f).result = .ok e) ↔ fits ∧ True := by
  rw [and_iff_left trivial, ← accepted]
  simp only [imported_eq_ok_iff]
  exact ⟨fun ⟨_, a, ha, _⟩ => ⟨a, ha⟩, fun ⟨a, ha⟩ => ⟨f a, a, ha, rfl⟩⟩

theorem exists_map_eq_ok_iff {x : Except ε α} {f : α → β} :
    (∃ b, x.map f = .ok b) ↔ ∃ a, x = .ok a := by
  simp only [map_eq_ok_iff]
  exact ⟨fun ⟨_, a, ha, _⟩ => ⟨a, ha⟩, fun ⟨a, ha⟩ => ⟨f a, a, ha, rfl⟩⟩

/-- The import of each kind accepts exactly the data that fits the kind. Data of instructions and
programs is refused as well if a body has too long a number to be reported. -/
theorem accepted_iff_fits (kind : Kind) (v : Json) :
    (∃ e, (Entity.ofJson kind v).result = .ok e) ↔ Fits (.part kind) v ∧ Writable kind v := by
  cases kind with
  | cell => exact Entity.exists_imported_iff Cell.accepted_iff
  | atom => exact Entity.exists_imported_iff Atom.accepted_iff
  | operand => exact Entity.exists_imported_iff Operand.accepted_iff
  | hint => exact Entity.exists_imported_iff Hint.accepted_iff
  | body => exact Entity.exists_imported_iff Body.accepted_iff
  | instruction => exact exists_map_eq_ok_iff.trans Instruction.accepted_iff
  | program => exact exists_map_eq_ok_iff.trans Program.accepted_iff

/-- Data that fits, of an instruction whose body cannot be written. -/
theorem unwritable_instruction_fits :
    let i : Instruction := ⟨.unwritable, false, []⟩
    Fits (.part .instruction) i.toJson ∧
      ¬∃ e, (Entity.ofJson .instruction i.toJson).result = .ok e := by
  intro i
  refine ⟨Instruction.exists_readFrom_iff.mp ⟨i, i.readFrom_toJson⟩, ?_⟩
  rw [accepted_iff_fits]
  rintro ⟨_, short⟩
  exact Body.not_withinDigits_unwritable (short _ _ rfl (Body.ofJson_toJson .unwritable))

end CairoAsm
