import CairoAsm.Proofs.Program
import CairoAsm.Proofs.Schema.Reading

/-!
Export and import. What a part exports is read back as the same part, as long as the bodies can be
written that an import reports, so an import can be repeated on its own export without a change.
-/
namespace CairoAsm

theorem Cell.ofJson_toJson (c : Cell) : Cell.ofJson c.toJson = .ok c :=
  Cell.ofJson_eq_ok_iff.mpr ⟨rfl, rfl, rfl⟩

theorem Atom.ofJson_toJson (a : Atom) : Atom.ofJson a.toJson = .ok a := by
  rw [Atom.ofJson_eq_ok_iff]
  cases a with
  | cell c => exact c.ofJson_toJson
  | immediate n => exact ⟨rfl, rfl⟩

namespace Json
variable {v : Json} {key : String}

theorem getCell_toJson {c : Cell} (found : v.field? key = some c.toJson) :
    v.getCell key = .ok c :=
  getCell_eq_ok_iff.mpr ⟨c.toJson, found, c.ofJson_toJson⟩

theorem getAtom_toJson {a : Atom} (found : v.field? key = some a.toJson) :
    v.getAtom key = .ok a :=
  getAtom_eq_ok_iff.mpr ⟨a.toJson, found, a.ofJson_toJson⟩

end Json

theorem Operand.ofJson_toJson (o : Operand) : Operand.ofJson o.toJson = .ok o := by
  rw [Operand.ofJson_eq_ok_iff]
  cases o with
  | atom a => exact a.ofJson_toJson
  | indirect c n => exact ⟨rfl, Json.getCell_toJson rfl, rfl⟩
  | binary op a b => exact ⟨rfl, rfl, Json.getAtom_toJson rfl, Json.getAtom_toJson rfl⟩

theorem Json.getOperand_toJson {v : Json} {key : String} {o : Operand}
    (found : v.field? key = some o.toJson) : v.getOperand key = .ok o :=
  getOperand_eq_ok_iff.mpr ⟨o.toJson, found, o.ofJson_toJson⟩

open Json (getCell_toJson getAtom_toJson getOperand_toJson getBool_eq_ok_iff)

theorem Hint.ofJson_toJson (h : Hint) : Hint.ofJson h.toJson = .ok h := by
  rw [Hint.ofJson_eq_ok_iff]
  cases h with
  | verbatim source => exact ⟨rfl, rfl⟩
  | allocSegment dst => exact ⟨rfl, getCell_toJson rfl⟩
  | lessThan l r dst =>
    exact ⟨rfl, getOperand_toJson rfl, getOperand_toJson rfl, getCell_toJson rfl⟩
  | lessOrEqual l r dst =>
    exact ⟨rfl, getOperand_toJson rfl, getOperand_toJson rfl, getCell_toJson rfl⟩
  | divMod l r quotient remainder =>
    exact ⟨rfl, getOperand_toJson rfl, getOperand_toJson rfl, getCell_toJson rfl,
      getCell_toJson rfl⟩
  | squareRoot value dst => exact ⟨rfl, getOperand_toJson rfl, getCell_toJson rfl⟩
  | allocConstantSize size dst => exact ⟨rfl, getOperand_toJson rfl, getCell_toJson rfl⟩
  | debugPrint first last => exact ⟨rfl, getOperand_toJson rfl, getOperand_toJson rfl⟩

theorem Body.ofJson_toJson (b : Body) : Body.ofJson b.toJson = .ok b := by
  rw [Body.ofJson_eq_ok_iff]
  cases b with
  | addAp operand => exact ⟨rfl, getOperand_toJson rfl⟩
  | assertEq a b => exact ⟨rfl, getCell_toJson rfl, getOperand_toJson rfl⟩
  | assertEqQm31 a b => exact ⟨rfl, getCell_toJson rfl, getOperand_toJson rfl⟩
  | call target relative => exact ⟨rfl, getAtom_toJson rfl, getBool_eq_ok_iff.mpr rfl⟩
  | jump target relative => exact ⟨rfl, getAtom_toJson rfl, getBool_eq_ok_iff.mpr rfl⟩
  | jumpNonzero offset condition => exact ⟨rfl, getAtom_toJson rfl, getCell_toJson rfl⟩
  | ret => exact rfl
  | blake2s state byteCount message finalize =>
    exact ⟨rfl, getCell_toJson rfl, getCell_toJson rfl, getCell_toJson rfl,
      getBool_eq_ok_iff.mpr rfl⟩

/-- Reading a list item by item undoes a map of which each item can be read back. -/
theorem mapM_map_of_forall (f : α → Except ε β) (g : β → α) (back : ∀ y, f (g y) = .ok y)
    (ys : List β) : (ys.map g).mapM f = .ok ys := by
  rw [mapM_eq_ok_iff, List.forall₂_map_left_iff]
  exact List.forall₂_same.mpr fun y _ => back y

theorem Instruction.readFrom_toJson (i : Instruction) : i.ReadFrom i.toJson :=
  ⟨rfl, ⟨i.body.toJson, rfl, i.body.ofJson_toJson⟩, incApData_eq_ok_iff.mpr (.inl rfl),
    i.hints.map Hint.toJson, hintData_eq_ok_iff.mpr (.inl rfl),
    mapM_map_of_forall Hint.ofJson Hint.toJson Hint.ofJson_toJson i.hints⟩

theorem Instruction.ofJson_toJson_iff (i : Instruction) :
    (Instruction.ofJson i.toJson).result = .ok i ↔ WithinDigits digitLimit i.body.integers := by
  rw [Instruction.ofJson_eq_ok_iff, and_iff_right i.readFrom_toJson]

theorem Program.readFrom_toJson (p : Program) : p.ReadFrom p.toJson := by
  refine ⟨_, instructionData_eq_ok_iff.mpr (.inr ⟨rfl, rfl⟩), ?_⟩
  rw [List.forall₂_map_left_iff, List.forall₂_same]
  exact fun i _ => i.readFrom_toJson

theorem Program.ofJson_toJson_iff (p : Program) :
    (Program.ofJson p.toJson).result = .ok p ↔ WithinDigits digitLimit p.bodyIntegers := by
  rw [ofJson_eq_ok_iff_readFrom, and_iff_right p.readFrom_toJson, withinDigits_bodyIntegers]

/-- What was imported is imported once more from its export. -/
theorem Entity.ofJson_toJson_of_ofJson {kind : Kind} {v : Json} {e : Entity}
    (read : (Entity.ofJson kind v).result = .ok e) :
    (Entity.ofJson kind e.toJson).result = .ok e := by
  cases kind with
  | cell =>
    obtain ⟨c, _, rfl⟩ := imported_eq_ok_iff.mp read
    exact imported_eq_ok_iff.mpr ⟨c, c.ofJson_toJson, rfl⟩
  | atom =>
    obtain ⟨a, _, rfl⟩ := imported_eq_ok_iff.mp read
    exact imported_eq_ok_iff.mpr ⟨a, a.ofJson_toJson, rfl⟩
  | operand =>
    obtain ⟨o, _, rfl⟩ := imported_eq_ok_iff.mp read
    exact imported_eq_ok_iff.mpr ⟨o, o.ofJson_toJson, rfl⟩
  | hint =>
    obtain ⟨h, _, rfl⟩ := imported_eq_ok_iff.mp read
    exact imported_eq_ok_iff.mpr ⟨h, h.ofJson_toJson, rfl⟩
  | body =>
    obtain ⟨b, _, rfl⟩ := imported_eq_ok_iff.mp read
    exact imported_eq_ok_iff.mpr ⟨b, b.ofJson_toJson, rfl⟩
  | instruction =>
    obtain ⟨i, created, rfl⟩ := map_eq_ok_iff.mp read
    have short := (Instruction.ofJson_eq_ok_iff.mp created).2
    exact map_eq_ok_iff.mpr ⟨i, i.ofJson_toJson_iff.mpr short, rfl⟩
  | program =>
    obtain ⟨p, imported, rfl⟩ := map_eq_ok_iff.mp read
    have short := (Program.ofJson_eq_ok_iff_readFrom.mp imported).2
    exact map_eq_ok_iff.mpr
      ⟨p, p.ofJson_toJson_iff.mpr (Program.withinDigits_bodyIntegers.mpr short), rfl⟩

/-- Each part of a program is read back from its export, instructions and programs exactly if no
body shows a number of more digits than can be written. Any data that describes a part can be
replaced by the export of that part: it describes the same part, and exports the same data. -/
theorem export_import_identity :
    (∀ c : Cell, Cell.ofJson c.toJson = .ok c) ∧
    (∀ a : Atom, Atom.ofJson a.toJson = .ok a) ∧
    (∀ o : Operand, Operand.ofJson o.toJson = .ok o) ∧
    (∀ h : Hint, Hint.ofJson h.toJson = .ok h) ∧
    (∀ b : Body, Body.ofJson b.toJson = .ok b) ∧
    (∀ i : Instruction, (Instruction.ofJson i.toJson).result = .ok i ↔
      WithinDigits digitLimit i.body.integers) ∧
    (∀ p : Program, (Program.ofJson p.toJson).result = .ok p ↔
      WithinDigits digitLimit p.bodyIntegers) ∧
    ∀ (kind : Kind) (v : Json) (e : Entity), (Entity.ofJson kind v).result = .ok e →
      ∃ again, (Entity.ofJson kind e.toJson).result = .ok again ∧ again = e ∧
        again.toJson = e.toJson := by
  refine ⟨Cell.ofJson_toJson, Atom.ofJson_toJson, Operand.ofJson_toJson, Hint.ofJson_toJson,
    Body.ofJson_toJson, Instruction.ofJson_toJson_iff, Program.ofJson_toJson_iff, ?_⟩
  intro kind v e read
  exact ⟨e, Entity.ofJson_toJson_of_ofJson read, rfl, rfl⟩

/-- A bare list whose instruction says nothing of hints and of `ap` is no export, but describes the
same program as one. -/
theorem export_import_identity_bare_list :
    let data : Json := .arr [.obj [("Body", .obj [("B", .obj [("Value", .int (-7)),
      ("Class", .str "Immediate")]), ("Class", .str "AssertEq"), ("A", .obj [("Offset", .int 3),
      ("Register", .str "fp"), ("Class", .str "CellRef")])]), ("Class", .str "Instruction")]]
    let e : Entity := .program ⟨[⟨.assertEq ⟨.fp, 3⟩ (.atom (.immediate (-7))), false, []⟩]⟩
    (Entity.ofJson .program data).result = .ok e ∧
      ∃ again, (Entity.ofJson .program e.toJson).result = .ok again ∧ again = e ∧
        again.toJson = e.toJson := by
  intro data e
  have read : (Entity.ofJson .program data).result = .ok e := rfl
  obtain ⟨_, _, _, _, _, _, _, repeated⟩ := export_import_identity
  exact ⟨read, repeated .program data e read⟩

/-- The import of an instruction breaks off where it is to report a body that cannot be written. -/
theorem unwritable_instruction_not_read_back :
    let i : Instruction := ⟨.unwritable, false, []⟩
    ¬∃ j, (Instruction.ofJson i.toJson).result = .ok j := by
  rintro i ⟨j, read⟩
  obtain ⟨⟨_, ⟨w, found, body⟩, _⟩, short⟩ := Instruction.ofJson_eq_ok_iff.mp read
  cases found
  have same : Body.unwritable = j.body :=
    Except.ok.inj ((Body.ofJson_toJson .unwritable).symm.trans body)
  exact Body.not_withinDigits_unwritable (same ▸ short)

end CairoAsm
