import CairoAsm.Proofs.Integers
import CairoAsm.Proofs.Json.WrittenForm
import CairoAsm.Schema.Export

namespace CairoAsm

variable {limit room : Nat}

namespace Json

theorem restorable_classObject {name : String} {fields : Fields} :
    (classObject name fields).Restorable limit (room + 1) ↔
      ("Class" :: fields.map Prod.fst).Nodup ∧ RestorableFields limit room fields := by
  simp [classObject, Restorable, RestorableFields]

theorem restorableItems_iff {items : List Json} :
    RestorableItems limit room items ↔ ∀ v ∈ items, v.Restorable limit room := by
  induction items with
  | nil => simp [RestorableItems]
  | cons v items ih => simp [RestorableItems, ih]

end Json

open Json (Restorable RestorableFields restorable_classObject restorableItems_iff)

@[simp] theorem Cell.restorable_toJson {c : Cell} :
    c.toJson.Restorable limit (room + 1) ↔ WithinDigits limit c.integers := by
  simp [toJson, integers, restorable_classObject, Restorable, RestorableFields]

@[simp] theorem Atom.restorable_toJson {a : Atom} :
    a.toJson.Restorable limit (room + 1) ↔ WithinDigits limit a.integers := by
  cases a <;> simp [toJson, integers, restorable_classObject, Restorable, RestorableFields]

@[simp] theorem Operand.restorable_toJson {o : Operand} :
    o.toJson.Restorable limit (room + 2) ↔ WithinDigits limit o.integers := by
  cases o <;> simp [toJson, integers, restorable_classObject, Restorable, RestorableFields]

@[simp] theorem Hint.restorable_toJson {h : Hint} :
    h.toJson.Restorable limit (room + 3) ↔ WithinDigits limit h.integers := by
  cases h <;> simp [toJson, integers, restorable_classObject, Restorable, RestorableFields,
    and_assoc, and_comm, and_left_comm]

@[simp] theorem Body.restorable_toJson {b : Body} :
    b.toJson.Restorable limit (room + 3) ↔ WithinDigits limit b.integers := by
  cases b <;> simp [toJson, integers, restorable_classObject, Restorable, RestorableFields,
    and_comm]

@[simp] theorem Instruction.restorable_toJson {i : Instruction} :
    i.toJson.Restorable limit (room + 5) ↔ WithinDigits limit i.integers := by
  have hints : Json.RestorableItems limit (room + 3) (i.hints.map Hint.toJson) ↔
      WithinDigits limit (i.hints.flatMap Hint.integers) := by
    rw [restorableItems_iff, List.forall_mem_map, withinDigits_flatMap]
    simp only [Hint.restorable_toJson]
  simp [toJson, integers, restorable_classObject, Restorable, RestorableFields, hints, and_comm]

/-- An export can be read back exactly if no number of the program is too long. -/
theorem Program.restorable_toJson {p : Program} :
    p.toJson.Restorable limit (room + 7) ↔ WithinDigits limit p.integers := by
  have instructions :
      Json.RestorableItems limit (room + 5) (p.instructions.map Instruction.toJson) ↔
        WithinDigits limit (p.instructions.flatMap Instruction.integers) := by
    rw [restorableItems_iff, List.forall_mem_map, withinDigits_flatMap]
    simp only [Instruction.restorable_toJson]
  simp [toJson, integers, restorable_classObject, Restorable, RestorableFields, instructions]

end CairoAsm
