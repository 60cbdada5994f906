import CairoAsm.Proofs.Schema.Grammar
import Mathlib.Logic.Relation

/-!
Data whose objects have their fields in another order, or have other fields that no import looks
for, describes the same part of a program.
-/
namespace CairoAsm
namespace Json

/-- No import looks for the key in an object of this class. -/
def Unread (v : Json) (key : String) : Prop :=
  key ≠ "Class" ∧ ∀ name, v.IsA name → ∀ f ∈ fieldsOf name, f.key ≠ key

/-- One change, at any depth, of the order of the fields of an object or of what it holds besides
the fields that are read. -/
inductive Rearrangement : Json → Json → Prop where
  | permute {fields fields' : Fields} (order : fields.Perm fields')
      (distinct : (fields.map Prod.fst).Nodup) : Rearrangement (.obj fields) (.obj fields')
  | insert {before after : Fields} {key : String} {w : Json}
      (unread : (obj (before ++ after)).Unread key) :
      Rearrangement (.obj (before ++ after)) (.obj (before ++ (key, w) :: after))
  | field {before after : Fields} {key : String} {w w' : Json} (inner : Rearrangement w w') :
      Rearrangement (.obj (before ++ (key, w) :: after)) (.obj (before ++ (key, w') :: after))
  | item {before after : List Json} {w w' : Json} (inner : Rearrangement w w') :
      Rearrangement (.arr (before ++ w :: after)) (.arr (before ++ w' :: after))

/-- Any number of such changes, made or taken back. -/
def Rearranged : Json → Json → Prop := Relation.EqvGen Rearrangement

theorem Fields.lookup_eq_of_perm {fields fields' : Fields} (order : fields.Perm fields')
    (distinct : (fields.map Prod.fst).Nodup) (key : String) :
    fields.lookup key = fields'.lookup key := by
  induction order with
  | nil => rfl
  | cons f _ ih =>
    rw [List.lookup_cons, List.lookup_cons, ih (List.nodup_cons.mp distinct).2]
  | swap f g rest =>
    have differ : g.1 ≠ f.1 := by
      have first := (List.nodup_cons.mp distinct).1
      simp only [List.map_cons, List.mem_cons, not_or] at first
      exact first.1
    rw [List.lookup_cons, List.lookup_cons, List.lookup_cons, List.lookup_cons]
    cases isF : key == f.1 with
    | false => rfl
    | true =>
      have notG : (key == g.1) = false := by
        rw [beq_iff_eq.mp isF]
        exact beq_false_of_ne differ.symm
      rw [notG]
  | trans first _ ih₁ ih₂ =>
    exact (ih₁ distinct).trans (ih₂ ((first.map Prod.fst).nodup_iff.mp distinct))

/-- The value itself, unless it holds other values. -/
def scalar? : Json → Option Json
  | .arr _ | .obj _ => none
  | v => some v

/-- Two values that no import can tell apart, as long as it accepts them. -/
structure ReadsAlike (v w : Json) : Prop where
  scalar : v.scalar? = w.scalar?
  cell (c : Cell) : Cell.ofJson v = .ok c ↔ Cell.ofJson w = .ok c
  atom (a : Atom) : Atom.ofJson v = .ok a ↔ Atom.ofJson w = .ok a
  operand (o : Operand) : Operand.ofJson v = .ok o ↔ Operand.ofJson w = .ok o
  hint (h : Hint) : Hint.ofJson v = .ok h ↔ Hint.ofJson w = .ok h
  body (b : Body) : Body.ofJson v = .ok b ↔ Body.ofJson w = .ok b
  instruction (i : Instruction) : i.ReadFrom v ↔ i.ReadFrom w
  program (p : Program) : p.ReadFrom v ↔ p.ReadFrom w
  hints (hs : List Hint) : (∃ items, v = .arr items ∧ items.mapM Hint.ofJson = .ok hs) ↔
    ∃ items, w = .arr items ∧ items.mapM Hint.ofJson = .ok hs
  instructions (is : List Instruction) :
    (∃ items, v = .arr items ∧ List.Forall₂ Instruction.ReadFrom items is) ↔
      ∃ items, w = .arr items ∧ List.Forall₂ Instruction.ReadFrom items is

theorem ReadsAlike.refl (v : Json) : ReadsAlike v v :=
  ⟨rfl, fun _ => .rfl, fun _ => .rfl, fun _ => .rfl, fun _ => .rfl, fun _ => .rfl, fun _ => .rfl,
    fun _ => .rfl, fun _ => .rfl, fun _ => .rfl⟩

theorem ReadsAlike.symm {v w : Json} (h : ReadsAlike v w) : ReadsAlike w v :=
  ⟨h.scalar.symm, fun c => (h.cell c).symm, fun a => (h.atom a).symm, fun o => (h.operand o).symm,
    fun x => (h.hint x).symm, fun b => (h.body b).symm, fun i => (h.instruction i).symm,
    fun p => (h.program p).symm, fun hs => (h.hints hs).symm, fun is => (h.instructions is).symm⟩

theorem ReadsAlike.trans {u v w : Json} (h : ReadsAlike u v) (k : ReadsAlike v w) :
    ReadsAlike u w :=
  ⟨h.scalar.trans k.scalar, fun c => (h.cell c).trans (k.cell c),
    fun a => (h.atom a).trans (k.atom a),
    fun o => (h.operand o).trans (k.operand o), fun x => (h.hint x).trans (k.hint x),
    fun b => (h.body b).trans (k.body b), fun i => (h.instruction i).trans (k.instruction i),
    fun p => (h.program p).trans (k.program p), fun hs => (h.hints hs).trans (k.hints hs),
    fun is => (h.instructions is).trans (k.instructions is)⟩

theorem scalar?_eq_some {v u : Json} (h : v.scalar? = some u) : v = u := by
  cases v with
  | arr items => cases h
  | obj fields => cases h
  | _ => exact Option.some.inj h

theorem ReadsAlike.eq_iff {v w u : Json} (alike : ReadsAlike v w) (plain : u.scalar? = some u) :
    v = u ↔ w = u := by
  constructor
  · rintro rfl
    exact scalar?_eq_some (alike.scalar.symm.trans plain)
  · rintro rfl
    exact scalar?_eq_some (alike.scalar.trans plain)

/-- Under the key stand values that read alike, or nothing in either. -/
def AlikeAt (v w : Json) (key : String) : Prop :=
  v.field? key = none ∧ w.field? key = none ∨
    ∃ x y, v.field? key = some x ∧ w.field? key = some y ∧ ReadsAlike x y

namespace AlikeAt
variable {v w : Json} {key : String}

theorem of_eq (same : v.field? key = w.field? key) : AlikeAt v w key := by
  cases found : w.field? key with
  | none => exact .inl ⟨same.trans found, found⟩
  | some x => exact .inr ⟨x, x, same.trans found, found, .refl x⟩

theorem none_iff (alike : AlikeAt v w key) : v.field? key = none ↔ w.field? key = none := by
  rcases alike with ⟨hv, hw⟩ | ⟨x, y, hx, hy, _⟩
  · simp [hv, hw]
  · simp [hx, hy]

/-- A condition on the value of a field that does not tell values apart that read alike. -/
theorem exists_iff (alike : AlikeAt v w key) {p : Json → Prop}
    (kept : ∀ x y, ReadsAlike x y → (p x ↔ p y)) :
    (∃ x, v.field? key = some x ∧ p x) ↔ ∃ y, w.field? key = some y ∧ p y := by
  rcases alike with ⟨hv, hw⟩ | ⟨x, y, hx, hy, h⟩
  · simp [hv, hw]
  · simp [hx, hy, kept x y h]

theorem eq_some_iff (alike : AlikeAt v w key) {u : Json} (plain : u.scalar? = some u) :
    v.field? key = some u ↔ w.field? key = some u := by
  have same := alike.exists_iff fun x y h => h.eq_iff plain
  simpa using same

theorem getBool_iff (alike : AlikeAt v w key) {b : Bool} :
    v.getBool key = .ok b ↔ w.getBool key = .ok b := by
  rw [getBool_eq_ok_iff, getBool_eq_ok_iff, alike.eq_some_iff rfl]

theorem getCell_iff (alike : AlikeAt v w key) {c : Cell} :
    v.getCell key = .ok c ↔ w.getCell key = .ok c := by
  rw [getCell_eq_ok_iff, getCell_eq_ok_iff, alike.exists_iff fun x y h => h.cell c]

theorem getAtom_iff (alike : AlikeAt v w key) {a : Atom} :
    v.getAtom key = .ok a ↔ w.getAtom key = .ok a := by
  rw [getAtom_eq_ok_iff, getAtom_eq_ok_iff, alike.exists_iff fun x y h => h.atom a]

theorem getOperand_iff (alike : AlikeAt v w key) {o : Operand} :
    v.getOperand key = .ok o ↔ w.getOperand key = .ok o := by
  rw [getOperand_eq_ok_iff, getOperand_eq_ok_iff, alike.exists_iff fun x y h => h.operand o]

end AlikeAt

/-- Two objects that are alike in all that an import looks for. -/
structure FieldsAlike (v w : Json) : Prop where
  named : AlikeAt v w "Class"
  read {name : String} (named : v.IsA name) :
    (fieldsOf name).Forall fun f => AlikeAt v w f.key

theorem FieldsAlike.of_forall {v w : Json} (alike : ∀ key, AlikeAt v w key) : FieldsAlike v w :=
  ⟨alike "Class", fun _ => List.forall_iff_forall_mem.mpr fun f _ => alike f.key⟩

/-- A class and a condition on its fields. -/
theorem FieldsAlike.isA_and_iff {v w : Json} (alike : FieldsAlike v w) {name : String} {p q : Prop}
    (fields : ((fieldsOf name).Forall fun f => AlikeAt v w f.key) → (p ↔ q)) :
    v.IsA name ∧ p ↔ w.IsA name ∧ q := by
  have same : v.IsA name ↔ w.IsA name := alike.named.eq_some_iff rfl
  rw [← same]
  exact and_congr_right fun named => fields (alike.read named)

end Json

open Json

section
variable {v w : Json}

theorem Cell.ofJson_iff_of_alike (alike : FieldsAlike v w) (c : Cell) :
    Cell.ofJson v = .ok c ↔ Cell.ofJson w = .ok c := by
  rw [Cell.ofJson_eq_ok_iff, Cell.ofJson_eq_ok_iff]
  apply alike.isA_and_iff
  rintro ⟨register, offset⟩
  exact and_congr (register.eq_some_iff rfl) (offset.eq_some_iff rfl)

theorem Atom.ofJson_iff_of_alike (alike : FieldsAlike v w) (a : Atom) :
    Atom.ofJson v = .ok a ↔ Atom.ofJson w = .ok a := by
  rw [Atom.ofJson_eq_ok_iff, Atom.ofJson_eq_ok_iff]
  cases a with
  | cell c => exact Cell.ofJson_iff_of_alike alike c
  | immediate n =>
    apply alike.isA_and_iff
    intro value
    exact value.eq_some_iff rfl

theorem Operand.ofJson_iff_of_alike (alike : FieldsAlike v w) (o : Operand) :
    Operand.ofJson v = .ok o ↔ Operand.ofJson w = .ok o := by
  rw [Operand.ofJson_eq_ok_iff, Operand.ofJson_eq_ok_iff]
  cases o with
  | atom a => exact Atom.ofJson_iff_of_alike alike a
  | indirect c n =>
    apply alike.isA_and_iff
    rintro ⟨cell, offset⟩
    exact and_congr cell.getCell_iff (offset.eq_some_iff rfl)
  | binary op a b =>
    apply alike.isA_and_iff
    rintro ⟨symbol, left, right⟩
    exact and_congr (symbol.eq_some_iff rfl) (and_congr left.getAtom_iff right.getAtom_iff)

theorem Hint.ofJson_iff_of_alike (alike : FieldsAlike v w) (h : Hint) :
    Hint.ofJson v = .ok h ↔ Hint.ofJson w = .ok h := by
  rw [Hint.ofJson_eq_ok_iff, Hint.ofJson_eq_ok_iff]
  cases h with
  | verbatim source =>
    apply alike.isA_and_iff
    intro only
    exact only.eq_some_iff rfl
  | allocSegment dst =>
    apply alike.isA_and_iff
    intro only
    exact only.getCell_iff
  | lessThan l r dst =>
    apply alike.isA_and_iff
    rintro ⟨lhs, rhs, dst⟩
    exact and_congr lhs.getOperand_iff (and_congr rhs.getOperand_iff dst.getCell_iff)
  | lessOrEqual l r dst =>
    apply alike.isA_and_iff
    rintro ⟨lhs, rhs, dst⟩
    exact and_congr lhs.getOperand_iff (and_congr rhs.getOperand_iff dst.getCell_iff)
  | divMod l r quotient remainder =>
    apply alike.isA_and_iff
    rintro ⟨lhs, rhs, quotient, remainder⟩
    exact and_congr lhs.getOperand_iff
      (and_congr rhs.getOperand_iff (and_congr quotient.getCell_iff remainder.getCell_iff))
  | squareRoot value dst =>
    apply alike.isA_and_iff
    rintro ⟨value, dst⟩
    exact and_congr value.getOperand_iff dst.getCell_iff
  | allocConstantSize size dst =>
    apply alike.isA_and_iff
    rintro ⟨size, dst⟩
    exact and_congr size.getOperand_iff dst.getCell_iff
  | debugPrint first last =>
    apply alike.isA_and_iff
    rintro ⟨first, last⟩
    exact and_congr first.getOperand_iff last.getOperand_iff

theorem Body.ofJson_iff_of_alike (alike : FieldsAlike v w) (b : Body) :
    Body.ofJson v = .ok b ↔ Body.ofJson w = .ok b := by
  rw [Body.ofJson_eq_ok_iff, Body.ofJson_eq_ok_iff]
  cases b with
  | addAp operand =>
    apply alike.isA_and_iff
    intro operand
    exact operand.getOperand_iff
  | assertEq a b =>
    apply alike.isA_and_iff
    rintro ⟨a, b⟩
    exact and_congr a.getCell_iff b.getOperand_iff
  | assertEqQm31 a b =>
    apply alike.isA_and_iff
    rintro ⟨a, b⟩
    exact and_congr a.getCell_iff b.getOperand_iff
  | call target relative =>
    apply alike.isA_and_iff
    rintro ⟨target, relative⟩
    exact and_congr target.getAtom_iff relative.getBool_iff
  | jump target relative =>
    apply alike.isA_and_iff
    rintro ⟨target, relative⟩
    exact and_congr target.getAtom_iff relative.getBool_iff
  | jumpNonzero offset condition =>
    apply alike.isA_and_iff
    rintro ⟨offset, condition⟩
    exact and_congr offset.getAtom_iff condition.getCell_iff
  | ret => exact alike.named.eq_some_iff rfl
  | blake2s state byteCount message finalize =>
    apply alike.isA_and_iff
    rintro ⟨state, byteCount, message, finalize⟩
    exact and_congr state.getCell_iff
      (and_congr byteCount.getCell_iff (and_congr message.getCell_iff finalize.getBool_iff))

namespace Instruction

theorem incApData_iff_of_alike (alike : AlikeAt v w "IncAp") (b : Bool) :
    incApData v = .ok b ↔ incApData w = .ok b := by
  rw [incApData_eq_ok_iff, incApData_eq_ok_iff, alike.eq_some_iff rfl, alike.none_iff]

/-- Hints that are read one by one from the list of them, or none if there is no list. -/
theorem exists_hintData_iff {hs : List Hint} :
    (∃ items, hintData v = .ok items ∧ items.mapM Hint.ofJson = .ok hs) ↔
      (∃ x, v.field? "Hints" = some x ∧ ∃ items, x = .arr items ∧ items.mapM Hint.ofJson = .ok hs) ∨
        v.field? "Hints" = none ∧ hs = [] := by
  constructor
  · rintro ⟨items, listed, read⟩
    rcases hintData_eq_ok_iff.mp listed with found | ⟨missing, rfl⟩
    · exact .inl ⟨_, found, items, rfl, read⟩
    · exact .inr ⟨missing, by cases read; rfl⟩
  · rintro (⟨_, found, items, rfl, read⟩ | ⟨missing, rfl⟩)
    · exact ⟨items, hintData_eq_ok_iff.mpr (.inl found), read⟩
    · exact ⟨[], hintData_eq_ok_iff.mpr (.inr ⟨missing, rfl⟩), rfl⟩

theorem readFrom_iff_of_alike (alike : FieldsAlike v w) (i : Instruction) :
    i.ReadFrom v ↔ i.ReadFrom w := by
  apply alike.isA_and_iff
  rintro ⟨hints, body, incAp⟩
  refine and_congr (body.exists_iff fun x y h => h.body i.body)
    (and_congr (incApData_iff_of_alike incAp i.incAp) ?_)
  rw [exists_hintData_iff, exists_hintData_iff]
  exact or_congr (hints.exists_iff fun x y h => h.hints i.hints)
    (and_congr_left fun _ => hints.none_iff)

end Instruction

namespace Program

theorem readFrom_iff {p : Program} :
    p.ReadFrom v ↔
      (∃ items, v = .arr items ∧ List.Forall₂ Instruction.ReadFrom items p.instructions) ∨
      v.IsA "CasmProgram" ∧ ∃ x, v.field? "Instructions" = some x ∧ ∃ items, x = .arr items ∧
        List.Forall₂ Instruction.ReadFrom items p.instructions := by
  constructor
  · rintro ⟨items, listed, read⟩
    rcases instructionData_eq_ok_iff.mp listed with bare | ⟨named, found⟩
    · exact .inl ⟨items, bare, read⟩
    · exact .inr ⟨named, _, found, items, rfl, read⟩
  · rintro (⟨items, bare, read⟩ | ⟨named, _, found, items, rfl, read⟩)
    · exact ⟨items, instructionData_eq_ok_iff.mpr (.inl bare), read⟩
    · exact ⟨items, instructionData_eq_ok_iff.mpr (.inr ⟨named, found⟩), read⟩

end Program

namespace Json

/-- Objects read alike if their fields do. -/
theorem ReadsAlike.of_fields {fields fields' : Fields}
    (alike : FieldsAlike (.obj fields) (.obj fields')) :
    ReadsAlike (.obj fields) (.obj fields') where
  scalar := rfl
  cell := Cell.ofJson_iff_of_alike alike
  atom := Atom.ofJson_iff_of_alike alike
  operand := Operand.ofJson_iff_of_alike alike
  hint := Hint.ofJson_iff_of_alike alike
  body := Body.ofJson_iff_of_alike alike
  instruction := Instruction.readFrom_iff_of_alike alike
  program p := by
    rw [Program.readFrom_iff, Program.readFrom_iff]
    refine or_congr (by simp) (alike.isA_and_iff ?_)
    intro instructions
    exact instructions.exists_iff fun x y h => h.instructions p.instructions
  hints hs := by simp
  instructions is := by simp

/-- Lists read alike if no reading of all items tells them apart. -/
theorem ReadsAlike.of_items {items items' : List Json}
    (hints : ∀ hs, items.mapM Hint.ofJson = .ok hs ↔ items'.mapM Hint.ofJson = .ok hs)
    (instructions : ∀ is, List.Forall₂ Instruction.ReadFrom items is ↔
      List.Forall₂ Instruction.ReadFrom items' is) :
    ReadsAlike (.arr items) (.arr items') where
  scalar := rfl
  cell c := iff_of_false (by rintro ⟨⟩) (by rintro ⟨⟩)
  atom a := iff_of_false (by rintro ⟨⟩) (by rintro ⟨⟩)
  operand o := iff_of_false (by rintro ⟨⟩) (by rintro ⟨⟩)
  hint h := iff_of_false (by rintro ⟨⟩) (by rintro ⟨⟩)
  body b := iff_of_false (by rintro ⟨⟩) (by rintro ⟨⟩)
  instruction i := iff_of_false (by rintro ⟨⟨⟩, _⟩) (by rintro ⟨⟨⟩, _⟩)
  program p := by
    rw [Program.readFrom_iff, Program.readFrom_iff]
    refine or_congr ?_ (iff_of_false (by rintro ⟨⟨⟩, _⟩) (by rintro ⟨⟨⟩, _⟩))
    simp [instructions]
  hints hs := by simp [hints]
  instructions is := by simp [instructions]

/-- One item of a list is exchanged for another that is read as the same. -/
theorem forall₂_replace_iff {R : Json → α → Prop} {before after : List Json} {w w' : Json}
    (same : ∀ a, R w a ↔ R w' a) (as : List α) :
    List.Forall₂ R (before ++ w :: after) as ↔ List.Forall₂ R (before ++ w' :: after) as := by
  induction before generalizing as with
  | nil => simp only [List.nil_append, List.forall₂_cons_left_iff, same]
  | cons v before ih => simp only [List.cons_append, List.forall₂_cons_left_iff, ih]

theorem mapM_replace_iff {read : Json → Except Fault α} {before after : List Json} {w w' : Json}
    (same : ∀ a, read w = .ok a ↔ read w' = .ok a) (as : List α) :
    (before ++ w :: after).mapM read = .ok as ↔ (before ++ w' :: after).mapM read = .ok as := by
  rw [mapM_eq_ok_iff, mapM_eq_ok_iff]
  exact forall₂_replace_iff same as

theorem Rearrangement.readsAlike {v w : Json} (change : Rearrangement v w) : ReadsAlike v w := by
  induction change with
  | @permute fields fields' order distinct =>
    have alike (key : String) : AlikeAt (.obj fields) (.obj fields') key :=
      .of_eq (Fields.lookup_eq_of_perm order distinct key)
    exact .of_fields (.of_forall alike)
  | @insert before after key w unread =>
    have alike (k : String) (other : k ≠ key) :
        AlikeAt (.obj (before ++ after)) (.obj (before ++ (key, w) :: after)) k := by
      apply AlikeAt.of_eq
      simp only [field?_obj, List.lookup_append, List.lookup_cons, beq_false_of_ne other]
    obtain ⟨notClass, notRead⟩ := unread
    refine .of_fields ⟨alike "Class" notClass.symm, fun {name} named => ?_⟩
    exact List.forall_iff_forall_mem.mpr fun f listed => alike f.key (notRead name named f listed)
  | @field before after key w w' _ ih =>
    have alike (k : String) :
        AlikeAt (.obj (before ++ (key, w) :: after)) (.obj (before ++ (key, w') :: after)) k := by
      simp only [AlikeAt, field?_obj, List.lookup_append, List.lookup_cons]
      cases before.lookup k with
      | some x => exact .inr ⟨x, x, rfl, rfl, .refl x⟩
      | none =>
        cases k == key with
        | true => exact .inr ⟨w, w', rfl, rfl, ih⟩
        | false => exact AlikeAt.of_eq (v := .obj after) (w := .obj after) rfl
    exact .of_fields (.of_forall alike)
  | item _ ih => exact .of_items (mapM_replace_iff ih.hint) (forall₂_replace_iff ih.instruction)

theorem Rearranged.readsAlike {v w : Json} (changed : Rearranged v w) : ReadsAlike v w := by
  induction changed with
  | rel v w change => exact change.readsAlike
  | refl v => exact .refl v
  | symm v w _ ih => exact ih.symm
  | trans u v w _ _ ih₁ ih₂ => exact ih₁.trans ih₂

theorem ReadsAlike.entity {v w : Json} (alike : ReadsAlike v w) (kind : Kind) (e : Entity) :
    (Entity.ofJson kind v).result = .ok e ↔ (Entity.ofJson kind w).result = .ok e := by
  cases kind with
  | cell => simp only [Entity.ofJson, Entity.imported_eq_ok_iff, alike.cell]
  | atom => simp only [Entity.ofJson, Entity.imported_eq_ok_iff, alike.atom]
  | operand => simp only [Entity.ofJson, Entity.imported_eq_ok_iff, alike.operand]
  | hint => simp only [Entity.ofJson, Entity.imported_eq_ok_iff, alike.hint]
  | body => simp only [Entity.ofJson, Entity.imported_eq_ok_iff, alike.body]
  | instruction =>
    simp only [Entity.ofJson, Traced.result_map, map_eq_ok_iff, Instruction.ofJson_eq_ok_iff,
      alike.instruction]
  | program =>
    simp only [Entity.ofJson, Traced.result_map, map_eq_ok_iff, Program.ofJson_eq_ok_iff_readFrom,
      alike.program]

end Json

theorem exists_error_iff {x : Except ε α} : (∃ e, x = .error e) ↔ ∀ a, x ≠ .ok a := by
  cases x <;> simp

/-- Rearranged data describes the same part of a program, or neither describes one. -/
theorem rearranged_describes_same {v w : Json} (changed : Rearranged v w) (kind : Kind) :
    (∀ e, (Entity.ofJson kind v).result = .ok e ↔ (Entity.ofJson kind w).result = .ok e) ∧
      ((∃ f, (Entity.ofJson kind v).result = .error f) ↔
        ∃ f, (Entity.ofJson kind w).result = .error f) := by
  have same := changed.readsAlike.entity kind
  refine ⟨same, ?_⟩
  rw [exists_error_iff, exists_error_iff]
  exact forall_congr' fun e => not_congr (same e)

/-- The class last instead of first, and a remark in the body. -/
theorem rearranged_describes_same_remark :
    let operand : Json := .obj [("Class", .str "Immediate"), ("Value", .int 5)]
    let body : Json := .obj [("Class", .str "AddAp"), ("Operand", operand)]
    let remarked : Json :=
      .obj [("Class", .str "AddAp"), ("Remark", .arr [.null]), ("Operand", operand)]
    let v : Json := .arr [.obj [("Class", .str "Instruction"), ("Body", body)]]
    let w : Json := .arr [.obj [("Body", remarked), ("Class", .str "Instruction")]]
    let e : Entity := .program ⟨[⟨.addAp (.atom (.immediate 5)), false, []⟩]⟩
    Rearranged v w ∧ (Entity.ofJson .program v).result = .ok e ∧
      (Entity.ofJson .program w).result = .ok e := by
  intro operand body remarked v w e
  have reordered : Rearrangement v (.arr [.obj [("Body", body), ("Class", .str "Instruction")]]) :=
    @Rearrangement.item [] [] _ _ (.permute (.swap _ _ _) (by decide))
  have unread : (Json.obj [("Class", .str "AddAp"), ("Operand", operand)]).Unread "Remark" := by
    refine ⟨by decide, ?_⟩
    rintro name ⟨⟩ f listed
    obtain rfl : f = .required "Operand" (.part .operand) := List.mem_singleton.mp listed
    decide
  have added : Rearrangement (.arr [.obj [("Body", body), ("Class", .str "Instruction")]]) w :=
    @Rearrangement.item [] [] _ _
      (@Rearrangement.field [] _ _ _ _
        (@Rearrangement.insert [("Class", .str "AddAp")] _ _ _ unread))
  have changed : Rearranged v w := .trans _ _ _ (.rel _ _ reordered) (.rel _ _ added)
  have read : (Entity.ofJson .program v).result = .ok e := rfl
  exact ⟨changed, read, ((rearranged_describes_same changed .program).1 e).mp read⟩

end
end CairoAsm
