import CairoAsm.Entity
import CairoAsm.Proofs.Integers
import CairoAsm.Proofs.Lists
import CairoAsm.Proofs.Traced

namespace CairoAsm

/-- An object of the named class. -/
def Json.IsA (v : Json) (name : String) : Prop := v.field? "Class" = some (.str name)

namespace Json

theorem field?_obj (fields : Fields) (key : String) :
    (obj fields).field? key = fields.lookup key := rfl

theorem get_eq_ok_iff {v w : Json} {key : String} : v.get key = .ok w ↔ v.field? key = some w := by
  unfold get field?
  split
  · split
    · rename_i found
      simp [found]
    · rename_i missing
      simp [missing]
  · simp

theorem getInt_eq_ok_iff {v : Json} {key : String} {n : Int} :
    v.getInt key = .ok n ↔ v.field? key = some (.int n) := by
  simp only [getInt, bind_eq_ok_iff, get_eq_ok_iff]
  constructor
  · rintro ⟨w, found, read⟩
    split at read
    · cases read
      exact found
    · cases read
  · intro found
    exact ⟨_, found, rfl⟩

theorem getBool_eq_ok_iff {v : Json} {key : String} {b : Bool} :
    v.getBool key = .ok b ↔ v.field? key = some (.bool b) := by
  simp only [getBool, bind_eq_ok_iff, get_eq_ok_iff]
  constructor
  · rintro ⟨w, found, read⟩
    split at read
    · cases read
      exact found
    · cases read
  · intro found
    exact ⟨_, found, rfl⟩

theorem getCell_eq_ok_iff {v : Json} {key : String} {c : Cell} :
    v.getCell key = .ok c ↔ ∃ w, v.field? key = some w ∧ Cell.ofJson w = .ok c := by
  simp only [getCell, bind_eq_ok_iff, get_eq_ok_iff]

theorem getAtom_eq_ok_iff {v : Json} {key : String} {a : Atom} :
    v.getAtom key = .ok a ↔ ∃ w, v.field? key = some w ∧ Atom.ofJson w = .ok a := by
  simp only [getAtom, bind_eq_ok_iff, get_eq_ok_iff]

theorem getOperand_eq_ok_iff {v : Json} {key : String} {o : Operand} :
    v.getOperand key = .ok o ↔ ∃ w, v.field? key = some w ∧ Operand.ofJson w = .ok o := by
  simp only [getOperand, bind_eq_ok_iff, get_eq_ok_iff]

end Json

theorem Register.ofJson_eq_ok_iff {v : Json} {r : Register} :
    Register.ofJson v = .ok r ↔ v = .str r.name := by
  cases v with
  | str s =>
    simp only [Register.ofJson, Register.ofJson?, Json.str.injEq, ← ofName?_eq_some_iff]
    cases ofName? s <;> simp
  | _ => simp [Register.ofJson, Register.ofJson?]

theorem Operation.ofJson_eq_ok_iff {v : Json} {op : Operation} :
    Operation.ofJson v = .ok op ↔ v = .str op.symbol := by
  cases v with
  | str s =>
    simp only [Operation.ofJson, Operation.ofJson?, Json.str.injEq, ← ofSymbol?_eq_some_iff]
    cases ofSymbol? s <;> simp
  | _ => simp [Operation.ofJson, Operation.ofJson?]

theorem Cell.ofJson_eq_ok_iff {v : Json} {c : Cell} :
    Cell.ofJson v = .ok c ↔ v.IsA "CellRef" ∧ v.field? "Register" = some (.str c.register.name) ∧
      v.field? "Offset" = some (.int c.offset) := by
  simp only [Cell.ofJson, bind_eq_ok_iff, Json.get_eq_ok_iff]
  constructor
  · rintro ⟨name, named, read⟩
    split at read
    · obtain ⟨w, hw, read⟩ := bind_eq_ok_iff.mp read
      obtain ⟨r, hr, read⟩ := bind_eq_ok_iff.mp read
      obtain ⟨n, hn, read⟩ := bind_eq_ok_iff.mp read
      cases read
      rw [Json.get_eq_ok_iff, Register.ofJson_eq_ok_iff.mp hr] at hw
      exact ⟨named, hw, Json.getInt_eq_ok_iff.mp hn⟩
    · cases read
  · rintro ⟨named, register, offset⟩
    refine ⟨_, named, ?_⟩
    simp only [Json.get_eq_ok_iff.mpr register, Json.getInt_eq_ok_iff.mpr offset]
    cases c with | mk r n => cases r <;> rfl

/-- The fields of data give an atom. -/
def Atom.ReadFrom (v : Json) : Atom → Prop
  | .cell c => Cell.ofJson v = .ok c
  | .immediate n => v.IsA "Immediate" ∧ v.field? "Value" = some (.int n)

theorem Atom.ofJson_eq_ok_iff {v : Json} {a : Atom} :
    Atom.ofJson v = .ok a ↔ a.ReadFrom v := by
  constructor
  · intro read
    obtain ⟨name, named, read⟩ := bind_eq_ok_iff.mp read
    split at read
    · obtain ⟨c, hc, read⟩ := bind_eq_ok_iff.mp read
      cases read
      exact hc
    · obtain ⟨n, hn, read⟩ := bind_eq_ok_iff.mp read
      cases read
      exact ⟨Json.get_eq_ok_iff.mp named, Json.getInt_eq_ok_iff.mp hn⟩
    · cases read
  · intro described
    cases a with
    | cell c =>
      have named := (Cell.ofJson_eq_ok_iff.mp described).1
      have described : Cell.ofJson v = .ok c := described
      simp only [Atom.ofJson, Json.get_eq_ok_iff.mpr named, described]
      rfl
    | immediate n =>
      simp only [Atom.ofJson, Json.get_eq_ok_iff.mpr described.1,
        Json.getInt_eq_ok_iff.mpr described.2]
      rfl

/-- The fields of data give an operand. -/
def Operand.ReadFrom (v : Json) : Operand → Prop
  | .atom a => Atom.ofJson v = .ok a
  | .indirect c n =>
    v.IsA "DoubleDeref" ∧ v.getCell "Cell" = .ok c ∧ v.field? "Offset" = some (.int n)
  | .binary op a b =>
    v.IsA "BinOpOperand" ∧ v.field? "Op" = some (.str op.symbol) ∧ v.getAtom "A" = .ok a ∧
      v.getAtom "B" = .ok b

theorem Atom.isA_of_ofJson {v : Json} {a : Atom} (read : Atom.ofJson v = .ok a) :
    v.IsA "CellRef" ∨ v.IsA "Immediate" := by
  rw [Atom.ofJson_eq_ok_iff] at read
  cases a with
  | cell c => exact .inl (Cell.ofJson_eq_ok_iff.mp read).1
  | immediate n => exact .inr read.1

theorem Operand.ofJson_eq_ok_iff {v : Json} {o : Operand} :
    Operand.ofJson v = .ok o ↔ o.ReadFrom v := by
  constructor
  · intro read
    obtain ⟨name, named, read⟩ := bind_eq_ok_iff.mp read
    rw [Json.get_eq_ok_iff] at named
    split at read <;> simp only [bind_eq_ok_iff, pure_eq_ok_iff, throw_eq_ok_iff] at read
    · obtain ⟨a, ha, rfl⟩ := read
      exact ha
    · obtain ⟨a, ha, rfl⟩ := read
      exact ha
    · obtain ⟨w, hw, c, hc, n, hn, rfl⟩ := read
      exact ⟨named, bind_eq_ok_iff.mpr ⟨w, hw, hc⟩, Json.getInt_eq_ok_iff.mp hn⟩
    · obtain ⟨w, hw, op, hop, x, hx, a, ha, y, hy, b, hb, rfl⟩ := read
      rw [Json.get_eq_ok_iff, Operation.ofJson_eq_ok_iff.mp hop] at hw
      exact ⟨named, hw, bind_eq_ok_iff.mpr ⟨x, hx, ha⟩, bind_eq_ok_iff.mpr ⟨y, hy, hb⟩⟩
  · intro described
    cases o with
    | atom a =>
      have read : Atom.ofJson v = .ok a := described
      rcases Atom.isA_of_ofJson read with named | named <;>
        simp only [Operand.ofJson, Json.get_eq_ok_iff.mpr named, read] <;> rfl
    | indirect c n =>
      obtain ⟨named, cell, offset⟩ := described
      obtain ⟨w, hw, hc⟩ := bind_eq_ok_iff.mp cell
      simp only [Operand.ofJson, Json.get_eq_ok_iff.mpr named, ok_bind, hw, hc,
        Json.getInt_eq_ok_iff.mpr offset]
      rfl
    | binary op a b =>
      obtain ⟨named, symbol, left, right⟩ := described
      obtain ⟨x, hx, ha⟩ := bind_eq_ok_iff.mp left
      obtain ⟨y, hy, hb⟩ := bind_eq_ok_iff.mp right
      have operation : Operation.ofJson (.str op.symbol) = .ok op :=
        Operation.ofJson_eq_ok_iff.mpr rfl
      simp only [Operand.ofJson, Json.get_eq_ok_iff.mpr named, Json.get_eq_ok_iff.mpr symbol,
        ok_bind, operation, hx, ha, hy, hb]
      rfl

/-- The fields of data give a hint. -/
def Hint.ReadFrom (v : Json) : Hint → Prop
  | .verbatim source => v.IsA "CodeHint" ∧ v.field? "Code" = some (.str source)
  | .allocSegment dst => v.IsA "AllocSegment" ∧ v.getCell "Dst" = .ok dst
  | .lessThan l r dst =>
    v.IsA "TestLessThan" ∧ v.getOperand "Lhs" = .ok l ∧ v.getOperand "Rhs" = .ok r ∧
      v.getCell "Dst" = .ok dst
  | .lessOrEqual l r dst =>
    v.IsA "TestLessThanOrEqual" ∧ v.getOperand "Lhs" = .ok l ∧ v.getOperand "Rhs" = .ok r ∧
      v.getCell "Dst" = .ok dst
  | .divMod l r quotient remainder =>
    v.IsA "DivMod" ∧ v.getOperand "Lhs" = .ok l ∧ v.getOperand "Rhs" = .ok r ∧
      v.getCell "Quotient" = .ok quotient ∧ v.getCell "Remainder" = .ok remainder
  | .squareRoot value dst =>
    v.IsA "SquareRoot" ∧ v.getOperand "Value" = .ok value ∧ v.getCell "Dst" = .ok dst
  | .allocConstantSize size dst =>
    v.IsA "AllocConstantSize" ∧ v.getOperand "Size" = .ok size ∧ v.getCell "Dst" = .ok dst
  | .debugPrint first last =>
    v.IsA "DebugPrint" ∧ v.getOperand "Start" = .ok first ∧ v.getOperand "End" = .ok last

theorem Hint.ofJson_eq_ok_iff {v : Json} {h : Hint} :
    Hint.ofJson v = .ok h ↔ h.ReadFrom v := by
  constructor
  · intro read
    obtain ⟨name, named, read⟩ := bind_eq_ok_iff.mp read
    rw [Json.get_eq_ok_iff] at named
    split at read <;> simp only [bind_eq_ok_iff, pure_eq_ok_iff, throw_eq_ok_iff] at read
    · obtain ⟨w, hw, read⟩ := read
      split at read
      · cases read
        exact ⟨named, Json.get_eq_ok_iff.mp hw⟩
      · cases read
    · obtain ⟨dst, hdst, rfl⟩ := read
      exact ⟨named, hdst⟩
    · obtain ⟨l, hl, r, hr, dst, hdst, rfl⟩ := read
      exact ⟨named, hl, hr, hdst⟩
    · obtain ⟨l, hl, r, hr, dst, hdst, rfl⟩ := read
      exact ⟨named, hl, hr, hdst⟩
    · obtain ⟨l, hl, r, hr, quotient, hq, remainder, hm, rfl⟩ := read
      exact ⟨named, hl, hr, hq, hm⟩
    · obtain ⟨value, hvalue, dst, hdst, rfl⟩ := read
      exact ⟨named, hvalue, hdst⟩
    · obtain ⟨size, hsize, dst, hdst, rfl⟩ := read
      exact ⟨named, hsize, hdst⟩
    · obtain ⟨first, hfirst, last, hlast, rfl⟩ := read
      exact ⟨named, hfirst, hlast⟩
  · intro described
    cases h with
    | verbatim source =>
      obtain ⟨named, hsource⟩ := described
      simp only [Hint.ofJson, Json.get_eq_ok_iff.mpr named, Json.get_eq_ok_iff.mpr hsource]
      rfl
    | allocSegment dst =>
      obtain ⟨named, hdst⟩ := described
      simp only [Hint.ofJson, Json.get_eq_ok_iff.mpr named, hdst]
      rfl
    | lessThan l r dst =>
      obtain ⟨named, hl, hr, hdst⟩ := described
      simp only [Hint.ofJson, Json.get_eq_ok_iff.mpr named, hl, hr, hdst]
      rfl
    | lessOrEqual l r dst =>
      obtain ⟨named, hl, hr, hdst⟩ := described
      simp only [Hint.ofJson, Json.get_eq_ok_iff.mpr named, hl, hr, hdst]
      rfl
    | divMod l r quotient remainder =>
      obtain ⟨named, hl, hr, hq, hm⟩ := described
      simp only [Hint.ofJson, Json.get_eq_ok_iff.mpr named, hl, hr, hq, hm]
      rfl
    | squareRoot value dst =>
      obtain ⟨named, hvalue, hdst⟩ := described
      simp only [Hint.ofJson, Json.get_eq_ok_iff.mpr named, hvalue, hdst]
      rfl
    | allocConstantSize size dst =>
      obtain ⟨named, hsize, hdst⟩ := described
      simp only [Hint.ofJson, Json.get_eq_ok_iff.mpr named, hsize, hdst]
      rfl
    | debugPrint first last =>
      obtain ⟨named, hfirst, hlast⟩ := described
      simp only [Hint.ofJson, Json.get_eq_ok_iff.mpr named, hfirst, hlast]
      rfl

/-- The fields of data give a body. -/
def Body.ReadFrom (v : Json) : Body → Prop
  | .addAp operand => v.IsA "AddAp" ∧ v.getOperand "Operand" = .ok operand
  | .assertEq a b => v.IsA "AssertEq" ∧ v.getCell "A" = .ok a ∧ v.getOperand "B" = .ok b
  | .assertEqQm31 a b => v.IsA "QM31AssertEq" ∧ v.getCell "A" = .ok a ∧ v.getOperand "B" = .ok b
  | .call target relative =>
    v.IsA "Call" ∧ v.getAtom "Target" = .ok target ∧ v.getBool "Relative" = .ok relative
  | .jump target relative =>
    v.IsA "Jump" ∧ v.getAtom "Target" = .ok target ∧ v.getBool "Relative" = .ok relative
  | .jumpNonzero offset condition =>
    v.IsA "Jnz" ∧ v.getAtom "JumpOffset" = .ok offset ∧ v.getCell "Condition" = .ok condition
  | .ret => v.IsA "Ret"
  | .blake2s state byteCount message finalize =>
    v.IsA "Blake2sCompress" ∧ v.getCell "State" = .ok state ∧
      v.getCell "ByteCount" = .ok byteCount ∧ v.getCell "Message" = .ok message ∧
      v.getBool "Finalize" = .ok finalize

theorem Body.ofJson_eq_ok_iff {v : Json} {b : Body} :
    Body.ofJson v = .ok b ↔ b.ReadFrom v := by
  constructor
  · intro read
    obtain ⟨name, named, read⟩ := bind_eq_ok_iff.mp read
    rw [Json.get_eq_ok_iff] at named
    split at read <;> simp only [bind_eq_ok_iff, pure_eq_ok_iff, throw_eq_ok_iff] at read
    · obtain ⟨operand, hoperand, rfl⟩ := read
      exact ⟨named, hoperand⟩
    · obtain ⟨a, ha, b, hb, rfl⟩ := read
      exact ⟨named, ha, hb⟩
    · obtain ⟨a, ha, b, hb, rfl⟩ := read
      exact ⟨named, ha, hb⟩
    · obtain ⟨target, htarget, relative, hrelative, rfl⟩ := read
      exact ⟨named, htarget, hrelative⟩
    · obtain ⟨target, htarget, relative, hrelative, rfl⟩ := read
      exact ⟨named, htarget, hrelative⟩
    · obtain ⟨offset, hoffset, condition, hcondition, rfl⟩ := read
      exact ⟨named, hoffset, hcondition⟩
    · obtain rfl := read
      exact named
    · obtain ⟨state, hs, byteCount, hb, message, hm, finalize, hf, rfl⟩ := read
      exact ⟨named, hs, hb, hm, hf⟩
  · intro described
    cases b with
    | addAp operand =>
      obtain ⟨named, hoperand⟩ := described
      simp only [Body.ofJson, Json.get_eq_ok_iff.mpr named, hoperand]
      rfl
    | assertEq a b =>
      obtain ⟨named, ha, hb⟩ := described
      simp only [Body.ofJson, Json.get_eq_ok_iff.mpr named, ha, hb]
      rfl
    | assertEqQm31 a b =>
      obtain ⟨named, ha, hb⟩ := described
      simp only [Body.ofJson, Json.get_eq_ok_iff.mpr named, ha, hb]
      rfl
    | call target relative =>
      obtain ⟨named, htarget, hrelative⟩ := described
      simp only [Body.ofJson, Json.get_eq_ok_iff.mpr named, htarget, hrelative]
      rfl
    | jump target relative =>
      obtain ⟨named, htarget, hrelative⟩ := described
      simp only [Body.ofJson, Json.get_eq_ok_iff.mpr named, htarget, hrelative]
      rfl
    | jumpNonzero offset condition =>
      obtain ⟨named, hoffset, hcondition⟩ := described
      simp only [Body.ofJson, Json.get_eq_ok_iff.mpr named, hoffset, hcondition]
      rfl
    | ret =>
      have named : v.IsA "Ret" := described
      simp only [Body.ofJson, Json.get_eq_ok_iff.mpr named]
      rfl
    | blake2s state byteCount message finalize =>
      obtain ⟨named, hs, hb, hm, hf⟩ := described
      simp only [Body.ofJson, Json.get_eq_ok_iff.mpr named, hs, hb, hm, hf]
      rfl

namespace Instruction

/-- Hints are a list, and none if nothing is said of them. -/
theorem hintData_eq_ok_iff {v : Json} {items : List Json} :
    hintData v = .ok items ↔
      v.field? "Hints" = some (.arr items) ∨ v.field? "Hints" = none ∧ items = [] := by
  unfold hintData
  split
  · rename_i missing
    simp [missing, eq_comm]
  · rename_i found
    simp [found]
  · rename_i got notList found
    simpa [found] using notList items

theorem incApData_eq_ok_iff {v : Json} {b : Bool} :
    incApData v = .ok b ↔
      v.field? "IncAp" = some (.bool b) ∨ v.field? "IncAp" = none ∧ b = false := by
  unfold incApData
  cases h : v.field? "IncAp" with
  | none => simp [eq_comm]
  | some w => simp [Json.getBool_eq_ok_iff, h]

theorem Draft.ofJson_eq_ok_iff {v : Json} {d : Draft} :
    Draft.ofJson v = .ok d ↔ v.IsA "Instruction" ∧ hintData v = .ok d.hints ∧
      (∃ w, v.field? "Body" = some w ∧ Body.ofJson w = .ok d.body) ∧
      incApData v = .ok d.incAp := by
  constructor
  · intro read
    obtain ⟨name, named, read⟩ := bind_eq_ok_iff.mp read
    rw [Json.get_eq_ok_iff] at named
    split at read <;> simp only [bind_eq_ok_iff, pure_eq_ok_iff, throw_eq_ok_iff] at read
    obtain ⟨hints, hh, w, hw, body, hb, incAp, hi, rfl⟩ := read
    exact ⟨named, hh, ⟨w, Json.get_eq_ok_iff.mp hw, hb⟩, hi⟩
  · rintro ⟨named, hh, ⟨w, hw, hb⟩, hi⟩
    simp only [Draft.ofJson, Json.get_eq_ok_iff.mpr named, ok_bind, hh,
      Json.get_eq_ok_iff.mpr hw, hb, hi]
    rfl

/-- The fields of data give an instruction. -/
def ReadFrom (v : Json) (i : Instruction) : Prop :=
  v.IsA "Instruction" ∧ (∃ w, v.field? "Body" = some w ∧ Body.ofJson w = .ok i.body) ∧
    incApData v = .ok i.incAp ∧
      ∃ items, hintData v = .ok items ∧ items.mapM Hint.ofJson = .ok i.hints

/-- An instruction is created if its body can be written. -/
theorem ofJson_eq_ok_iff {v : Json} {i : Instruction} :
    (ofJson v).result = .ok i ↔ i.ReadFrom v ∧ WithinDigits digitLimit i.body.integers := by
  simp only [ofJson, Traced.result_bind, Traced.result_lift, Traced.result_report,
    Traced.result_pure, bind_eq_ok_iff, mapError_eq_ok_iff, Body.text_eq, showing_eq_ok_iff]
  constructor
  · rintro ⟨d, hd, _, ⟨short, _⟩, _, _, hints, hh, same⟩
    cases same
    obtain ⟨named, items, body, incAp⟩ := Draft.ofJson_eq_ok_iff.mp hd
    exact ⟨⟨named, body, incAp, d.hints, items, hh⟩, short⟩
  · rintro ⟨⟨named, body, incAp, items, found, hh⟩, short⟩
    exact ⟨⟨i.body, i.incAp, items⟩, Draft.ofJson_eq_ok_iff.mpr ⟨named, found, body, incAp⟩,
      i.body.fullText, ⟨short, rfl⟩, (), trivial, i.hints, hh, rfl⟩

end Instruction

namespace Program

theorem instructionData_eq_ok_iff {v : Json} {items : List Json} :
    instructionData v = .ok items ↔
      v = .arr items ∨ v.IsA "CasmProgram" ∧ v.field? "Instructions" = some (.arr items) := by
  unfold instructionData
  split
  · rename_i listed
    simp [Json.IsA, Json.field?]
  · rename_i notList
    constructor
    · intro read
      obtain ⟨name, named, read⟩ := bind_eq_ok_iff.mp read
      rw [Json.get_eq_ok_iff] at named
      split at read
      · obtain ⟨w, hw, read⟩ := bind_eq_ok_iff.mp read
        split at read
        · cases read
          exact .inr ⟨named, Json.get_eq_ok_iff.mp hw⟩
        · cases read
      · cases read
    · rintro (bare | ⟨named, found⟩)
      · exact absurd bare (notList items)
      · simp only [Json.get_eq_ok_iff.mpr named, Json.get_eq_ok_iff.mpr found]
        rfl

theorem ofJson_eq_ok_iff {v : Json} {p : Program} :
    (ofJson v).result = .ok p ↔ ∃ items, instructionData v = .ok items ∧
      items.mapM (fun w => (Instruction.ofJson w).result) = .ok p.instructions := by
  simp only [ofJson, Traced.result_bind, Traced.result_lift, Traced.result_pure,
    Traced.result_mapM, bind_eq_ok_iff, mapError_eq_ok_iff]
  constructor
  · rintro ⟨items, found, instructions, read, same⟩
    cases same
    exact ⟨items, found, read⟩
  · rintro ⟨items, found, read⟩
    exact ⟨items, found, p.instructions, read, rfl⟩

/-- The fields of data give a program. -/
def ReadFrom (v : Json) (p : Program) : Prop :=
  ∃ items, instructionData v = .ok items ∧
    List.Forall₂ Instruction.ReadFrom items p.instructions

/-- A program is read if the bodies of all its instructions can be written. -/
theorem ofJson_eq_ok_iff_readFrom {v : Json} {p : Program} :
    (ofJson v).result = .ok p ↔
      p.ReadFrom v ∧ ∀ i ∈ p.instructions, WithinDigits digitLimit i.body.integers := by
  simp only [ofJson_eq_ok_iff, mapM_eq_ok_iff, Instruction.ofJson_eq_ok_iff,
    forall₂_and_right_iff, ReadFrom]
  constructor
  · rintro ⟨items, listed, each, short⟩
    exact ⟨⟨items, listed, each⟩, short⟩
  · rintro ⟨⟨items, listed, each⟩, short⟩
    exact ⟨items, listed, each, short⟩

end Program

namespace Entity
variable {x : Except Fault α} {f : α → Entity} {e : Entity}

theorem imported_eq_ok_iff :
    ((imported x).map f).result = .ok e ↔ ∃ a, x = .ok a ∧ f a = e := by
  simp only [imported, Traced.result_map, Traced.result_lift, map_eq_ok_iff, mapError_eq_ok_iff]

end Entity
end CairoAsm
