import CairoAsm.Proofs.Schema.Reading

/-!
The grammar of data: the classes of each kind, the fields of each class in the order in which they
are checked, and what a value has to be to stand in a field. The import accepts exactly the data
that fits the grammar.
-/
namespace CairoAsm

/-- What a value has to be: a plain value, a part of a program, or a list of parts. -/
inductive Content where
  | register
  | integer
  | boolean
  | text
  | operation
  | part (kind : Kind)
  | parts (kind : Kind)

structure Field where
  key : String
  content : Content
  needed : Bool

namespace Field

def required (key : String) (content : Content) : Field := ⟨key, content, true⟩

def optional (key : String) (content : Content) : Field := ⟨key, content, false⟩

end Field

def Kind.classNames : Kind → List String
  | .cell => ["CellRef"]
  | .atom => ["CellRef", "Immediate"]
  | .operand => ["CellRef", "Immediate", "DoubleDeref", "BinOpOperand"]
  | .hint => ["CodeHint", "AllocSegment", "TestLessThan", "TestLessThanOrEqual", "DivMod",
      "SquareRoot", "AllocConstantSize", "DebugPrint"]
  | .body => ["AddAp", "AssertEq", "QM31AssertEq", "Call", "Jump", "Jnz", "Ret", "Blake2sCompress"]
  | .instruction => ["Instruction"]
  | .program => ["CasmProgram"]

@[simp] def fieldsOf : String → List Field
  | "CellRef" => [.required "Register" .register, .required "Offset" .integer]
  | "Immediate" => [.required "Value" .integer]
  | "DoubleDeref" => [.required "Cell" (.part .cell), .required "Offset" .integer]
  | "BinOpOperand" =>
    [.required "Op" .operation, .required "A" (.part .atom), .required "B" (.part .atom)]
  | "CodeHint" => [.required "Code" .text]
  | "AllocSegment" => [.required "Dst" (.part .cell)]
  | "TestLessThan" | "TestLessThanOrEqual" =>
    [.required "Lhs" (.part .operand), .required "Rhs" (.part .operand),
      .required "Dst" (.part .cell)]
  | "DivMod" =>
    [.required "Lhs" (.part .operand), .required "Rhs" (.part .operand),
      .required "Quotient" (.part .cell), .required "Remainder" (.part .cell)]
  | "SquareRoot" => [.required "Value" (.part .operand), .required "Dst" (.part .cell)]
  | "AllocConstantSize" => [.required "Size" (.part .operand), .required "Dst" (.part .cell)]
  | "DebugPrint" => [.required "Start" (.part .operand), .required "End" (.part .operand)]
  | "AddAp" => [.required "Operand" (.part .operand)]
  | "AssertEq" | "QM31AssertEq" => [.required "A" (.part .cell), .required "B" (.part .operand)]
  | "Call" | "Jump" => [.required "Target" (.part .atom), .required "Relative" .boolean]
  | "Jnz" => [.required "JumpOffset" (.part .atom), .required "Condition" (.part .cell)]
  | "Blake2sCompress" =>
    [.required "State" (.part .cell), .required "ByteCount" (.part .cell),
      .required "Message" (.part .cell), .required "Finalize" .boolean]
  | "Instruction" =>
    [.optional "Hints" (.parts .hint), .required "Body" (.part .body), .optional "IncAp" .boolean]
  | "CasmProgram" => [.required "Instructions" (.parts .instruction)]
  | _ => []

/-- Data that fits. An object fits a kind by its class, with all fields that are needed and nothing
unfit in the fields it has; a program can be a bare list too. -/
inductive Fits : Content → Json → Prop where
  | register (r : Register) : Fits .register (.str r.name)
  | integer (n : Int) : Fits .integer (.int n)
  | boolean (b : Bool) : Fits .boolean (.bool b)
  | text (s : String) : Fits .text (.str s)
  | operation (op : Operation) : Fits .operation (.str op.symbol)
  | object {kind : Kind} {v : Json} {name : String} (named : v.IsA name)
      (known : name ∈ kind.classNames)
      (present : ∀ f ∈ fieldsOf name, f.needed → v.field? f.key ≠ none)
      (fit : ∀ f ∈ fieldsOf name, ∀ w, v.field? f.key = some w → Fits f.content w) :
      Fits (.part kind) v
  | list {kind : Kind} {items : List Json} (each : ∀ w ∈ items, Fits (.part kind) w) :
      Fits (.parts kind) (.arr items)
  | bare {items : List Json} (each : ∀ w ∈ items, Fits (.part .instruction) w) :
      Fits (.part .program) (.arr items)

/-- A field of an object: a fit value, or nothing if it is not needed. -/
def Field.Held (f : Field) (v : Json) : Prop :=
  (∃ w, v.field? f.key = some w ∧ Fits f.content w) ∨ f.needed = false ∧ v.field? f.key = none

theorem Field.held_iff {f : Field} {v : Json} :
    f.Held v ↔ (f.needed → v.field? f.key ≠ none) ∧
      ∀ w, v.field? f.key = some w → Fits f.content w := by
  cases h : v.field? f.key with
  | none => simp [Held, h]
  | some w => simp [Held, h]

theorem Field.held_required_iff {key : String} {content : Content} {v : Json} :
    (required key content).Held v ↔ ∃ w, v.field? key = some w ∧ Fits content w := by
  simp [Held, required]

theorem fits_part_iff {kind : Kind} {v : Json} :
    Fits (.part kind) v ↔
      (∃ name ∈ kind.classNames, v.IsA name ∧ ∀ f ∈ fieldsOf name, f.Held v) ∨
      kind = .program ∧ ∃ items, v = .arr items ∧ ∀ w ∈ items, Fits (.part .instruction) w := by
  constructor
  · intro fits
    cases fits with
    | object named known present fit =>
      exact .inl ⟨_, known, named, fun f hf => Field.held_iff.mpr ⟨present f hf, fit f hf⟩⟩
    | bare each => exact .inr ⟨rfl, _, rfl, each⟩
  · rintro (⟨name, known, named, held⟩ | ⟨rfl, items, rfl, each⟩)
    · exact .object named known (fun f hf => (Field.held_iff.mp (held f hf)).1)
        fun f hf => (Field.held_iff.mp (held f hf)).2
    · exact .bare each

/-- An object of a class of the kind fits if its fields are as they have to be. -/
theorem fits_part_of_held {kind : Kind} {v : Json} {name : String} (named : v.IsA name)
    (known : name ∈ kind.classNames) (held : ∀ f ∈ fieldsOf name, f.Held v) :
    Fits (.part kind) v :=
  fits_part_iff.mpr (.inl ⟨name, known, named, held⟩)

/-- Only a program can be anything but an object of a class of its kind. -/
theorem held_of_fits_part {kind : Kind} {v : Json} (fits : Fits (.part kind) v)
    (notProgram : kind ≠ .program) :
    ∃ name ∈ kind.classNames, v.IsA name ∧ ∀ f ∈ fieldsOf name, f.Held v :=
  (fits_part_iff.mp fits).resolve_right fun bare => notProgram bare.1

theorem fits_parts_iff {kind : Kind} {v : Json} :
    Fits (.parts kind) v ↔ ∃ items, v = .arr items ∧ ∀ w ∈ items, Fits (.part kind) w := by
  constructor
  · intro fits
    cases fits with
    | list each => exact ⟨_, rfl, each⟩
  · rintro ⟨items, rfl, each⟩
    exact .list each

end CairoAsm
