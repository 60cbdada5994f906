import CairoAsm.Proofs.Schema.Grammar
import CairoAsm.Proofs.Schema.Messages

/-!
The checks of data in the order in which they are made, and those of them that fail. A check looks
at one value; a thorough one goes on to the fields or the items of the value, each to its end before
the next. That the body of an instruction can be written is checked before its single hints are.
-/
namespace CairoAsm

/-- How far a check looks: at a value alone, through all that it holds, or whether the body that it
describes can be written. -/
inductive Look where
  | own
  | thorough
  | report
  deriving DecidableEq

/-- A value in a field of an object of class `owner`, or an item of a list in such a field. -/
structure Check where
  owner : Option String
  field : Field
  value : Option Json
  look : Look

def Kind.otherClass : Kind → Json → Fault
  | .cell => .notCell
  | .atom => .notAtom
  | .operand => .unknownOperand
  | .hint => .unknownHint
  | .body => .unknownBody
  | .instruction => .notInstruction
  | .program => .notProgram

/-- The fault of a value that is no object of a class of the kind, whatever its fields hold. -/
def Kind.fault? (kind : Kind) (v : Json) : Option Fault :=
  match v, kind with
  | .arr _, .program => none
  | .obj fields, _ =>
    match fields.lookup "Class" with
    | none => some (.missing "Class" none)
    | some (.str name) =>
      if name ∈ kind.classNames then none else some (kind.otherClass (.str name))
    | some got => some (kind.otherClass got)
  | v, _ => some (.notObject v)

/-- The fault of a value that is not what a field has to hold. Of lists only that they are lists is
looked at here. -/
def Content.fault? (key : String) : Content → Json → Option Fault
  | .register, .str s =>
    if s = "ap" ∨ s = "fp" then none else some (.unknownRegister (.str s))
  | .register, w => some (.unknownRegister w)
  | .integer, .int _ => none
  | .integer, w => some (.notInteger key w)
  | .boolean, .bool _ => none
  | .boolean, w => some (.notBoolean key w)
  | .text, .str _ => none
  | .text, w => some (.notCode w)
  | .operation, .str s =>
    if s = "+" ∨ s = "*" then none else some (.unknownOperation (.str s))
  | .operation, w => some (.unknownOperation w)
  | .part kind, w => kind.fault? w
  | .parts _, .arr _ => none
  | .parts .hint, w => some (.hintsNotList w)
  | .parts _, _ => some .instructionsNotList

def faultAt (owner : Option String) (field : Field) : Option Json → Option Fault
  | none => if field.needed then some (.missing field.key (owner.map .str)) else none
  | some w => field.content.fault? field.key w

def Kind.otherClassText : Kind → String
  | .cell => "Expected a cell reference, got "
  | .atom => "Expected a cell reference or immediate, got "
  | .operand => "Unsupported operand "
  | .hint => "Unsupported hint "
  | .body => "Unsupported instruction "
  | .instruction => "Expected an instruction, got "
  | .program => "Expected a program, got "

section
variable (unprintable : Char → Bool)

/-- What is said of a value that is no part of a kind, whatever its fields hold. -/
def Kind.complaint (kind : Kind) (v : Json) : Writing String :=
  match v with
  | .obj fields =>
    match fields.lookup "Class" with
    | none => .ok "Missing Class in object"
    | some got => (kind.otherClassText ++ ·) <$> got.plain unprintable
  | v => ("Expected an object, got " ++ ·) <$> v.shown unprintable

def Content.complaint (key : String) : Content → Json → Writing String
  | .register, w => ("Unknown register " ++ ·) <$> w.plain unprintable
  | .integer, w => (key ++ " must be an integer, got " ++ ·) <$> w.shown unprintable
  | .boolean, w => (key ++ " must be a boolean, got " ++ ·) <$> w.shown unprintable
  | .text, w => ("Hint code must be a string, got " ++ ·) <$> w.shown unprintable
  | .operation, w => ("Unsupported operation " ++ ·) <$> w.plain unprintable
  | .part kind, w => kind.complaint unprintable w
  | .parts .hint, w => ("Hints must be a list, got " ++ ·) <$> w.shown unprintable
  | .parts _, _ => .ok "Instructions must be a list"

def complaintAt (owner : Option String) (field : Field) (value : Option Json) : Writing String :=
  match value, owner with
  | none, none => .ok ("Missing " ++ field.key ++ " in object")
  | none, some name => .ok ("Missing " ++ field.key ++ " in " ++ name)
  | some w, _ => field.content.complaint unprintable field.key w

variable {unprintable}

theorem Kind.message_of_fault? {kind : Kind} {v : Json} {f : Fault}
    (fault : kind.fault? v = some f) :
    f.message unprintable = kind.complaint unprintable v := by
  have others (got : Json) : (kind.otherClass got).message unprintable =
      (kind.otherClassText ++ ·) <$> got.plain unprintable := by
    cases kind <;> exact bind_pure_comp _ _
  unfold Kind.fault? at fault
  unfold Kind.complaint
  split at fault
  · cases fault
  · split at fault
    · rename_i missing
      cases fault
      simp only [missing]
      rfl
    · rename_i name found
      split at fault
      · cases fault
      · cases fault
        simp only [found]
        exact others _
    · rename_i got _ found
      cases fault
      simp only [found]
      exact others got
  · rename_i notObject _
    cases fault
    cases v with
    | obj fields => exact absurd rfl (notObject fields)
    | _ => exact bind_pure_comp _ _

theorem Content.message_of_fault? {content : Content} {key : String} {w : Json} {f : Fault}
    (fault : content.fault? key w = some f) :
    f.message unprintable = content.complaint unprintable key w := by
  unfold Content.fault? at fault
  split at fault
  · split at fault <;> cases fault
    exact bind_pure_comp _ _
  · cases fault
    exact bind_pure_comp _ _
  · cases fault
  · cases fault
    exact bind_pure_comp _ _
  · cases fault
  · cases fault
    exact bind_pure_comp _ _
  · cases fault
  · cases fault
    exact bind_pure_comp _ _
  · split at fault <;> cases fault
    exact bind_pure_comp _ _
  · cases fault
    exact bind_pure_comp _ _
  · exact Kind.message_of_fault? fault
  · cases fault
  · cases fault
    exact bind_pure_comp _ _
  · rename_i kind notHint _
    cases fault
    cases kind with
    | hint => exact absurd rfl notHint
    | _ => rfl

/-- The message of a fault is what is said of the value at fault. -/
theorem message_of_faultAt {owner : Option String} {field : Field} {value : Option Json} {f : Fault}
    (fault : faultAt owner field value = some f) :
    f.message unprintable = complaintAt unprintable owner field value := by
  cases value with
  | none =>
    rw [faultAt] at fault
    split at fault
    · cases fault
      cases owner <;> rfl
    · cases fault
  | some w => exact Content.message_of_fault? fault

end

def reportFailure? (w : Json) : Option Failure :=
  match Body.ofJson w with
  | .ok b => if WithinDigits digitLimit b.integers then none else some .oversized
  | .error _ => none

/-- The fields of a class in the order of their checks, and how far these look. The hints of an
instruction are looked at twice: that they are a list comes first, and what they are comes last. -/
def checkOrder : String → List (Field × Look)
  | "Instruction" =>
    [(.optional "Hints" (.parts .hint), .own), (.required "Body" (.part .body), .thorough),
      (.optional "IncAp" .boolean, .thorough), (.required "Body" (.part .body), .report),
      (.optional "Hints" (.parts .hint), .thorough)]
  | name => (fieldsOf name).map fun field => (field, .thorough)

namespace Check

def failure? (c : Check) : Option Failure :=
  match c.look with
  | .report => c.value.bind reportFailure?
  | _ => (faultAt c.owner c.field c.value).map .ofFault

/-- What is said of a failing check; of a body that cannot be written nothing can be said. -/
def complaint (unprintable : Char → Bool) (c : Check) : Writing String :=
  match c.look with
  | .report => .error ⟨⟩
  | _ => complaintAt unprintable c.owner c.field c.value

theorem failure?_cases {c : Check} {e : Failure} (fails : c.failure? = some e) :
    (c.look = .report ∧ e = .oversized) ∨
      c.look ≠ .report ∧ ∃ f, faultAt c.owner c.field c.value = some f ∧ .ofFault f = e := by
  unfold failure? at fails
  split at fails
  · rename_i report
    obtain ⟨w, _, fails⟩ := Option.bind_eq_some_iff.mp fails
    unfold reportFailure? at fails
    split at fails
    · split at fails
      · cases fails
      · exact .inl ⟨report, (Option.some.inj fails).symm⟩
    · cases fails
  · rename_i other
    exact .inr ⟨other, Option.map_eq_some_iff.mp fails⟩

/-- The message of a failure is what is said of the check. -/
theorem message_of_failure? {unprintable : Char → Bool} {c : Check} {e : Failure}
    (fails : c.failure? = some e) : e.message unprintable = c.complaint unprintable := by
  unfold complaint
  rcases failure?_cases fails with ⟨report, rfl⟩ | ⟨other, f, fault, rfl⟩
  · rw [report]
    rfl
  · rw [Failure.message_ofFault, message_of_faultAt fault]
    split
    · rename_i report
      exact absurd report other
    · rfl

theorem exists_told_of_failure? {c : Check} {f : Fault} (fails : c.failure? = some (.fault f))
    (unprintable : Char → Bool) :
    ∃ text, c.complaint unprintable = .ok text ∧ f.Told unprintable text := by
  rcases failure?_cases fails with ⟨_, ⟨⟩⟩ | ⟨_, g, _, kept⟩
  obtain ⟨text, made, told⟩ := Failure.exists_told_of_fault kept unprintable
  exact ⟨text, (message_of_failure? fails).symm.trans made, told⟩

def part (owner : Option String) (key : String) (kind : Kind) (v : Json) : Check :=
  ⟨owner, .required key (.part kind), some v, .thorough⟩

/-- Data as a whole, which stands in no field. -/
def whole (kind : Kind) (v : Json) : Check := part none "" kind v

def ofFields (name : String) (fields : Json.Fields) : List Check :=
  (checkOrder name).map fun (field, look) =>
    ⟨some name, field, fields.lookup field.key, look⟩

def inner (c : Check) : List Check :=
  match c.value, c.field.content with
  | some (.arr items), .parts kind => items.map (part c.owner c.field.key kind)
  | some (.arr items), .part .program => items.map (part c.owner c.field.key .instruction)
  | some (.obj fields), .part _ =>
    match fields.lookup "Class" with
    | some (.str name) => ofFields name fields
    | _ => []
  | _, _ => []

theorem sizeOf_lookup_lt (fields : Json.Fields) (key : String) :
    sizeOf (fields.lookup key) < sizeOf (some (Json.obj fields)) := by
  cases found : fields.lookup key with
  | none =>
    rw [Option.none.sizeOf_spec, Option.some.sizeOf_spec, Json.obj.sizeOf_spec]
    omega
  | some w =>
    obtain ⟨before, after, rfl, _⟩ := List.lookup_eq_some_iff.mp found
    have here : (key, w) ∈ before ++ (key, w) :: after := by simp
    have smaller := List.sizeOf_lt_of_mem here
    simp only [Prod.mk.sizeOf_spec] at smaller
    simp only [Option.some.sizeOf_spec, Json.obj.sizeOf_spec]
    omega

theorem sizeOf_item_lt {items : List Json} {w : Json} (here : w ∈ items) :
    sizeOf (some w) < sizeOf (some (Json.arr items)) := by
  have smaller := List.sizeOf_lt_of_mem here
  simp only [Option.some.sizeOf_spec, Json.arr.sizeOf_spec]
  omega

theorem sizeOf_value_lt {c d : Check} (within : d ∈ c.inner) :
    sizeOf d.value < sizeOf c.value := by
  unfold Check.inner at within
  split at within
  · rename_i list _
    obtain ⟨w, here, rfl⟩ := List.mem_map.mp within
    rw [list]
    exact sizeOf_item_lt here
  · rename_i list _
    obtain ⟨w, here, rfl⟩ := List.mem_map.mp within
    rw [list]
    exact sizeOf_item_lt here
  · rename_i fields _ object _
    split at within
    · obtain ⟨f, _, rfl⟩ := List.mem_map.mp within
      rw [object]
      exact sizeOf_lookup_lt fields f.1.key
    · cases within
  · cases within

end Check

/-- All failing checks in order. Nothing is looked for inside of a value that fails itself. -/
def failing (c : Check) : List Check :=
  if c.failure?.isSome then [c]
  else if c.look = .thorough then c.inner.attach.flatMap fun ⟨d, _⟩ => failing d
  else []
termination_by sizeOf c.value
decreasing_by exact Check.sizeOf_value_lt ‹_›

theorem failing_eq (c : Check) : failing c =
    if c.failure?.isSome then [c]
    else if c.look = .thorough then c.inner.flatMap failing else [] := by
  rw [failing]
  simp only [List.flatMap_subtype, List.unattach_attach]

theorem isSome_failure?_of_mem_failing {c d : Check} (fails : d ∈ failing c) :
    d.failure?.isSome := by
  fun_induction failing c with
  | case1 c own => rwa [List.mem_singleton.mp fails]
  | case2 c own thorough ih =>
    simp only [List.flatMap_subtype, List.unattach_attach, List.mem_flatMap] at fails
    obtain ⟨e, within, fails⟩ := fails
    exact ih e within fails
  | case3 => cases fails

theorem bind_findSome? {f : α → Option β} {g : β → Option γ}
    (kept : ∀ a b, f a = some b → (g b).isSome) (xs : List α) :
    (xs.findSome? f).bind g = xs.findSome? fun a => (f a).bind g := by
  induction xs with
  | nil => rfl
  | cons x xs ih =>
    rw [List.findSome?_cons, List.findSome?_cons]
    cases found : f x with
    | none => exact ih
    | some b =>
      obtain ⟨c, hc⟩ := Option.isSome_iff_exists.mp (kept x b found)
      simp [hc]

namespace Check

def reported (c : Check) : Option Failure := (failing c).head?.bind failure?

theorem reported_eq (c : Check) : c.reported =
    c.failure?.or (if c.look = .thorough then c.inner.findSome? reported else none) := by
  unfold reported
  rw [failing_eq]
  cases own : c.failure? with
  | some f => simp [own]
  | none =>
    by_cases thorough : c.look = .thorough
    · simp only [Option.isSome_none, Bool.false_eq_true, if_false, thorough, if_true,
        Option.none_or, List.head?_flatMap]
      refine bind_findSome? (fun d first fails => ?_) c.inner
      exact isSome_failure?_of_mem_failing (List.mem_of_mem_head? fails)
    · simp [thorough]

theorem reported_of_inner_eq_nil {c : Check} (plain : c.inner = []) : c.reported = c.failure? := by
  rw [reported_eq, plain]
  split <;> simp

end Check
end CairoAsm
