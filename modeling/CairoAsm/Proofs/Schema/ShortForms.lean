import CairoAsm.Proofs.Schema.Progress

/-!
Short and full forms of data. A list of instructions stands for a program, and an instruction can
leave out what is understood. Spelling these out changes nothing of an import: not what it gives,
not the fault that ends it, and not what it reports.
-/
namespace CairoAsm

namespace Json
variable {v w : Json} {name key : String}

/-- An object that has a field, at the end if it had none of this key. -/
def withDefault (v : Json) (key : String) (value : Json) : Json :=
  match v with
  | .obj fields => if (fields.lookup key).isSome then v else .obj (fields ++ [(key, value)])
  | _ => v

theorem field?_withDefault (named : v.IsA name) (value : Json) (k : String) :
    (v.withDefault key value).field? k =
      if k = key then some ((v.field? key).getD value) else v.field? k := by
  cases v with
  | obj fields =>
    simp only [withDefault, field?_obj]
    cases found : fields.lookup key with
    | some old =>
      simp only [Option.isSome_some, if_true, field?_obj, Option.getD_some]
      split
      · rename_i same
        rw [same, found]
      · rfl
    | none =>
      simp only [Option.isSome_none, Bool.false_eq_true, if_false, field?_obj, Option.getD_none,
        List.lookup_append, List.lookup_cons, List.lookup_nil]
      by_cases same : k = key
      · simp [same, found]
      · have other : (k == key) = false := beq_false_of_ne same
        simp [same, other]
  | _ => cases named

/-- A fault in looking up a field tells no more than the key and the class. -/
theorem get_eq_of_field? (named : v.IsA name) (named' : w.IsA name)
    (same : v.field? key = w.field? key) : v.get key = w.get key := by
  cases v with
  | obj fields =>
    cases w with
    | obj fields' =>
      have sameClass : fields.lookup "Class" = fields'.lookup "Class" := named.trans named'.symm
      simp only [field?_obj] at same
      simp only [get, same, sameClass]
    | _ => cases named'
  | _ => cases named

end Json

namespace Instruction

/-- Data that says of an instruction what other data says in short. Where it has more fields, they
say what is understood without them. -/
structure SpellsOut (full short : Json) : Prop where
  named : short.IsA "Instruction"
  incAp : full.field? "IncAp" = short.field? "IncAp" ∨
    short.field? "IncAp" = none ∧ full.field? "IncAp" = some (.bool false)
  hints : full.field? "Hints" = short.field? "Hints" ∨
    short.field? "Hints" = none ∧ full.field? "Hints" = some (.arr [])
  others : ∀ key ∉ ["IncAp", "Hints"], full.field? key = short.field? key

/-- The data of an instruction with nothing left out. -/
def completed (v : Json) : Json :=
  (v.withDefault "IncAp" (.bool false)).withDefault "Hints" (.arr [])

variable {v w : Json}

theorem SpellsOut.isA (full : SpellsOut w v) : w.IsA "Instruction" :=
  (full.others "Class" (by decide)).trans full.named

theorem field?_completed (named : v.IsA "Instruction") (key : String) :
    (completed v).field? key =
      if key = "Hints" then some ((v.field? "Hints").getD (.arr []))
      else if key = "IncAp" then some ((v.field? "IncAp").getD (.bool false))
      else v.field? key := by
  have between (k : String) : (v.withDefault "IncAp" (.bool false)).field? k =
      if k = "IncAp" then some ((v.field? "IncAp").getD (.bool false)) else v.field? k :=
    Json.field?_withDefault named _ k
  have stillNamed : (v.withDefault "IncAp" (.bool false)).IsA "Instruction" :=
    (between "Class").trans named
  rw [completed, Json.field?_withDefault stillNamed, between, between]
  simp

theorem spellsOut_completed (named : v.IsA "Instruction") : SpellsOut (completed v) v := by
  have fields := field?_completed named
  refine ⟨named, ?_, ?_, ?_⟩
  · rw [fields]
    cases found : v.field? "IncAp" with
    | none => exact .inr ⟨rfl, rfl⟩
    | some b => exact .inl rfl
  · rw [fields]
    cases found : v.field? "Hints" with
    | none => exact .inr ⟨rfl, rfl⟩
    | some hints => exact .inl rfl
  · intro key other
    simp only [List.mem_cons, List.not_mem_nil, or_false, not_or] at other
    rw [fields, if_neg other.2, if_neg other.1]

theorem hintData_of_spellsOut (full : SpellsOut w v) : hintData w = hintData v := by
  unfold hintData
  cases full.hints with
  | inl same => rw [same]
  | inr added => rw [added.1, added.2]

theorem incApData_of_spellsOut (full : SpellsOut w v) : incApData w = incApData v := by
  unfold incApData
  cases full.incAp with
  | inl same =>
    rw [same, Json.getBool, Json.getBool, Json.get_eq_of_field? full.isA full.named same]
  | inr added =>
    have read : w.getBool "IncAp" = .ok false := Json.getBool_eq_ok_iff.mpr added.2
    rw [added.1, added.2, read]
    rfl

theorem ofJson_of_spellsOut (full : SpellsOut w v) : ofJson w = ofJson v := by
  have body : w.get "Body" = v.get "Body" :=
    Json.get_eq_of_field? full.isA full.named (full.others "Body" (by decide))
  have draft : Draft.ofJson w = Draft.ofJson v := by
    simp only [Draft.ofJson, Json.get_eq_ok_iff.mpr full.isA, Json.get_eq_ok_iff.mpr full.named,
      hintData_of_spellsOut full, incApData_of_spellsOut full, body]
  rw [ofJson, ofJson, draft]

end Instruction

namespace Program

/-- A program in short or in full: a list of instructions, or an object with the list in it. -/
def Lists (v : Json) (items : List Json) : Prop :=
  v = .arr items ∨ v.IsA "CasmProgram" ∧ v.field? "Instructions" = some (.arr items)

theorem ofJson_of_lists {v : Json} {items : List Json} (lists : Lists v items) :
    ofJson v = (items.mapM Instruction.ofJson).map Program.mk :=
  ofJson_of_listed (instructionData_eq_ok_iff.mpr lists)

end Program

section
open Instruction Program

/-- What can be left out of data can be spelled out too, for each instruction by itself, and
reading it takes the same course. -/
theorem short_and_full_forms_alike :
    (∀ v items, v.IsA "CasmProgram" → v.field? "Instructions" = some (.arr items) →
      Program.ofJson v = Program.ofJson (.arr items)) ∧
    (∀ v, v.IsA "Instruction" →
      SpellsOut (completed v) v ∧ Instruction.ofJson (completed v) = Instruction.ofJson v) ∧
    (∀ v w, SpellsOut w v → Instruction.ofJson w = Instruction.ofJson v) ∧
    ∀ v w items items', Lists v items → Lists w items' →
      List.Forall₂ (fun x y => y = x ∨ SpellsOut y x) items items' →
      Program.ofJson w = Program.ofJson v := by
  refine ⟨?_, ?_, ?_, ?_⟩
  · intro v items named found
    rw [ofJson_of_lists (.inr ⟨named, found⟩), ofJson_of_lists (.inl rfl)]
  · intro v named
    have full := spellsOut_completed named
    exact ⟨full, ofJson_of_spellsOut full⟩
  · intro v w full
    exact ofJson_of_spellsOut full
  · intro v w items items' lists lists' alike
    have same : items'.mapM Instruction.ofJson = items.mapM Instruction.ofJson := by
      refine (Traced.mapM_eq_of_forall₂ alike fun x y spelled => ?_).symm
      cases spelled with
      | inl same => rw [same]
      | inr full => exact (ofJson_of_spellsOut full).symm
    rw [ofJson_of_lists lists, ofJson_of_lists lists', same]

/-- A program spelled out in part, with a fault in an instruction that is. -/
theorem short_and_full_forms_alike_faulty :
    let short : Json := .obj [("Class", .str "Instruction"), ("Body", Body.ret.toJson)]
    let faulty : Json := .obj [("Hints", .null), ("Class", .str "Instruction")]
    let items := [short, short, faulty]
    let items' := [completed short, short, completed faulty]
    let full : Json := .obj [("Instructions", .arr items'), ("Class", .str "CasmProgram")]
    short.IsA "Instruction" ∧ faulty.IsA "Instruction" ∧ completed faulty ≠ faulty ∧
      Lists (.arr items) items ∧ Lists full items' ∧
      List.Forall₂ (fun x y => y = x ∨ SpellsOut y x) items items' ∧
      Program.ofJson full = Program.ofJson (.arr items) ∧
      (Program.ofJson full).log = [.created "ret" 0, .created "ret" 0] ∧
      (Program.ofJson full).result = .error (.fault (.hintsNotList .null)) := by
  intro short faulty items items' full
  obtain ⟨_, spelled, _, alike⟩ := short_and_full_forms_alike
  have lists : Lists (.arr items) items := .inl rfl
  have lists' : Lists full items' := .inr ⟨rfl, rfl⟩
  have each : List.Forall₂ (fun x y => y = x ∨ SpellsOut y x) items items' :=
    .cons (.inr (spelled short rfl).1) (.cons (.inl rfl) (.cons (.inr (spelled faulty rfl).1) .nil))
  have different : completed faulty ≠ faulty := by
    intro same
    cases congrArg (Json.field? · "IncAp") same
  exact ⟨rfl, rfl, different, lists, lists', each, alike _ _ _ _ lists lists' each, rfl, rfl⟩

end
end CairoAsm
