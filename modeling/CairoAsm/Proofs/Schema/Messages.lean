import CairoAsm.Proofs.Json.Integers
import CairoAsm.Schema.Import

/-!
The messages of faults. A message names the key and the class that its fault is about and shows the
value, so it can be made unless a number in these is too long.
-/
namespace CairoAsm

namespace Fault

def key? : Fault → Option String
  | .missing key _ | .notInteger key _ | .notBoolean key _ => some key
  | _ => none

def value? : Fault → Option Json
  | .notObject got | .notInteger _ got | .notBoolean _ got | .notCode got | .hintsNotList got =>
    some got
  | _ => none

/-- The class that a fault names, or what stands in its place. -/
def named? : Fault → Option Json
  | .missing _ className => className
  | .unknownRegister got | .unknownOperation got | .notCell got | .notAtom got
  | .unknownOperand got | .unknownHint got | .unknownBody got | .notInstruction got
  | .notProgram got => some got
  | _ => none

/-- A text has in it what a fault is about. -/
structure Told (unprintable : Char → Bool) (f : Fault) (text : String) : Prop where
  key : ∀ key ∈ f.key?, key.toList <:+: text.toList
  value : ∀ v ∈ f.value?, ∃ s, v.shown unprintable = .ok s ∧ s.toList <:+: text.toList
  named : ∀ v ∈ f.named?, ∃ s, v.plain unprintable = .ok s ∧ s.toList <:+: text.toList

def integers (f : Fault) : List Int :=
  f.value?.elim [] Json.integers ++ f.named?.elim [] Json.integers

section
variable {unprintable : Char → Bool} {x : Writing String} {lead text : String} {ns : List Int}

theorem exists_lead_eq (shows : ∃ s, x = showing ns s) (lead : String) :
    ∃ text, (do return lead ++ (← x)) = showing ns text := by
  obtain ⟨s, rfl⟩ := shows
  exact ⟨lead ++ s, by rw [bind_pure_comp, map_showing]⟩

/-- A message is made if all numbers in it can be written. -/
theorem exists_message_eq (f : Fault) (unprintable : Char → Bool) :
    ∃ text, f.message unprintable = showing f.integers text := by
  have shown (v : Json) (lead : String) :
      ∃ text, (do return lead ++ (← v.shown unprintable)) = showing (v.integers ++ []) text := by
    rw [List.append_nil]
    exact exists_lead_eq (v.exists_shown_eq unprintable) lead
  have plain (v : Json) (lead : String) := exists_lead_eq (v.exists_plain_eq unprintable) lead
  cases f with
  | notObject got | notInteger key got | notBoolean key got | notCode got | hintsNotList got =>
    exact shown got _
  | missing key className =>
    cases className with
    | none => exact ⟨_, pure_eq_showing _⟩
    | some className => exact plain className _
  | instructionsNotList => exact ⟨_, pure_eq_showing _⟩
  | unknownRegister got | unknownOperation got | notCell got | notAtom got | unknownOperand got
  | unknownHint got | unknownBody got | notInstruction got | notProgram got => exact plain got _

theorem infix_append_left (a b : String) : a.toList <:+: (a ++ b).toList := by
  rw [String.toList_append]
  exact List.infix_append_left

theorem infix_of_lead (made : (do return lead ++ (← x)) = Except.ok text) :
    (∃ s, x = .ok s ∧ s.toList <:+: text.toList) ∧ lead.toList <:+: text.toList := by
  obtain ⟨s, written, same⟩ := bind_eq_ok_iff.mp made
  obtain rfl := pure_eq_ok_iff.mp same
  refine ⟨⟨s, written, ?_⟩, infix_append_left lead s⟩
  rw [String.toList_append]
  exact List.infix_append_right

/-- A message has in it the key, the value and the class of its fault. -/
theorem told_of_message {f : Fault} (made : f.message unprintable = .ok text) :
    f.Told unprintable text := by
  cases f with
  | notObject got | notCode got | hintsNotList got =>
    have ends := infix_of_lead made
    exact ⟨nofun, fun _ same => by cases same; exact ends.1, nofun⟩
  | notInteger key got | notBoolean key got =>
    have ends := infix_of_lead made
    refine ⟨fun _ same => ?_, fun _ same => by cases same; exact ends.1, nofun⟩
    cases same
    exact (infix_append_left _ _).trans ends.2
  | missing key className =>
    cases className with
    | none =>
      obtain rfl := pure_eq_ok_iff.mp made
      refine ⟨fun _ same => ?_, nofun, nofun⟩
      cases same
      rw [String.toList_append, String.toList_append]
      exact List.infix_append _ _ _
    | some className =>
      have ends := infix_of_lead made
      refine ⟨fun _ same => ?_, nofun, fun _ same => by cases same; exact ends.1⟩
      cases same
      have leading := ends.2
      rw [String.toList_append, String.toList_append] at leading
      exact (List.infix_append _ _ _).trans leading
  | instructionsNotList => exact ⟨nofun, nofun, nofun⟩
  | unknownRegister got | unknownOperation got | notCell got | notAtom got | unknownOperand got
  | unknownHint got | unknownBody got | notInstruction got | notProgram got =>
    have ends := infix_of_lead made
    exact ⟨nofun, nofun, fun _ same => by cases same; exact ends.1⟩

end

end Fault

namespace Failure

def message (unprintable : Char → Bool) : Failure → Writing String
  | .fault f => f.message unprintable
  | .oversized => .error ⟨⟩

theorem ofFault_eq (f : Fault) :
    ofFault f = if WithinDigits digitLimit f.integers then .fault f else .oversized := by
  obtain ⟨text, made⟩ := f.exists_message_eq fun _ => false
  unfold ofFault
  split
  · rename_i written
    rw [made, showing_eq_ok_iff] at written
    rw [if_pos written.1]
  · rename_i failed
    rw [if_neg fun short => by rw [made, showing_of_short short] at failed; cases failed]

theorem message_ofFault (f : Fault) (unprintable : Char → Bool) :
    (ofFault f).message unprintable = f.message unprintable := by
  obtain ⟨text, made⟩ := f.exists_message_eq unprintable
  rw [ofFault_eq, made]
  split
  · exact made
  · rename_i long
    exact (showing_of_long long).symm

/-- A fault that an import ends with has a message. -/
theorem exists_told_of_fault {f g : Fault} (kept : ofFault g = .fault f)
    (unprintable : Char → Bool) :
    ∃ text, f.message unprintable = .ok text ∧ f.Told unprintable text := by
  rw [ofFault_eq] at kept
  split at kept
  · rename_i short
    obtain rfl := Failure.fault.inj kept
    obtain ⟨text, made⟩ := g.exists_message_eq unprintable
    rw [showing_of_short short] at made
    exact ⟨text, made, Fault.told_of_message made⟩
  · cases kept

end Failure
end CairoAsm
