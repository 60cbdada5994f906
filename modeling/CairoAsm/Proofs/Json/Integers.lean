import CairoAsm.Json.Display
import CairoAsm.Proofs.Json.Limits
import CairoAsm.Proofs.Text.Writing

/-!
The whole numbers in a value. They are all that can keep the value from being shown, and a value
that was read has none with more digits than are read.
-/
namespace CairoAsm.Json

mutual

def integers : Json → List Int
  | .null | .bool _ | .float _ | .str _ => []
  | .int n => [n]
  | .arr items => integersOfItems items
  | .obj fields => integersOfFields fields

def integersOfItems : List Json → List Int
  | [] => []
  | v :: rest => integers v ++ integersOfItems rest

def integersOfFields : List (String × Json) → List Int
  | [] => []
  | (_, v) :: rest => integers v ++ integersOfFields rest

end

theorem integersOfItems_eq_flatMap (items : List Json) :
    integersOfItems items = items.flatMap integers := by
  induction items with
  | nil => rfl
  | cons v items ih => rw [integersOfItems, ih, List.flatMap_cons]

theorem integersOfFields_eq_flatMap (fields : Fields) :
    integersOfFields fields = fields.flatMap fun f => f.2.integers := by
  induction fields with
  | nil => rfl
  | cons f fields ih => rw [integersOfFields, ih, List.flatMap_cons]

/-! ### Showing -/

section
variable (unprintable : Char → Bool)

mutual

/-- A value is shown unless one of its numbers is too long. -/
theorem exists_shown_eq : ∀ v : Json, ∃ s, v.shown unprintable = showing v.integers s
  | .null => ⟨_, pure_eq_showing _⟩
  | .bool _ => ⟨_, pure_eq_showing _⟩
  | .int n => ⟨_, decimal_eq n⟩
  | .float _ => ⟨_, pure_eq_showing _⟩
  | .str _ => ⟨_, pure_eq_showing _⟩
  | .arr items => by
    obtain ⟨ss, inner⟩ := exists_shownItems_eq items
    refine ⟨"[" ++ ", ".intercalate ss ++ "]", ?_⟩
    rw [shown, inner, integers, bind_pure_comp, map_showing]
  | .obj fields => by
    obtain ⟨ss, inner⟩ := exists_shownFields_eq fields
    refine ⟨"\x7b" ++ ", ".intercalate ss ++ "\x7d", ?_⟩
    rw [shown, inner, integers, bind_pure_comp, map_showing]

theorem exists_shownItems_eq : ∀ items : List Json,
    ∃ ss, shownItems unprintable items = showing (integersOfItems items) ss
  | [] => ⟨[], pure_eq_showing []⟩
  | v :: rest => by
    obtain ⟨s, first⟩ := exists_shown_eq v
    obtain ⟨ss, others⟩ := exists_shownItems_eq rest
    refine ⟨s :: ss, ?_⟩
    simp only [shownItems, first, others, integersOfItems, bind_pure_comp, map_showing,
      showing_bind_showing]

theorem exists_shownFields_eq : ∀ fields : Fields,
    ∃ ss, shownFields unprintable fields = showing (integersOfFields fields) ss
  | [] => ⟨[], pure_eq_showing []⟩
  | (k, v) :: rest => by
    obtain ⟨s, first⟩ := exists_shown_eq v
    obtain ⟨ss, others⟩ := exists_shownFields_eq rest
    refine ⟨(Text.quoted unprintable k ++ ": " ++ s) :: ss, ?_⟩
    simp only [shownFields, first, others, integersOfFields, bind_pure_comp, map_showing,
      showing_bind_showing]

end

theorem exists_plain_eq (v : Json) : ∃ s, v.plain unprintable = showing v.integers s := by
  cases v with
  | str s => exact ⟨s, pure_eq_showing s⟩
  | _ => exact exists_shown_eq unprintable _

end

/-! ### Reading -/

section
variable {limit : Nat}

theorem withinDigits_put {fields : Fields} {v : Json} (key : String)
    (before : WithinDigits limit (integersOfFields fields))
    (short : WithinDigits limit v.integers) :
    WithinDigits limit (integersOfFields (fields.put key v)) := by
  induction fields with
  | nil => exact withinDigits_append.mpr ⟨short, before⟩
  | cons f rest ih =>
    obtain ⟨name, old⟩ := f
    obtain ⟨first, others⟩ := withinDigits_append.mp before
    rw [Fields.put]
    split
    · exact withinDigits_append.mpr ⟨short, others⟩
    · exact withinDigits_append.mpr ⟨first, ih others⟩

def Frame.integers : Frame → List Int
  | .array items => integersOfItems items
  | .object fields _ => integersOfFields fields

namespace Reader

/-- The numbers in all that has been read. -/
def integers : Reader → List Int
  | .value stack => stack.flatMap Frame.integers
  | .firstItem stack => stack.flatMap Frame.integers
  | .key _ fields stack => integersOfFields fields ++ stack.flatMap Frame.integers
  | .colon fields _ stack => integersOfFields fields ++ stack.flatMap Frame.integers
  | .afterItem items stack => integersOfItems items ++ stack.flatMap Frame.integers
  | .afterField fields stack => integersOfFields fields ++ stack.flatMap Frame.integers
  | .done v => v.integers

variable {stack : List Frame} {v : Json} {t : Token} {r next : Reader}

theorem withinDigits_complete (short : WithinDigits limit v.integers)
    (before : WithinDigits limit (stack.flatMap Frame.integers)) :
    WithinDigits limit (complete v stack).integers := by
  cases stack with
  | nil => exact short
  | cons frame stack =>
    obtain ⟨inner, outer⟩ := withinDigits_append.mp before
    cases frame with
    | array items =>
      exact withinDigits_append.mpr ⟨withinDigits_append.mpr ⟨short, inner⟩, outer⟩
    | object fields name =>
      exact withinDigits_append.mpr ⟨withinDigits_put name inner short, outer⟩

/-- What a token adds is within the limit. -/
def Adds (limit : Nat) (t : Token) : Prop :=
  ∀ v, t.lexeme = .scalar v → WithinDigits limit v.integers

theorem withinDigits_beginValue (token : Adds limit t)
    (before : WithinDigits limit (stack.flatMap Frame.integers))
    (step : beginValue stack t = .ok next) : WithinDigits limit next.integers := by
  unfold beginValue at step
  split at step
  · rename_i v scalar
    cases step
    exact withinDigits_complete (token v scalar) before
  · cases step
    exact withinDigits_complete withinDigits_nil before
  · cases step
    exact before
  · cases step
    exact before
  · cases step
  · cases step
  · cases step

theorem withinDigits_step (token : Adds limit t) (before : WithinDigits limit r.integers)
    (step : r.step t = .ok next) : WithinDigits limit next.integers := by
  unfold Reader.step at step
  cases r with
  | value stack => exact withinDigits_beginValue token before step
  | firstItem stack =>
    dsimp only at step
    split at step
    · cases step
      exact withinDigits_complete withinDigits_nil before
    · have opened : WithinDigits limit ((Frame.array [] :: stack).flatMap Frame.integers) := before
      exact withinDigits_beginValue token opened step
  | key first fields stack =>
    obtain ⟨inner, outer⟩ := withinDigits_append.mp before
    dsimp only at step
    split at step
    · cases step
      exact before
    · cases step
    · split at step
      · cases step
        exact withinDigits_complete inner outer
      · cases step
    · cases step
  | colon fields name stack =>
    dsimp only at step
    split at step
    · cases step
      exact before
    · cases step
  | afterItem items stack =>
    obtain ⟨inner, outer⟩ := withinDigits_append.mp before
    dsimp only at step
    split at step
    · cases step
      refine withinDigits_complete ?_ outer
      rw [Json.integers, integersOfItems_eq_flatMap, withinDigits_flatMap]
      rw [integersOfItems_eq_flatMap, withinDigits_flatMap] at inner
      exact fun v member => inner v (List.mem_reverse.mp member)
    · cases step
      exact before
    · cases step
  | afterField fields stack =>
    obtain ⟨inner, outer⟩ := withinDigits_append.mp before
    dsimp only at step
    split at step
    · cases step
      exact withinDigits_complete inner outer
    · cases step
      exact before
    · cases step
  | done v => cases step

theorem withinDigits_foldlM {nesting : Option Nat} {ts : List Token}
    (tokens : ∀ t ∈ ts, Adds limit t) (before : WithinDigits limit r.integers)
    (run : ts.foldlM (stepWithin nesting) r = .ok next) : WithinDigits limit next.integers := by
  induction ts generalizing r with
  | nil =>
    cases run
    exact before
  | cons t ts ih =>
    obtain ⟨first, others⟩ := List.forall_mem_cons.mp tokens
    rw [List.foldlM_cons, bind_eq_ok_iff] at run
    obtain ⟨middle, step, rest⟩ := run
    exact ih others (withinDigits_step first before (stepWithin_eq_ok_iff.mp step).1) rest

end Reader

namespace Token

theorem withinDigits_number? {negative : Bool} {cs : List Char} {v : Json} {n : Nat}
    (h : number? (some limit) negative cs = some (.scalar v, n)) :
    WithinDigits limit v.integers := by
  unfold number? at h
  dsimp only at h
  split at h
  · cases h
  · rename_i nonempty
    split at h
    · cases h
      exact withinDigits_nil
    · split at h
      · obtain ⟨whole, _⟩ := Prod.mk.inj (Option.some.inj h)
        obtain ⟨k, rfl, short⟩ :=
          short_of_wholeNumber nonempty (wholeDigits_start cs).2 whole
        exact withinDigits_singleton.mpr short
      · cases h
        exact withinDigits_nil

theorem withinDigits_scalar? {cs : List Char} {v : Json} {n : Nat}
    (h : scalar? (some limit) cs = some (.scalar v, n)) : WithinDigits limit v.integers := by
  unfold scalar? at h
  split at h
  · rename_i word w found
    cases h
    have listed : (word, v) ∈ words := List.mem_of_find?_eq_some found
    have plain : ∀ f ∈ words, f.2.integers = [] := by simp [words, Json.integers]
    rw [plain _ listed]
    exact withinDigits_nil
  · split at h
    · obtain ⟨⟨l, length⟩, read, same⟩ := Option.map_eq_some_iff.mp h
      obtain ⟨rfl, _⟩ := Prod.mk.inj same
      exact withinDigits_number? read
    · exact withinDigits_number? h

theorem withinDigits_lexemeAt {position : Nat} {c : Char} {rest : List Char} {v : Json}
    (h : (lexemeAt (some limit) position c rest).1 = .scalar v) :
    WithinDigits limit v.integers := by
  unfold lexemeAt at h
  split at h
  · cases h
  · cases h
  · cases h
  · cases h
  · cases h
  · cases h
  · obtain ⟨_, _, text⟩ | ⟨_, _, broken⟩ :=
      quotedText_cases position (position + 1) 0 true [] rest
    · cases text.symm.trans h
    · cases broken.symm.trans h
  · split at h
    · rename_i l length read
      obtain rfl : l = .scalar v := h
      exact withinDigits_scalar? read
    · cases h

theorem adds_of_mem_ofText {cs : List Char} {t : Token} (member : t ∈ ofText (some limit) cs) :
    Reader.Adds limit t := by
  intro v scalar
  rcases mem_scan member with done | ⟨c, rest, _, lexeme⟩
  · cases done
  · exact withinDigits_lexemeAt (lexeme.symm.trans scalar)

end Token

/-- A value that was read has no number with more digits than are read. -/
theorem withinDigits_of_read {nesting : Option Nat} {cs : List Char} {v : Json}
    (h : read ⟨some limit, nesting⟩ cs = .ok v) : WithinDigits limit v.integers := by
  unfold read at h
  split at h
  · cases h
  · obtain ⟨last, run, finish⟩ := bind_eq_ok_iff.mp h
    have short := Reader.withinDigits_foldlM (fun _ => Token.adds_of_mem_ofText)
      withinDigits_nil run
    cases last <;> cases finish
    exact short

end
end CairoAsm.Json
