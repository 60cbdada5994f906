import CairoAsm.Proofs.Text.Lines
import CairoAsm.Text.ControlSequence

/-!
What a stream does not show: control sequences. A text without them is shown unchanged, and joining
lines puts none into a text.
-/
namespace CairoAsm.Text

/-- A control sequence stands somewhere in the text. -/
def hasControl : List Char → Bool
  | [] => false
  | c :: rest => (controlSequence? (c :: rest)).isSome || hasControl rest

theorem stripControls_cons {c : Char} {rest : List Char}
    (plain : controlSequence? (c :: rest) = none) :
    stripControls (c :: rest) = c :: stripControls rest := by
  have step : stripControls (c :: rest) = stripControlsOnto ([] ++ [c]) 0 rest := by
    simp [stripControls, stripControlsOnto, plain]
  rw [step, stripControlsOnto_append]
  rfl

theorem stripControls_of_hasControl_eq_false {cs : List Char} (h : hasControl cs = false) :
    stripControls cs = cs := by
  induction cs with
  | nil => rfl
  | cons c rest ih =>
    rw [hasControl, Bool.or_eq_false_iff] at h
    rw [stripControls_cons (by simpa using h.1), ih h.2]

theorem length_stripControlsOnto_le (done : List Char) (skip : Nat) (cs : List Char) :
    (stripControlsOnto done skip cs).length ≤ done.length + cs.length := by
  fun_induction stripControlsOnto done skip cs with
  | case1 => simp
  | case2 done c rest skip ih =>
    rw [List.length_cons]
    omega
  | case3 done c rest length found ih =>
    rw [List.length_cons]
    omega
  | case4 done c rest plain ih =>
    rw [List.length_cons] at ih ⊢
    omega

theorem length_stripControls_lt {cs : List Char} (h : hasControl cs = true) :
    (stripControls cs).length < cs.length := by
  induction cs with
  | nil => cases h
  | cons c rest ih =>
    cases found : controlSequence? (c :: rest) with
    | some length =>
      have step : stripControls (c :: rest) = stripControlsOnto [] length rest := by
        simp [stripControls, stripControlsOnto, found]
      have short := length_stripControlsOnto_le [] length rest
      rw [step, List.length_cons]
      rw [List.length_nil] at short
      omega
    | none =>
      have later : hasControl rest = true := by simpa [hasControl, found] using h
      rw [stripControls_cons found]
      exact Nat.succ_lt_succ (ih later)

/-- A character at which no control sequence goes on. -/
def Stops (c : Char) : Prop :=
  c ≠ '\x1b' ∧ c ≠ '[' ∧ isParameter c = false ∧ c.isAlpha = false

instance (c : Char) : Decidable (Stops c) :=
  inferInstanceAs (Decidable (c ≠ '\x1b' ∧ c ≠ '[' ∧ isParameter c = false ∧ c.isAlpha = false))

theorem controlSequence?_of_ne {c : Char} (other : c ≠ '\x1b') (rest : List Char) :
    controlSequence? (c :: rest) = none := by
  unfold controlSequence?
  split
  · rename_i same
    exact absurd (List.cons.inj same).1 other
  · rfl

theorem hasControl_append_of_notMem {cs ds : List Char} (plain : '\x1b' ∉ cs) :
    hasControl (cs ++ ds) = hasControl ds := by
  induction cs with
  | nil => rfl
  | cons c cs ih =>
    obtain ⟨other, plain⟩ := List.ne_and_not_mem_of_not_mem_cons plain
    rw [List.cons_append, hasControl, controlSequence?_of_ne other.symm, ih plain]
    rfl

theorem hasControl_eq_false_of_notMem {cs : List Char} (plain : '\x1b' ∉ cs) :
    hasControl cs = false := by
  have alone := @hasControl_append_of_notMem cs [] plain
  rwa [List.append_nil] at alone

theorem controlSequence?_append_stop {cs : List Char} {c : Char} (stops : Stops c)
    (nonempty : cs ≠ []) (ds : List Char) :
    (controlSequence? (cs ++ c :: ds)).isSome = (controlSequence? cs).isSome := by
  obtain ⟨notEscape, notBracket, notParameter, notLetter⟩ := stops
  match cs with
  | [] => exact absurd rfl nonempty
  | b :: cs =>
    by_cases escape : b = '\x1b'
    · subst escape
      match cs with
      | [] => simp [controlSequence?, notBracket]
      | d :: cs =>
        by_cases bracket : d = '['
        · subst bracket
          have parameters : (cs ++ c :: ds).takeWhile isParameter = cs.takeWhile isParameter := by
            rw [List.takeWhile_append, List.takeWhile_cons_of_neg (by simp [notParameter]),
              List.append_nil]
            split
            · rename_i whole
              exact ((List.takeWhile_prefix isParameter).eq_of_length whole).symm
            · rfl
          have fits : (cs.takeWhile isParameter).length ≤ cs.length :=
            (List.takeWhile_prefix _).length_le
          simp only [controlSequence?, List.cons_append, parameters,
            List.drop_append_of_le_length fits]
          cases cs.drop (cs.takeWhile isParameter).length with
          | nil => simp [notLetter]
          | cons e es => rfl
        · simp [controlSequence?, bracket]
    · rw [List.cons_append, controlSequence?_of_ne escape, controlSequence?_of_ne escape]

/-- A control sequence is on one side of a character at which none goes on. -/
theorem hasControl_append_stop (cs : List Char) {c : Char} (stops : Stops c) (ds : List Char) :
    hasControl (cs ++ c :: ds) = (hasControl cs || hasControl ds) := by
  induction cs with
  | nil =>
    have here := controlSequence?_of_ne stops.1 ds
    simp [hasControl, here]
  | cons b cs ih =>
    have here := controlSequence?_append_stop stops (List.cons_ne_nil b cs) ds
    rw [List.cons_append] at here
    rw [List.cons_append, hasControl, hasControl, here, ih, Bool.or_assoc]

theorem hasControl_unlines (ls : List String) :
    hasControl (unlines ls).toList = ls.any fun l => hasControl l.toList := by
  have break_ : Stops '\n' := by decide
  induction ls with
  | nil => rfl
  | cons l ls ih =>
    by_cases last : ls = []
    · subst last
      simp [unlines]
    · have whole : (unlines (l :: ls)).toList = l.toList ++ '\n' :: (unlines ls).toList := by
        simp [unlines_cons last]
      rw [whole, hasControl_append_stop l.toList break_, ih, List.any_cons]

/-- A text is shown as it is exactly if there is no control sequence in it. -/
theorem stripControls_eq_self_iff {cs : List Char} :
    stripControls cs = cs ↔ hasControl cs = false := by
  constructor
  · intro same
    refine Bool.eq_false_iff.mpr fun control => ?_
    have shorter := length_stripControls_lt control
    rw [same] at shorter
    exact Nat.lt_irrefl _ shorter
  · exact stripControls_of_hasControl_eq_false

end CairoAsm.Text
