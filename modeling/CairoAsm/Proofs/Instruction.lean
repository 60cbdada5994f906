import CairoAsm.Proofs.Operand

namespace CairoAsm
open Text

namespace Body

def initial : Body → Char
  | .addAp _ => 'a'
  | .assertEq .. => '['
  | .assertEqQm31 .. => '\x7b'
  | .call .. => 'c'
  | .jump .. | .jumpNonzero .. => 'j'
  | .ret => 'r'
  | .blake2s .. => 'b'

section
variable (r : List Char)

theorem fullText_addAp_append (o : Operand) :
    (addAp o).fullText.toList ++ r = "ap += ".toList ++ (o.fullText.toList ++ r) := by
  unfold fullText
  simp

theorem fullText_assertEq_append (a : Cell) (b : Operand) :
    (assertEq a b).fullText.toList ++ r =
      a.fullText.toList ++ (" = ".toList ++ (b.fullText.toList ++ r)) := by
  unfold fullText
  simp

theorem fullText_assertEqQm31_append (a : Cell) (b : Operand) :
    (assertEqQm31 a b).fullText.toList ++ r =
      "\x7bQM31\x7d ".toList ++
        (a.fullText.toList ++ (" = ".toList ++ (b.fullText.toList ++ r))) := by
  unfold fullText
  simp

theorem fullText_call_append (target : Atom) (relative : Bool) :
    (call target relative).fullText.toList ++ r =
      "call ".toList ++ ((distance relative).toList ++ ' ' :: (target.fullText.toList ++ r)) := by
  unfold fullText
  simp

theorem fullText_jump_append (target : Atom) (relative : Bool) :
    (jump target relative).fullText.toList ++ r =
      "jmp ".toList ++ ((distance relative).toList ++ ' ' :: (target.fullText.toList ++ r)) := by
  unfold fullText
  simp

theorem fullText_jumpNonzero_append (offset : Atom) (condition : Cell) :
    (jumpNonzero offset condition).fullText.toList ++ r =
      "jmp rel ".toList ++
        (offset.fullText.toList ++ ' ' :: 'i' :: 'f' :: ' ' ::
          (condition.fullText.toList ++ (" != 0".toList ++ r))) := by
  unfold fullText
  simp

theorem fullText_ret_append : ret.fullText.toList ++ r = "ret".toList ++ r := rfl

theorem fullText_blake2s_append (state byteCount message : Cell) (finalize : Bool) :
    (blake2s state byteCount message finalize).fullText.toList ++ r =
      "blake2s[state=".toList ++ (state.fullText.toList ++ (", message=".toList ++
        (message.fullText.toList ++ (", byte_count=".toList ++ (byteCount.fullText.toList ++
          (", finalize=".toList ++ ((if finalize then "true" else "false").toList ++
            ("] => [ap + 0]".toList ++ r)))))))) := by
  unfold fullText
  simp

end

theorem fullText_append_eq_cons (b : Body) (r : List Char) :
    ∃ rest, b.fullText.toList ++ r = b.initial :: rest := by
  cases b with
  | addAp o => exact ⟨_, fullText_addAp_append r o⟩
  | assertEq a b => exact ⟨_, by rw [fullText_assertEq_append, Cell.fullText_append]; rfl⟩
  | assertEqQm31 a b => exact ⟨_, fullText_assertEqQm31_append r a b⟩
  | call target relative => exact ⟨_, fullText_call_append r target relative⟩
  | jump target relative => exact ⟨_, fullText_jump_append r target relative⟩
  | jumpNonzero offset condition => exact ⟨_, fullText_jumpNonzero_append r offset condition⟩
  | ret => exact ⟨_, fullText_ret_append r⟩
  | blake2s state byteCount message finalize =>
    exact ⟨_, fullText_blake2s_append r state byteCount message finalize⟩

/-- No body starts as a hint does, with a blank or with a digit. -/
theorem initial_plain (b : Body) :
    b.initial ≠ '%' ∧ b.initial ≠ ' ' ∧ b.initial.isDigit = false := by
  cases b <;> simp +decide [initial]

theorem distance_append_inj {x y : Bool} {r s : List Char}
    (h : (distance x).toList ++ r = (distance y).toList ++ s) : x = y ∧ r = s := by
  cases x <;> cases y <;> simp [distance] at h
  · exact ⟨rfl, h⟩
  · exact ⟨rfl, h⟩

/-- A jump that goes on with a condition is another body. -/
theorem fullText_jump_append_ne_jumpNonzero (target offset : Atom) (relative : Bool)
    (condition : Cell) {r : List Char} (hr : Closes r) (s : List Char) :
    (jump target relative).fullText.toList ++ r ≠
      (jumpNonzero offset condition).fullText.toList ++ s := by
  intro same
  rw [fullText_jump_append, fullText_jumpNonzero_append] at same
  cases relative with
  | false => simp [distance] at same
  | true =>
    have tails : target.fullText.toList ++ r = offset.fullText.toList ++ ' ' :: 'i' :: 'f' :: ' ' ::
        (condition.fullText.toList ++ (" != 0".toList ++ s)) := by
      simpa [distance] using same
    obtain ⟨_, rfl⟩ := Atom.fullText_append_inj hr.noDigit (noDigit_cons (by decide) _) tails
    exact Closes.ne_of_blank (by decide) hr

/-- A body ends where its text is closed. -/
theorem fullText_append_inj {a b : Body} {r s : List Char} (hr : Closes r) (hs : Closes s)
    (h : a.fullText.toList ++ r = b.fullText.toList ++ s) : a = b ∧ r = s := by
  have initials : a.initial = b.initial := by
    obtain ⟨t, ht⟩ := a.fullText_append_eq_cons r
    obtain ⟨u, hu⟩ := b.fullText_append_eq_cons s
    exact (List.cons.inj (ht.symm.trans (h.trans hu))).1
  cases a with
  | addAp x =>
    cases b with
    | addAp y =>
      rw [fullText_addAp_append, fullText_addAp_append] at h
      obtain ⟨rfl, rest⟩ := Operand.fullText_append_inj hr hs (List.append_cancel_left h)
      exact ⟨rfl, rest⟩
    | _ => simp [initial] at initials
  | assertEq x y =>
    cases b with
    | assertEq x' y' =>
      rw [fullText_assertEq_append, fullText_assertEq_append] at h
      obtain ⟨rfl, right⟩ := Cell.fullText_append_inj h
      obtain ⟨rfl, rest⟩ := Operand.fullText_append_inj hr hs (List.append_cancel_left right)
      exact ⟨rfl, rest⟩
    | _ => simp [initial] at initials
  | assertEqQm31 x y =>
    cases b with
    | assertEqQm31 x' y' =>
      rw [fullText_assertEqQm31_append, fullText_assertEqQm31_append] at h
      obtain ⟨rfl, right⟩ := Cell.fullText_append_inj (List.append_cancel_left h)
      obtain ⟨rfl, rest⟩ := Operand.fullText_append_inj hr hs (List.append_cancel_left right)
      exact ⟨rfl, rest⟩
    | _ => simp [initial] at initials
  | call target relative =>
    cases b with
    | call target' relative' =>
      rw [fullText_call_append, fullText_call_append] at h
      obtain ⟨rfl, right⟩ := distance_append_inj (List.append_cancel_left h)
      obtain ⟨rfl, rest⟩ := Atom.fullText_append_inj hr.noDigit hs.noDigit (List.cons.inj right).2
      exact ⟨rfl, rest⟩
    | _ => simp [initial] at initials
  | jump target relative =>
    cases b with
    | jump target' relative' =>
      rw [fullText_jump_append, fullText_jump_append] at h
      obtain ⟨rfl, right⟩ := distance_append_inj (List.append_cancel_left h)
      obtain ⟨rfl, rest⟩ := Atom.fullText_append_inj hr.noDigit hs.noDigit (List.cons.inj right).2
      exact ⟨rfl, rest⟩
    | jumpNonzero offset condition =>
      exact absurd h (fullText_jump_append_ne_jumpNonzero target offset relative condition hr s)
    | _ => simp [initial] at initials
  | jumpNonzero offset condition =>
    cases b with
    | jump target relative =>
      exact absurd h.symm
        (fullText_jump_append_ne_jumpNonzero target offset relative condition hs r)
    | jumpNonzero offset' condition' =>
      rw [fullText_jumpNonzero_append, fullText_jumpNonzero_append] at h
      obtain ⟨rfl, right⟩ := Atom.fullText_append_inj (noDigit_cons (by decide) _)
        (noDigit_cons (by decide) _) (List.append_cancel_left h)
      simp only [List.cons.injEq, true_and] at right
      obtain ⟨rfl, rest⟩ := Cell.fullText_append_inj right
      exact ⟨rfl, List.append_cancel_left rest⟩
    | _ => simp [initial] at initials
  | ret =>
    cases b with
    | ret => exact ⟨rfl, List.append_cancel_left h⟩
    | _ => simp [initial] at initials
  | blake2s state byteCount message finalize =>
    cases b with
    | blake2s state' byteCount' message' finalize' =>
      rw [fullText_blake2s_append, fullText_blake2s_append] at h
      obtain ⟨rfl, h₁⟩ := Cell.fullText_append_inj (List.append_cancel_left h)
      obtain ⟨rfl, h₂⟩ := Cell.fullText_append_inj (List.append_cancel_left h₁)
      obtain ⟨rfl, h₃⟩ := Cell.fullText_append_inj (List.append_cancel_left h₂)
      have flags := List.append_cancel_left h₃
      cases finalize <;> cases finalize' <;> simp at flags
      · exact ⟨rfl, flags⟩
      · exact ⟨rfl, flags⟩
    | _ => simp [initial] at initials

theorem fullText_inj {a b : Body} : a.fullText = b.fullText ↔ a = b := by
  have closed : Closes [] := trivial
  constructor
  · intro same
    have texts : a.fullText.toList ++ [] = b.fullText.toList ++ [] := by simp only [same]
    exact (fullText_append_inj closed closed texts).1
  · intro same
    simp only [same]

theorem printable_fullText (b : Body) : Printable b.fullText := by
  unfold fullText
  cases b with
  | call target relative => cases relative <;> simp +decide [distance]
  | jump target relative => cases relative <;> simp +decide [distance]
  | blake2s state byteCount message finalize => cases finalize <;> simp +decide
  | _ => simp +decide

end Body

namespace Instruction

theorem fullLine_append (i : Instruction) (r : List Char) :
    i.fullLine.toList ++ r =
      i.body.fullText.toList ++ ((if i.incAp then ", ap++" else "").toList ++ r) := by
  simp [fullLine]

theorem fullLine_eq_cons (i : Instruction) :
    ∃ rest, i.fullLine.toList = i.body.initial :: rest := by
  have h := i.fullLine_append []
  rw [List.append_nil] at h
  rw [h]
  exact i.body.fullText_append_eq_cons _

theorem printable_fullLine (i : Instruction) : Printable i.fullLine := by
  have mark : Printable (if i.incAp then ", ap++" else "") := by cases i.incAp <;> decide
  simp only [fullLine, printable_append]
  exact ⟨i.body.printable_fullText, mark⟩

/-- The line of a body determines the body and whether `ap` moves on, if only a remark follows. -/
theorem fullLine_append_inj {i j : Instruction} {r s : List Char}
    (hr : r = [] ∨ ∃ t, r = ' ' :: ' ' :: t) (hs : s = [] ∨ ∃ t, s = ' ' :: ' ' :: t)
    (h : i.fullLine.toList ++ r = j.fullLine.toList ++ s) :
    i.body = j.body ∧ i.incAp = j.incAp ∧ r = s := by
  have closes (b : Bool) (t : List Char) (ht : t = [] ∨ ∃ u, t = ' ' :: ' ' :: u) :
      Closes ((if b then ", ap++" else "").toList ++ t) := by
    cases b <;> rcases ht with rfl | ⟨u, rfl⟩ <;> simp [Closes]
  rw [fullLine_append, fullLine_append] at h
  obtain ⟨body, marks⟩ := Body.fullText_append_inj (closes _ r hr) (closes _ s hs) h
  refine ⟨body, ?_⟩
  cases hi : i.incAp <;> cases hj : j.incAp <;> simp [hi, hj] at marks
  · exact ⟨rfl, marks⟩
  · rcases hr with rfl | ⟨t, rfl⟩ <;> cases marks
  · rcases hs with rfl | ⟨t, rfl⟩ <;> cases marks
  · exact ⟨rfl, marks⟩

theorem fullLine_inj {i j : Instruction} :
    i.fullLine = j.fullLine ↔ i.body = j.body ∧ i.incAp = j.incAp := by
  constructor
  · intro same
    have texts : i.fullLine.toList ++ [] = j.fullLine.toList ++ [] := by simp only [same]
    obtain ⟨body, incAp, _⟩ := fullLine_append_inj (.inl rfl) (.inl rfl) texts
    exact ⟨body, incAp⟩
  · intro ⟨body, incAp⟩
    simp only [fullLine, body, incAp]

end Instruction
end CairoAsm
