import CairoAsm.Proofs.Integers
import CairoAsm.Proofs.Text.Printable

namespace CairoAsm
open Text

/-- Text that no text of an operand goes on with: nothing, a comma, or two blanks. -/
def Closes : List Char → Prop
  | [] => True
  | ',' :: _ => True
  | ' ' :: ' ' :: _ => True
  | _ => False

theorem Closes.noDigit {r : List Char} (h : Closes r) : NoDigit r := by
  unfold Closes at h
  split at h
  · exact noDigit_nil
  · exact noDigit_cons (by decide) _
  · exact noDigit_cons (by decide) _
  · cases h

theorem Closes.ne_of_blank {c : Char} {r : List Char} (other : c ≠ ' ') :
    ¬ Closes (' ' :: c :: r) := by
  simp [Closes, other]

theorem Cell.fullText_append (c : Cell) (r : List Char) :
    c.fullText.toList ++ r =
      '[' :: (c.register.name.toList ++ ' ' :: '+' :: ' ' ::
        (c.offset.repr.toList ++ ']' :: r)) := by
  simp [Cell.fullText]

/-- A cell ends with a bracket of its own. -/
theorem Cell.fullText_append_inj {c d : Cell} {r s : List Char}
    (h : c.fullText.toList ++ r = d.fullText.toList ++ s) : c = d ∧ r = s := by
  obtain ⟨register, m⟩ := c
  obtain ⟨other, n⟩ := d
  have close (t : List Char) : NoDigit (']' :: t) := noDigit_cons (by decide) t
  simp only [Cell.fullText_append] at h
  cases register <;> cases other <;> simp [Register.name] at h
  all_goals
    obtain ⟨rfl, rest⟩ := repr_append_inj (close r) (close s) h
    exact ⟨rfl, (List.cons.inj rest).2⟩

/-- A number does not start as a cell does. -/
theorem Cell.fullText_append_ne_repr (c : Cell) (n : Int) (r s : List Char) :
    c.fullText.toList ++ r ≠ n.repr.toList ++ s := by
  rw [Cell.fullText_append]
  exact (repr_append_ne_cons n (by decide) (by decide) s _).symm

theorem Atom.fullText_append_inj {a b : Atom} {r s : List Char} (hr : NoDigit r) (hs : NoDigit s)
    (h : a.fullText.toList ++ r = b.fullText.toList ++ s) : a = b ∧ r = s := by
  cases a with
  | cell c =>
    cases b with
    | cell d =>
      obtain ⟨rfl, rest⟩ := Cell.fullText_append_inj h
      exact ⟨rfl, rest⟩
    | immediate n => exact absurd h (c.fullText_append_ne_repr n r s)
  | immediate m =>
    cases b with
    | cell d => exact absurd h.symm (d.fullText_append_ne_repr m s r)
    | immediate n =>
      obtain ⟨rfl, rest⟩ := repr_append_inj hr hs h
      exact ⟨rfl, rest⟩

/-- Two brackets begin the text of an operand, but of no atom. -/
theorem Atom.fullText_append_ne_brackets (a : Atom) (r s : List Char) :
    a.fullText.toList ++ r ≠ '[' :: '[' :: s := by
  cases a with
  | cell c =>
    obtain ⟨register, n⟩ := c
    cases register <;> simp [Atom.fullText, Cell.fullText, Register.name]
  | immediate n => exact repr_append_ne_cons n (by decide) (by decide) _ _

/-- The sign of an operation would go on with the operand before it. -/
theorem not_closes_operation (op : Operation) (r : List Char) :
    ¬ Closes (' ' :: (op.symbol.toList ++ r)) := by
  cases op <;> simp [Operation.symbol, Closes]

theorem Operation.symbol_append_inj {op other : Operation} {r s : List Char}
    (h : op.symbol.toList ++ r = other.symbol.toList ++ s) : op = other ∧ r = s := by
  cases op <;> cases other <;> simp [Operation.symbol] at h
  · exact ⟨rfl, h⟩
  · exact ⟨rfl, h⟩

namespace Operand

theorem fullText_atom_append (a : Atom) (r : List Char) :
    (atom a).fullText.toList ++ r = a.fullText.toList ++ r := rfl

theorem fullText_indirect_append (c : Cell) (n : Int) (r : List Char) :
    (indirect c n).fullText.toList ++ r =
      '[' :: (c.fullText.toList ++ ' ' :: '+' :: ' ' :: (n.repr.toList ++ ']' :: r)) := by
  simp [fullText]

theorem fullText_binary_append (op : Operation) (a b : Atom) (r : List Char) :
    (binary op a b).fullText.toList ++ r =
      a.fullText.toList ++ ' ' :: (op.symbol.toList ++ ' ' :: (b.fullText.toList ++ r)) := by
  simp [fullText]

theorem fullText_indirect_append_ne (c : Cell) (n : Int) (a : Atom) (r s : List Char) :
    (indirect c n).fullText.toList ++ r ≠ a.fullText.toList ++ s := by
  rw [fullText_indirect_append, Cell.fullText_append]
  exact (a.fullText_append_ne_brackets s _).symm

/-- An operand ends where its text is closed. -/
theorem fullText_append_inj {a b : Operand} {r s : List Char} (hr : Closes r) (hs : Closes s)
    (h : a.fullText.toList ++ r = b.fullText.toList ++ s) : a = b ∧ r = s := by
  have blank (t : List Char) : NoDigit (' ' :: t) := noDigit_cons (by decide) t
  cases a with
  | atom x =>
    cases b with
    | atom y =>
      obtain ⟨rfl, rest⟩ := Atom.fullText_append_inj hr.noDigit hs.noDigit h
      exact ⟨rfl, rest⟩
    | indirect d n => exact absurd h.symm (fullText_indirect_append_ne d n x s r)
    | binary op y z =>
      rw [fullText_atom_append, fullText_binary_append] at h
      obtain ⟨_, rfl⟩ := Atom.fullText_append_inj hr.noDigit (blank _) h
      exact absurd hr (not_closes_operation op _)
  | indirect c m =>
    cases b with
    | atom y => exact absurd h (fullText_indirect_append_ne c m y r s)
    | indirect d n =>
      rw [fullText_indirect_append, fullText_indirect_append] at h
      obtain ⟨rfl, offset⟩ := Cell.fullText_append_inj (List.cons.inj h).2
      simp only [List.cons.injEq, true_and] at offset
      obtain ⟨rfl, rest⟩ := repr_append_inj (noDigit_cons (by decide) r)
        (noDigit_cons (by decide) s) offset
      exact ⟨rfl, (List.cons.inj rest).2⟩
    | binary op y z =>
      rw [fullText_binary_append] at h
      exact absurd h (fullText_indirect_append_ne c m y r _)
  | binary op x y =>
    rw [fullText_binary_append] at h
    cases b with
    | atom z =>
      obtain ⟨_, rfl⟩ := Atom.fullText_append_inj (blank _) hs.noDigit h
      exact absurd hs (not_closes_operation op _)
    | indirect d n => exact absurd h.symm (fullText_indirect_append_ne d n x s _)
    | binary op' x' y' =>
      rw [fullText_binary_append] at h
      obtain ⟨rfl, left⟩ := Atom.fullText_append_inj (blank _) (blank _) h
      obtain ⟨rfl, right⟩ := Operation.symbol_append_inj (List.cons.inj left).2
      obtain ⟨rfl, rest⟩ := Atom.fullText_append_inj hr.noDigit hs.noDigit (List.cons.inj right).2
      exact ⟨rfl, rest⟩

end Operand

namespace Atom

theorem fullForm_cell_append (c : Cell) (r : List Char) :
    (cell c).fullForm.toList ++ r = "memory".toList ++ (c.fullText.toList ++ r) := by
  simp [fullForm]

theorem fullForm_append_inj {a b : Atom} {r s : List Char} (hr : NoDigit r) (hs : NoDigit s)
    (h : a.fullForm.toList ++ r = b.fullForm.toList ++ s) : a = b ∧ r = s := by
  cases a with
  | cell c =>
    rw [fullForm_cell_append] at h
    cases b with
    | cell d =>
      rw [fullForm_cell_append] at h
      obtain ⟨rfl, rest⟩ := Cell.fullText_append_inj (List.append_cancel_left h)
      exact ⟨rfl, rest⟩
    | immediate n => exact absurd h.symm (repr_append_ne_cons n (by decide) (by decide) s _)
  | immediate m =>
    cases b with
    | cell d =>
      rw [fullForm_cell_append] at h
      exact absurd h (repr_append_ne_cons m (by decide) (by decide) r _)
    | immediate n =>
      obtain ⟨rfl, rest⟩ := repr_append_inj hr hs h
      exact ⟨rfl, rest⟩

/-- The form of an atom starts with the word for memory or a number. -/
theorem fullForm_append_ne_cons (a : Atom) {x : Char} (memory : x ≠ 'm') (sign : x ≠ '-')
    (digit : x.isDigit = false) (r s : List Char) : a.fullForm.toList ++ r ≠ x :: s := by
  cases a with
  | cell c =>
    rw [fullForm_cell_append]
    exact fun same => memory (List.cons.inj same).1.symm
  | immediate n => exact repr_append_ne_cons n sign digit r s

theorem fullForm_append_ne_indirect (a : Atom) (r s : List Char) :
    a.fullForm.toList ++ r ≠ "memory[memory".toList ++ s := by
  cases a with
  | cell c =>
    obtain ⟨register, n⟩ := c
    cases register <;> simp [fullForm, Cell.fullText, Register.name]
  | immediate n => exact repr_append_ne_cons n (by decide) (by decide) r _

end Atom

namespace Operand

theorem fullForm_atom_append (a : Atom) (r : List Char) :
    (atom a).fullForm.toList ++ r = a.fullForm.toList ++ r := rfl

theorem fullForm_indirect_append (c : Cell) (n : Int) (r : List Char) :
    (indirect c n).fullForm.toList ++ r =
      "memory[memory".toList ++
        (c.fullText.toList ++ ' ' :: '+' :: ' ' :: (n.repr.toList ++ ']' :: r)) := by
  unfold fullForm
  simp

theorem fullForm_binary_append (op : Operation) (a b : Atom) (r : List Char) :
    (binary op a b).fullForm.toList ++ r =
      '(' :: (a.fullForm.toList ++ ' ' :: (op.symbol.toList ++ ' ' ::
        (b.fullForm.toList ++ ')' :: (" % PRIME".toList ++ r)))) := by
  unfold fullForm
  simp

theorem fullForm_append_ne_cons (o : Operand) {x : Char} (memory : x ≠ 'm') (paren : x ≠ '(')
    (sign : x ≠ '-') (digit : x.isDigit = false) (r s : List Char) :
    o.fullForm.toList ++ r ≠ x :: s := by
  cases o with
  | atom a => exact a.fullForm_append_ne_cons memory sign digit r s
  | indirect c n =>
    rw [fullForm_indirect_append]
    exact fun same => memory (List.cons.inj same).1.symm
  | binary op a b =>
    rw [fullForm_binary_append]
    exact fun same => paren (List.cons.inj same).1.symm

/-- The form that hint code uses ends by itself, unless a digit follows. -/
theorem fullForm_append_inj {a b : Operand} {r s : List Char} (hr : NoDigit r)
    (hs : NoDigit s) (h : a.fullForm.toList ++ r = b.fullForm.toList ++ s) :
    a = b ∧ r = s := by
  have blank (t : List Char) : NoDigit (' ' :: t) := noDigit_cons (by decide) t
  have close (t : List Char) : NoDigit (')' :: t) := noDigit_cons (by decide) t
  cases a with
  | atom x =>
    rw [fullForm_atom_append] at h
    cases b with
    | atom y =>
      obtain ⟨rfl, rest⟩ := Atom.fullForm_append_inj hr hs h
      exact ⟨rfl, rest⟩
    | indirect d n =>
      rw [fullForm_indirect_append] at h
      exact absurd h (x.fullForm_append_ne_indirect r _)
    | binary op y z =>
      rw [fullForm_binary_append] at h
      exact absurd h (x.fullForm_append_ne_cons (by decide) (by decide) (by decide) r _)
  | indirect c m =>
    rw [fullForm_indirect_append] at h
    cases b with
    | atom y => exact absurd h.symm (y.fullForm_append_ne_indirect s _)
    | indirect d n =>
      rw [fullForm_indirect_append] at h
      obtain ⟨rfl, offset⟩ := Cell.fullText_append_inj (List.append_cancel_left h)
      simp only [List.cons.injEq, true_and] at offset
      obtain ⟨rfl, rest⟩ := repr_append_inj (noDigit_cons (by decide) r)
        (noDigit_cons (by decide) s) offset
      exact ⟨rfl, (List.cons.inj rest).2⟩
    | binary op y z =>
      rw [fullForm_binary_append] at h
      cases h
  | binary op x y =>
    rw [fullForm_binary_append] at h
    cases b with
    | atom z =>
      exact absurd h.symm (z.fullForm_append_ne_cons (by decide) (by decide) (by decide) s _)
    | indirect d n =>
      rw [fullForm_indirect_append] at h
      cases h
    | binary op' x' y' =>
      rw [fullForm_binary_append] at h
      obtain ⟨rfl, left⟩ := Atom.fullForm_append_inj (blank _) (blank _) (List.cons.inj h).2
      obtain ⟨rfl, right⟩ := Operation.symbol_append_inj (List.cons.inj left).2
      obtain ⟨rfl, rest⟩ := Atom.fullForm_append_inj (close _) (close _) (List.cons.inj right).2
      exact ⟨rfl, List.append_cancel_left (List.cons.inj rest).2⟩

end Operand

@[simp] theorem Cell.printable_fullText (c : Cell) : Printable c.fullText := by
  obtain ⟨register, n⟩ := c
  cases register <;> simp +decide [Cell.fullText, Register.name]

@[simp] theorem Atom.printable_fullText (a : Atom) : Printable a.fullText := by
  cases a <;> simp [Atom.fullText]

@[simp] theorem Atom.printable_fullForm (a : Atom) : Printable a.fullForm := by
  cases a <;> simp +decide [Atom.fullForm]

@[simp] theorem Operation.printable_symbol (op : Operation) : Printable op.symbol := by
  cases op <;> decide

@[simp] theorem Operand.printable_fullText (o : Operand) : Printable o.fullText := by
  cases o <;> simp +decide [Operand.fullText]

@[simp] theorem Operand.printable_fullForm (o : Operand) : Printable o.fullForm := by
  unfold Operand.fullForm
  cases o <;> simp +decide

end CairoAsm
