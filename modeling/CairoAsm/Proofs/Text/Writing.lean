import CairoAsm.Text.Number

namespace CairoAsm

/-- No number has more than `limit` digits. -/
def WithinDigits (limit : Nat) (ns : List Int) : Prop := ∀ n ∈ ns, n.natAbs.repr.length ≤ limit

section
variable {limit : Nat}

instance (ns : List Int) : Decidable (WithinDigits limit ns) :=
  inferInstanceAs (Decidable (∀ n ∈ ns, n.natAbs.repr.length ≤ limit))

@[simp] theorem withinDigits_nil : WithinDigits limit [] := List.forall_mem_nil _

@[simp] theorem withinDigits_singleton {n : Int} :
    WithinDigits limit [n] ↔ n.natAbs.repr.length ≤ limit :=
  List.forall_mem_singleton

@[simp] theorem withinDigits_append {ms ns : List Int} :
    WithinDigits limit (ms ++ ns) ↔ WithinDigits limit ms ∧ WithinDigits limit ns :=
  List.forall_mem_append

theorem withinDigits_flatMap {f : α → List Int} {xs : List α} :
    WithinDigits limit (xs.flatMap f) ↔ ∀ x ∈ xs, WithinDigits limit (f x) :=
  List.forall_mem_flatMap

theorem WithinDigits.mono {ms ns : List Int} (short : WithinDigits limit ns) (part : ms ⊆ ns) :
    WithinDigits limit ms :=
  fun n member => short n (part member)

end

/-- The least number that is too long to be written. -/
def tooLong : Int := Nat.pow 10 digitLimit

theorem not_length_repr_pow_le {k : Nat} (positive : 0 < k) : ¬(Nat.pow 10 k).repr.length ≤ k := by
  intro fits
  exact Nat.lt_irrefl (Nat.pow 10 k) ((Nat.length_repr_le_iff positive).mp fits)

theorem not_withinDigits_of_tooLong_mem {ns : List Int} (member : tooLong ∈ ns) :
    ¬WithinDigits digitLimit ns := by
  intro short
  have fits := short tooLong member
  rw [tooLong, Int.natAbs_natCast] at fits
  exact not_length_repr_pow_le (by decide) fits

/-- What is made while the numbers `ns` are written. -/
def showing (ns : List Int) (a : α) : Writing α :=
  if WithinDigits digitLimit ns then .ok a else .error ⟨⟩

theorem decimal_eq (n : Int) : decimal n = showing [n] n.repr := by
  simp [decimal, showing]

theorem pure_eq_showing (a : α) : (pure a : Writing α) = showing [] a := by
  simp [showing, pure, Except.pure]

section
variable {ms ns : List Int} {a : α} {b : β}

theorem showing_of_short (short : WithinDigits digitLimit ns) : showing ns a = .ok a :=
  if_pos short

theorem showing_of_long (long : ¬WithinDigits digitLimit ns) : showing ns a = .error ⟨⟩ :=
  if_neg long

theorem showing_eq_ok_iff {a' : α} :
    showing ns a = .ok a' ↔ WithinDigits digitLimit ns ∧ a = a' := by
  unfold showing
  split <;> simp [*]

@[simp] theorem map_showing (f : α → β) : f <$> showing ns a = showing ns (f a) := by
  unfold showing
  split <;> rfl

@[simp] theorem showing_bind_showing (f : α → β) :
    (showing ms a >>= fun x => showing ns (f x)) = showing (ms ++ ns) (f a) := by
  by_cases first : WithinDigits digitLimit ms
  · simp only [showing, withinDigits_append, first, true_and, if_true]
    rfl
  · simp only [showing, withinDigits_append, first, false_and, if_false]
    rfl

/-- Numbers that are written twice make no difference. -/
theorem showing_bind_of_subset {f : α → Writing β} (part : ms ⊆ ns) (rest : f a = showing ns b) :
    showing ms a >>= f = showing ns b := by
  by_cases short : WithinDigits digitLimit ms
  · rw [showing_of_short short]
    exact rest
  · rw [showing_of_long short, showing_of_long fun all => short (all.mono part)]
    rfl

theorem mapM_showing (f : α → β) (ns : α → List Int) (xs : List α) :
    (xs.mapM fun x => showing (ns x) (f x)) = showing (xs.flatMap ns) (xs.map f) := by
  induction xs with
  | nil => exact pure_eq_showing _
  | cons x xs ih =>
    rw [List.mapM_cons, ih]
    simp only [bind_pure_comp, map_showing, showing_bind_showing, List.flatMap_cons, List.map_cons]

end
end CairoAsm
