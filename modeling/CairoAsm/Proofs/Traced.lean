import CairoAsm.Event
import Mathlib.Data.List.Forall2

/-!
How computations that can fail compose: a sequence succeeds exactly if each part does, else it fails
as its first part that does not. The reports of a traced computation have no part in its result, but
they tell how far it came.
-/
namespace CairoAsm

theorem bind_eq_ok_iff {x : Except ε α} {f : α → Except ε β} {b : β} :
    x >>= f = .ok b ↔ ∃ a, x = .ok a ∧ f a = .ok b := by
  cases x with
  | error e => simp [Bind.bind, Except.bind]
  | ok a => simp [Bind.bind, Except.bind]

theorem bind_eq_error_iff {x : Except ε α} {f : α → Except ε β} {e : ε} :
    x >>= f = .error e ↔ x = .error e ∨ ∃ a, x = .ok a ∧ f a = .error e := by
  cases x with
  | error e' => simp [Bind.bind, Except.bind]
  | ok a => simp [Bind.bind, Except.bind]

theorem ok_bind (a : α) (f : α → Except ε β) : Except.ok a >>= f = f a := rfl

theorem pure_eq_ok_iff {a b : α} : (pure a : Except ε α) = .ok b ↔ a = b := by
  simp [pure, Except.pure]

theorem throw_eq_ok_iff {e : ε} {a : α} : (throw e : Except ε α) = .ok a ↔ False :=
  ⟨nofun, False.elim⟩

theorem map_eq_ok_iff {x : Except ε α} {f : α → β} {b : β} :
    x.map f = .ok b ↔ ∃ a, x = .ok a ∧ f a = b := by
  cases x with
  | error e => simp [Except.map]
  | ok a => simp [Except.map]

theorem mapError_eq_ok_iff {x : Except ε α} {f : ε → δ} {a : α} :
    x.mapError f = .ok a ↔ x = .ok a := by
  cases x with
  | error e => simp [Except.mapError]
  | ok a => simp [Except.mapError]

theorem mapError_eq_error_iff {x : Except ε α} {f : ε → δ} {d : δ} :
    x.mapError f = .error d ↔ ∃ e, x = .error e ∧ f e = d := by
  cases x with
  | error e => simp [Except.mapError]
  | ok a => simp [Except.mapError]

theorem mapError_bind (x : Except ε α) (f : α → Except ε β) (g : ε → δ) :
    (x >>= f).mapError g = x.mapError g >>= fun a => (f a).mapError g := by
  cases x <;> rfl

theorem mapError_pure (a : α) (g : ε → δ) : (pure a : Except ε α).mapError g = pure a := rfl

/-- A list of computations succeeds exactly if each of them does. -/
theorem mapM_eq_ok_iff {f : α → Except ε β} {xs : List α} {ys : List β} :
    xs.mapM f = .ok ys ↔ List.Forall₂ (fun x y => f x = .ok y) xs ys := by
  induction xs generalizing ys with
  | nil => rw [List.mapM_nil, pure_eq_ok_iff, List.forall₂_nil_left_iff, eq_comm]
  | cons x xs ih =>
    simp only [List.mapM_cons, bind_eq_ok_iff, pure_eq_ok_iff, List.forall₂_cons_left_iff, ih]
    constructor
    · rintro ⟨y, hy, rest, hrest, rfl⟩
      exact ⟨y, rest, hy, hrest, rfl⟩
    · rintro ⟨y, rest, hy, hrest, rfl⟩
      exact ⟨y, hy, rest, hrest, rfl⟩

/-- Some results exist exactly if every item has one. -/
theorem exists_mapM_eq_ok_iff {f : α → Except ε β} {xs : List α} :
    (∃ ys, xs.mapM f = .ok ys) ↔ ∀ x ∈ xs, ∃ y, f x = .ok y := by
  simp only [mapM_eq_ok_iff]
  induction xs with
  | nil => simp
  | cons x xs ih =>
    simp only [List.forall₂_cons_left_iff, List.forall_mem_cons, ← ih]
    constructor
    · rintro ⟨_, y, rest, hy, hrest, _⟩
      exact ⟨⟨y, hy⟩, rest, hrest⟩
    · rintro ⟨⟨y, hy⟩, rest, hrest⟩
      exact ⟨y :: rest, y, rest, hy, hrest, rfl⟩

/-- How a computation failed, if it did. -/
def errorOf : Except ε α → Option ε
  | .ok _ => none
  | .error e => some e

theorem errorOf_eq_some_iff {x : Except ε α} {e : ε} : errorOf x = some e ↔ x = .error e := by
  cases x <;> simp [errorOf]

theorem errorOf_map (x : Except ε α) (f : α → β) : errorOf (x.map f) = errorOf x := by
  cases x <;> rfl

theorem errorOf_mapError (x : Except ε α) (g : ε → δ) :
    errorOf (x.mapError g) = (errorOf x).map g := by
  cases x <;> rfl

/-- What follows may depend on the value so far, as long as its failure does not. -/
theorem errorOf_bind {x : Except ε α} {f : α → Except ε β} {later : Option ε}
    (rest : ∀ a, x = .ok a → errorOf (f a) = later) :
    errorOf (x >>= f) = (errorOf x).or later := by
  cases x with
  | error e => rfl
  | ok a => exact rest a rfl

theorem errorOf_bind_pure (x : Except ε α) (g : α → β) :
    errorOf (x >>= fun a => pure (g a)) = errorOf x := by
  cases x <;> rfl

theorem errorOf_mapM {f : α → Except ε β} {xs : List α} :
    errorOf (xs.mapM f) = xs.findSome? fun x => errorOf (f x) := by
  induction xs with
  | nil => rfl
  | cons x xs ih =>
    have rest (y : β) : errorOf (xs.mapM f >>= fun ys => pure (y :: ys)) =
        xs.findSome? fun x => errorOf (f x) := (errorOf_bind_pure _ _).trans ih
    rw [List.mapM_cons, List.findSome?_cons, errorOf_bind fun y _ => rest y]
    cases errorOf (f x) <;> rfl

namespace Traced

@[simp] theorem result_pure (a : α) : (pure a : Traced ε α).result = .ok a := rfl

@[simp] theorem result_lift (r : Except ε α) : (lift r).result = r := rfl

@[simp] theorem result_report (e : Event) : (report e : Traced ε Unit).result = .ok () := rfl

@[simp] theorem result_map (f : α → β) (x : Traced ε α) :
    (x.map f).result = x.result.map f := rfl

@[simp] theorem result_mapError (f : ε → δ) (x : Traced ε α) :
    (x.mapError f).result = x.result.mapError f := rfl

@[simp] theorem result_bind (x : Traced ε α) (f : α → Traced ε β) :
    (x >>= f).result = x.result >>= fun a => (f a).result := by
  cases h : x.result with
  | error e => rw [bind_of_error h]; rfl
  | ok a => rw [bind_of_ok h]; rfl

/-- What reports nothing leaves the reports before it. -/
theorem log_bind_of_nil (x : Traced ε α) {f : α → Traced ε β} (silent : ∀ a, (f a).log = []) :
    (x >>= f).log = x.log := by
  cases h : x.result with
  | error e => rw [bind_of_error h]
  | ok a => rw [bind_of_ok h, silent a, List.append_nil]

theorem result_mapM (f : α → Traced ε β) (xs : List α) :
    (xs.mapM f).result = xs.mapM fun x => (f x).result := by
  induction xs with
  | nil => rfl
  | cons x xs ih =>
    simp only [List.mapM_cons, result_bind, ih]
    rfl

/-- Items that give the same one by one make the same sequence. -/
theorem mapM_eq_of_forall₂ {f : α → Traced ε β} {R : α → α → Prop} {xs ys : List α}
    (alike : List.Forall₂ R xs ys) (step : ∀ x y, R x y → f x = f y) : xs.mapM f = ys.mapM f := by
  induction alike with
  | nil => rfl
  | cons first _ ih => simp only [List.mapM_cons, step _ _ first, ih]

section
variable {f : α → Traced ε β} {xs before after : List α} {ys : List β} {x : α} {e : ε}

/-- The parts of a sequence that are run: those up to the first that fails, and that one too. -/
def reached (f : α → Traced ε β) : List α → List α
  | [] => []
  | x :: xs =>
    match (f x).result with
    | .ok _ => x :: reached f xs
    | .error _ => [x]

/-- A sequence reports what the parts that are run report. -/
theorem log_mapM (f : α → Traced ε β) (xs : List α) :
    (xs.mapM f).log = (reached f xs).flatMap fun x => (f x).log := by
  induction xs with
  | nil => rfl
  | cons x xs ih =>
    cases first : (f x).result with
    | error e =>
      simp only [List.mapM_cons, bind_of_error first, reached, first, List.flatMap_cons,
        List.flatMap_nil, List.append_nil]
    | ok y =>
      simp only [List.mapM_cons, bind_of_ok first, reached, first, List.flatMap_cons, ← ih]
      cases rest : (xs.mapM f).result with
      | error e => simp only [bind_of_error rest]
      | ok ys => simp only [bind_of_ok rest, pure, List.append_nil]

theorem reached_of_ok (each : List.Forall₂ (fun x y => (f x).result = .ok y) xs ys) :
    reached f xs = xs := by
  induction each with
  | nil => rfl
  | cons first _ ih => simp only [reached, first, ih]

theorem reached_append (each : List.Forall₂ (fun x y => (f x).result = .ok y) before ys)
    (failed : (f x).result = .error e) : reached f (before ++ x :: after) = before ++ [x] := by
  induction each with
  | nil => simp only [List.nil_append, reached, failed]
  | cons first _ ih => simp only [List.cons_append, reached, first, ih]

theorem result_mapM_append (each : List.Forall₂ (fun x y => (f x).result = .ok y) before ys)
    (failed : (f x).result = .error e) :
    ((before ++ x :: after).mapM f).result = .error e := by
  induction each with
  | nil => simp only [List.nil_append, List.mapM_cons, bind_of_error failed]
  | cons first _ ih =>
    simp only [List.cons_append, List.mapM_cons, bind_of_ok first, bind_of_error ih]

/-- Every part succeeds, or there is a first that fails. -/
theorem all_ok_or_first_error (f : α → Traced ε β) (xs : List α) :
    (∃ ys, List.Forall₂ (fun x y => (f x).result = .ok y) xs ys) ∨
      ∃ before ys x e after, xs = before ++ x :: after ∧
        List.Forall₂ (fun x y => (f x).result = .ok y) before ys ∧ (f x).result = .error e := by
  induction xs with
  | nil => exact .inl ⟨[], .nil⟩
  | cons x xs ih =>
    cases first : (f x).result with
    | error e => exact .inr ⟨[], [], x, e, xs, rfl, .nil, first⟩
    | ok y =>
      cases ih with
      | inl all =>
        obtain ⟨ys, each⟩ := all
        exact .inl ⟨y :: ys, .cons first each⟩
      | inr some =>
        obtain ⟨before, ys, bad, e, after, rfl, each, failed⟩ := some
        exact .inr ⟨x :: before, y :: ys, bad, e, after, rfl, .cons first each, failed⟩
end

end Traced
end CairoAsm
