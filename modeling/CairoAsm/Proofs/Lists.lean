import Mathlib.Data.List.Forall2

namespace CairoAsm

theorem forall₂_imp_of_mem {α β : Type} {R S : α → β → Prop} {as : List α} {bs : List β}
    (h : List.Forall₂ R as bs) (step : ∀ a ∈ as, ∀ b ∈ bs, R a b → S a b) :
    List.Forall₂ S as bs := by
  refine List.forall₂_iff_zip.mpr ⟨h.length_eq, fun {a b} paired => ?_⟩
  obtain ⟨here, there⟩ := List.of_mem_zip paired
  exact step a here b there (List.forall₂_zip h paired)

theorem forall₂_and_right_iff {α β : Type} {R : α → β → Prop} {p : β → Prop} {as : List α}
    {bs : List β} :
    List.Forall₂ (fun a b => R a b ∧ p b) as bs ↔ List.Forall₂ R as bs ∧ ∀ b ∈ bs, p b := by
  constructor
  · intro each
    induction each with
    | nil => exact ⟨.nil, List.forall_mem_nil _⟩
    | cons first _ ih =>
      exact ⟨.cons first.1 ih.1, List.forall_mem_cons.mpr ⟨first.2, ih.2⟩⟩
  · rintro ⟨each, all⟩
    induction each with
    | nil => exact .nil
    | cons first _ ih =>
      obtain ⟨here, later⟩ := List.forall_mem_cons.mp all
      exact .cons ⟨first, here⟩ (ih later)

theorem forall₂_exists_of_mem {α β : Type} {R : α → β → Prop} {as : List α} {bs : List β}
    (h : List.Forall₂ R as bs) {a : α} (member : a ∈ as) : ∃ b ∈ bs, R a b := by
  induction h with
  | nil => exact absurd member List.not_mem_nil
  | cons first _ ih =>
    rcases List.mem_cons.mp member with rfl | later
    · exact ⟨_, List.mem_cons_self, first⟩
    · obtain ⟨b, there, related⟩ := ih later
      exact ⟨b, List.mem_cons_of_mem _ there, related⟩

/-- Equal images in equal places. -/
theorem forall₂_of_map_eq {α β γ : Type} {f : α → γ} {g : β → γ} {as : List α} {bs : List β}
    (h : as.map f = bs.map g) : List.Forall₂ (fun a b => f a = g b) as bs := by
  rwa [← List.forall₂_eq_eq_eq, List.forall₂_map_left_iff, List.forall₂_map_right_iff] at h

section
variable {α : Type} {last : α → Prop}

theorem append_last_inj {xs ys r s : List α} {x y : α} (hxs : ∀ l ∈ xs, ¬last l)
    (hys : ∀ l ∈ ys, ¬last l) (hx : last x) (hy : last y) (h : xs ++ x :: r = ys ++ y :: s) :
    xs = ys ∧ x = y ∧ r = s := by
  induction xs generalizing ys with
  | nil =>
    cases ys with
    | nil =>
      obtain ⟨rfl, rfl⟩ := List.cons.inj h
      exact ⟨rfl, rfl, rfl⟩
    | cons l ys =>
      obtain rfl : x = l := (List.cons.inj h).1
      exact absurd hx (hys x List.mem_cons_self)
  | cons l xs ih =>
    cases ys with
    | nil =>
      obtain rfl : l = y := (List.cons.inj h).1
      exact absurd hy (hxs l List.mem_cons_self)
    | cons m ys =>
      obtain ⟨rfl, tails⟩ := List.cons.inj h
      obtain ⟨rfl, rest⟩ := ih (fun l hl => hxs l (List.mem_cons_of_mem _ hl))
        (fun l hl => hys l (List.mem_cons_of_mem _ hl)) tails
      exact ⟨rfl, rest⟩

/-- Blocks that each end with the first line of a certain kind are found again in a row of them. -/
theorem blocks_inj {bs cs : List (List α × α)} (hbs : ∀ b ∈ bs, (∀ l ∈ b.1, ¬last l) ∧ last b.2)
    (hcs : ∀ c ∈ cs, (∀ l ∈ c.1, ¬last l) ∧ last c.2)
    (h : (bs.flatMap fun b => b.1 ++ [b.2]) = cs.flatMap fun c => c.1 ++ [c.2]) : bs = cs := by
  induction bs generalizing cs with
  | nil =>
    cases cs with
    | nil => rfl
    | cons c cs => simp at h
  | cons b bs ih =>
    cases cs with
    | nil => simp at h
    | cons c cs =>
      rw [List.flatMap_cons, List.flatMap_cons, List.append_assoc, List.append_assoc] at h
      obtain ⟨hb, hbs⟩ := List.forall_mem_cons.mp hbs
      obtain ⟨hc, hcs⟩ := List.forall_mem_cons.mp hcs
      obtain ⟨above, line, rest⟩ := append_last_inj hb.1 hc.1 hb.2 hc.2 h
      rw [Prod.ext above line, ih hbs hcs rest]

end
end CairoAsm
