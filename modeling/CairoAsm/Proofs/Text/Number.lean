namespace CairoAsm.Text

/-- A text that starts with no digit, if it starts at all. -/
def NoDigit (r : List Char) : Prop := ∀ c ∈ r.head?, c.isDigit = false

theorem noDigit_nil : NoDigit [] := nofun

theorem noDigit_cons {c : Char} (h : c.isDigit = false) (r : List Char) : NoDigit (c :: r) := by
  rintro d hd
  cases hd
  exact h

theorem takeWhile_digits_append {ds r : List Char} (digits : ∀ c ∈ ds, c.isDigit)
    (ends : NoDigit r) : (ds ++ r).takeWhile Char.isDigit = ds := by
  rw [List.takeWhile_append_of_pos digits]
  cases r with
  | nil => simp
  | cons c r => rw [List.takeWhile_cons_of_neg (by simp [ends c rfl]), List.append_nil]

theorem digits_append_inj {ds es r s : List Char} (hd : ∀ c ∈ ds, c.isDigit)
    (he : ∀ c ∈ es, c.isDigit) (hr : NoDigit r) (hs : NoDigit s) (h : ds ++ r = es ++ s) :
    ds = es ∧ r = s := by
  induction ds generalizing es with
  | nil =>
    cases es with
    | nil => exact ⟨rfl, h⟩
    | cons e es =>
      obtain rfl : r = e :: (es ++ s) := h
      have digit := he e List.mem_cons_self
      have other := hr e rfl
      simp [digit] at other
  | cons d ds ih =>
    cases es with
    | nil =>
      obtain rfl : d :: (ds ++ r) = s := h
      have digit := hd d List.mem_cons_self
      have other := hs d rfl
      simp [digit] at other
    | cons e es =>
      obtain ⟨rfl, rest⟩ := List.cons.inj h
      obtain ⟨rfl, same⟩ := ih (fun c hc => hd c (List.mem_cons_of_mem d hc))
        (fun c hc => he c (List.mem_cons_of_mem d hc)) rest
      exact ⟨rfl, same⟩

theorem isDigit_of_mem_repr {n : Nat} {c : Char} (h : c ∈ n.repr.toList) : c.isDigit := by
  rw [Nat.toList_repr] at h
  exact Nat.isDigit_of_mem_toDigits (by decide) (by decide) h

theorem natRepr_inj {m n : Nat} (h : m.repr.toList = n.repr.toList) : m = n := by
  have value := congrArg (fun ds => Nat.ofDigitChars 10 ds 0) h
  simpa using value

theorem length_natRepr_le {m n : Nat} (h : m ≤ n) : m.repr.length ≤ n.repr.length := by
  have bound := (Nat.length_repr_le_iff Nat.length_repr_pos).mp (Nat.le_refl n.repr.length)
  exact (Nat.length_repr_le_iff Nat.length_repr_pos).mpr (Nat.lt_of_le_of_lt h bound)

/-- A number less than ten times as large has at most one digit more. -/
theorem length_natRepr_le_succ {m n : Nat} (h : n < 10 * (m + 1)) :
    n.repr.length ≤ m.repr.length + 1 := by
  have bound := (Nat.length_repr_le_iff Nat.length_repr_pos).mp (Nat.le_refl m.repr.length)
  have next : 10 * (m + 1) ≤ 10 ^ (m.repr.length + 1) := by
    rw [Nat.pow_succ]
    omega
  exact (Nat.length_repr_le_iff (Nat.succ_pos _)).mpr (Nat.lt_of_lt_of_le h next)

theorem natRepr_append_ne_cons (n : Nat) {c : Char} (digit : c.isDigit = false)
    (r s : List Char) : n.repr.toList ++ r ≠ c :: s := by
  intro same
  obtain ⟨d, rest, start⟩ := List.exists_cons_of_ne_nil (show n.repr.toList ≠ [] by simp)
  rw [start] at same
  obtain ⟨rfl, _⟩ := List.cons.inj same
  have isDigit : d.isDigit := isDigit_of_mem_repr (start ▸ List.mem_cons_self)
  simp [digit] at isDigit

theorem toList_repr_negSucc (m : Nat) :
    (Int.negSucc m).repr.toList = '-' :: (m + 1).repr.toList := by
  simp [Int.repr]

/-- A number starts with a minus or a digit. -/
theorem repr_append_ne_cons (n : Int) {c : Char} (sign : c ≠ '-') (digit : c.isDigit = false)
    (r s : List Char) : n.repr.toList ++ r ≠ c :: s := by
  cases n with
  | ofNat m => exact natRepr_append_ne_cons m digit r s
  | negSucc m =>
    intro same
    rw [toList_repr_negSucc] at same
    exact sign (List.cons.inj same).1.symm

theorem natRepr_append_inj {m n : Nat} {r s : List Char} (hr : NoDigit r) (hs : NoDigit s)
    (h : m.repr.toList ++ r = n.repr.toList ++ s) : m = n ∧ r = s := by
  obtain ⟨same, rest⟩ := digits_append_inj (fun _ => isDigit_of_mem_repr)
    (fun _ => isDigit_of_mem_repr) hr hs h
  exact ⟨natRepr_inj same, rest⟩

/-- A number and what follows it are determined by the text of both. -/
theorem repr_append_inj {m n : Int} {r s : List Char} (hr : NoDigit r) (hs : NoDigit s)
    (h : m.repr.toList ++ r = n.repr.toList ++ s) : m = n ∧ r = s := by
  cases m with
  | ofNat a =>
    cases n with
    | ofNat b =>
      obtain ⟨rfl, rest⟩ := natRepr_append_inj hr hs h
      exact ⟨rfl, rest⟩
    | negSucc b =>
      rw [toList_repr_negSucc, List.cons_append] at h
      exact absurd h (natRepr_append_ne_cons a (by decide) r _)
  | negSucc a =>
    cases n with
    | ofNat b =>
      rw [toList_repr_negSucc, List.cons_append] at h
      exact absurd h.symm (natRepr_append_ne_cons b (by decide) s _)
    | negSucc b =>
      rw [toList_repr_negSucc, toList_repr_negSucc] at h
      obtain ⟨same, rest⟩ := natRepr_append_inj hr hs (List.cons.inj h).2
      obtain rfl : a = b := Nat.succ.inj same
      exact ⟨rfl, rest⟩

end CairoAsm.Text
