import CairoAsm.Proofs.Listing.Rows

/-!
Listings with addresses. Only the line of a body starts with a digit, whatever the code of the hints
is, so such a listing falls into instructions again.
-/
namespace CairoAsm
open Text

namespace Listing

/-- A line with an address. -/
def Addressed (l : String) : Prop := ∃ c ∈ l.toList.head?, c.isDigit

theorem isDigit_of_mem_padded {width n : Nat} {c : Char} (h : c ∈ (padded width n).toList) :
    c.isDigit := by
  rw [padded, String.toList_ofList, List.leftpad, List.mem_append] at h
  rcases h with zero | digit
  · rw [List.eq_of_mem_replicate zero]
    rfl
  · exact isDigit_of_mem_repr digit

theorem length_padded {width n : Nat} (fits : n.repr.length ≤ width) :
    (padded width n).toList.length = width := by
  have digits : n.repr.toList.length = n.repr.length := rfl
  rw [padded, String.toList_ofList, List.length_leftpad]
  omega

theorem padded_ne_nil (width n : Nat) : (padded width n).toList ≠ [] := by
  rw [padded, String.toList_ofList, List.leftpad]
  simp

variable {s : Settings}

theorem bodyLine_of_showOffsets (on : s.showOffsets = true) (width offset size : Nat)
    (text : String) :
    (bodyLine s width offset size text).toList =
      (padded width offset).toList ++ ':' :: ' ' ::
        (text.toList ++ (if s.showSizes then "  // size " ++ size.repr else "").toList) := by
  simp [bodyLine, on]

theorem addressed_bodyLine (on : s.showOffsets = true) (width offset size : Nat)
    (text : String) : Addressed (bodyLine s width offset size text) := by
  obtain ⟨c, rest, start⟩ := List.exists_cons_of_ne_nil (padded_ne_nil width offset)
  refine ⟨c, ?_, isDigit_of_mem_padded (start ▸ List.mem_cons_self)⟩
  rw [bodyLine_of_showOffsets on, start]
  rfl

theorem hintLine_of_showOffsets (on : s.showOffsets = true) (width : Nat) (l : String) :
    (hintLine s width l).toList =
      if l = "" then [] else List.replicate (width + 2) ' ' ++ l.toList := by
  by_cases empty : l = ""
  · simp [hintLine, empty]
  · simp [hintLine, on, empty, blanks]

theorem not_addressed_hintLine (on : s.showOffsets = true) (width : Nat) (l : String) :
    ¬Addressed (hintLine s width l) := by
  rintro ⟨c, head, digit⟩
  rw [hintLine_of_showOffsets on] at head
  split at head
  · cases head
  · cases head
    cases digit

theorem hintLine_inj (on : s.showOffsets = true) {width : Nat} {l m : String}
    (h : hintLine s width l = hintLine s width m) : l = m := by
  have texts := congrArg String.toList h
  rw [hintLine_of_showOffsets on, hintLine_of_showOffsets on] at texts
  split at texts <;> split at texts
  · rename_i hl hm
    rw [hl, hm]
  · cases texts
  · cases texts
  · exact String.toList_inj.mp (List.append_cancel_left texts)

/-- What may follow a body starts with two blanks. -/
theorem remark_cases (s : Settings) (size : Nat) :
    (if s.showSizes then "  // size " ++ size.repr else "").toList = [] ∨
      ∃ t, (if s.showSizes then "  // size " ++ size.repr else "").toList = ' ' :: ' ' :: t := by
  split
  · exact .inr ⟨_, by rw [String.toList_append]; rfl⟩
  · exact .inl rfl

/-- A block shows how wide its listing sets addresses, so the same block is the same instruction in
every listing, up to where one hint ends and the next begins. -/
theorem block_inj (on : s.showOffsets = true) {width width' : Nat} {a b : Nat × Instruction}
    (fits : a.1.repr.length ≤ width) (fits' : b.1.repr.length ≤ width')
    (h : block s width a = block s width' b) :
    a.2.body = b.2.body ∧ a.2.incAp = b.2.incAp ∧ a.2.fullHintLines = b.2.fullHintLines := by
  simp only [block, Prod.mk.injEq] at h
  obtain ⟨above, line⟩ := h
  have texts := congrArg String.toList line
  rw [bodyLine_of_showOffsets on, bodyLine_of_showOffsets on] at texts
  obtain ⟨digits, after⟩ := digits_append_inj (fun _ => isDigit_of_mem_padded)
    (fun _ => isDigit_of_mem_padded) (noDigit_cons (by decide) _) (noDigit_cons (by decide) _) texts
  obtain rfl : width = width' := by rw [← length_padded fits, digits, length_padded fits']
  simp only [List.cons.injEq, true_and] at after
  obtain ⟨body, incAp, _⟩ := Instruction.fullLine_append_inj (remark_cases s _) (remark_cases s _)
    after
  exact ⟨body, incAp, List.map_injective_iff.mpr (fun _ _ => hintLine_inj on) above⟩

end Listing

namespace Program
variable {p q : Program} {s : Settings}

theorem addressed_of_mem_blocks (on : s.showOffsets = true) (width : Nat) :
    ∀ b ∈ p.placed.map (Listing.block s width),
      (∀ l ∈ b.1, ¬Listing.Addressed l) ∧ Listing.Addressed b.2 := by
  intro b member
  obtain ⟨⟨offset, i⟩, _, rfl⟩ := List.mem_map.mp member
  refine ⟨?_, Listing.addressed_bodyLine on width offset i.size i.fullLine⟩
  intro l above
  obtain ⟨hint, _, rfl⟩ := List.mem_map.mp above
  exact Listing.not_addressed_hintLine on width hint

theorem length_repr_le_addressWidth {offset : Nat} {i : Instruction}
    (h : (offset, i) ∈ p.placed) : offset.repr.length ≤ p.addressWidth :=
  Nat.le_trans (length_natRepr_le (le_size_of_mem_placed h)) (Nat.le_max_right _ _)

theorem instructions_alike_of_fullListing_eq (on : s.showOffsets = true)
    (h : p.fullListing s = q.fullListing s) :
    List.Forall₂
      (fun i j => i.body = j.body ∧ i.incAp = j.incAp ∧ i.fullHintLines = j.fullHintLines)
      p.instructions q.instructions := by
  have rows : (p.placed.map (Listing.block s p.addressWidth)).flatMap (fun b => b.1 ++ [b.2]) =
      (q.placed.map (Listing.block s q.addressWidth)).flatMap fun b => b.1 ++ [b.2] := by
    rw [List.flatMap_map, List.flatMap_map]
    exact fullLines_eq_of_fullListing_eq h
  have blocks := blocks_inj (addressed_of_mem_blocks on _)
    (addressed_of_mem_blocks on _) rows
  rw [← p.map_snd_placed, ← q.map_snd_placed, List.forall₂_map_left_iff,
    List.forall₂_map_right_iff]
  refine forall₂_imp_of_mem (forall₂_of_map_eq blocks) fun a here b there same => ?_
  exact Listing.block_inj on (length_repr_le_addressWidth here)
    (length_repr_le_addressWidth there) same

end Program

/-- A listing with addresses determines the program up to where one hint ends and the next begins,
even if the code of hints looks like a hint's end or like the line of a body. -/
theorem offset_listing_unambiguous {p q : Program} {s : Settings} {t : String}
    (on : s.showOffsets = true) (hp : (p.listing s).result = .ok t)
    (hq : (q.listing s).result = .ok t) :
    p.length = q.length ∧
      List.Forall₂ (fun i j => i.body = j.body ∧ i.incAp = j.incAp ∧ i.hintBlock = j.hintBlock)
        p.instructions q.instructions ∧
      p.offsets = q.offsets ∧ p.size = q.size := by
  obtain ⟨shortP, listedP⟩ := Program.listing_eq_ok_iff.mp hp
  obtain ⟨shortQ, listedQ⟩ := Program.listing_eq_ok_iff.mp hq
  have shown := Program.instructions_alike_of_fullListing_eq on (listedP.trans listedQ.symm)
  have bodies : List.Forall₂ (fun i j => i.body = j.body) p.instructions q.instructions :=
    shown.imp fun i j same => same.1
  have sizes : List.Forall₂ (fun i j => i.size = j.size) p.instructions q.instructions :=
    bodies.imp fun i j same => congrArg Body.size same
  have hints : List.Forall₂
      (fun i j => i.body = j.body ∧ i.incAp = j.incAp ∧ i.hintBlock = j.hintBlock)
      p.instructions q.instructions := by
    refine forall₂_imp_of_mem shown fun i hi j hj same => ⟨same.1, same.2.1, ?_⟩
    exact Instruction.hintBlock_congr (withinDigits_flatMap.mp shortP i hi)
      (withinDigits_flatMap.mp shortQ j hj) same.2.2
  exact ⟨shown.length_eq, hints, Program.offsets_congr bodies, Program.size_congr sizes⟩

/-- Two hints, and one whose code runs into a second and goes on as the line of a body. -/
theorem offset_listing_unambiguous_run_on :
    let split : Program := ⟨[⟨.ret, true, [.verbatim "a", .verbatim "0000: ret"]⟩]⟩
    let joined : Program := ⟨[⟨.ret, true, [.verbatim "a %\x7d\n%\x7b 0000: ret"]⟩]⟩
    let s : Settings := ⟨true, true, false⟩
    let t := "      %\x7b a %\x7d\n      %\x7b 0000: ret %\x7d\n0000: ret, ap++  // size 1"
    split ≠ joined ∧ s.showOffsets = true ∧ (split.listing s).result = .ok t ∧
      (joined.listing s).result = .ok t ∧ split.length = joined.length ∧
      List.Forall₂ (fun i j => i.body = j.body ∧ i.incAp = j.incAp ∧ i.hintBlock = j.hintBlock)
        split.instructions joined.instructions ∧
      split.offsets = joined.offsets ∧ split.size = joined.size := by
  intro split joined s t
  have shown : (split.listing s).result = .ok t := by decide
  have shown' : (joined.listing s).result = .ok t := by decide
  exact ⟨by decide, rfl, shown, shown', offset_listing_unambiguous rfl shown shown'⟩

end CairoAsm
