import CairoAsm.Proofs.Hint
import CairoAsm.Proofs.Listing.Rows

/-!
Plain listings, of nothing but texts. Hints show where they end unless given code has a line break,
and no line of a body starts as a hint does, so the listing falls into hints and bodies again.
-/
namespace CairoAsm
open Text

namespace Instruction

theorem fullLine_head (i : Instruction) : i.fullLine.toList.head? ≠ some '%' := by
  obtain ⟨rest, start⟩ := i.fullLine_eq_cons
  rw [start]
  exact fun brace => i.body.initial_plain.1 (Option.some.inj brace)

/-- The lines of an instruction determine it up to how its hints come to their code. -/
theorem lines_append_inj {i j : Instruction} (hi : ∀ h ∈ i.hints, h.Unbroken)
    (hj : ∀ h ∈ j.hints, h.Unbroken) {r s : List String}
    (same : i.fullHintLines ++ i.fullLine :: r = j.fullHintLines ++ j.fullLine :: s) :
    (i.body = j.body ∧ i.incAp = j.incAp ∧
      i.hints.map Hint.fullCode = j.hints.map Hint.fullCode) ∧ r = s := by
  obtain ⟨codes, line, rest⟩ :=
    Hint.flatMap_lines_append_inj hi hj i.fullLine_head j.fullLine_head same
  obtain ⟨body, incAp⟩ := fullLine_inj.mp line
  exact ⟨⟨body, incAp, codes⟩, rest⟩

end Instruction

theorem Hint.map_code_eq {hs : List Hint} (short : ∀ h ∈ hs, WithinDigits digitLimit h.integers) :
    hs.map Hint.code = (hs.map Hint.fullCode).map Except.ok := by
  rw [List.map_map]
  apply List.map_congr_left
  intro h member
  rw [h.code_eq, showing_of_short (short h member)]
  rfl

namespace Program

theorem fullLines_plain (p : Program) :
    p.fullLines {} = p.instructions.flatMap fun i => i.fullHintLines ++ [i.fullLine] := by
  have plain (placed : Nat × Instruction) : Listing.fullLines {} p.addressWidth placed =
      placed.2.fullHintLines ++ [placed.2.fullLine] := by
    have unmoved : Listing.hintLine {} p.addressWidth = id := by
      funext l
      simp [Listing.hintLine]
    simp [Listing.fullLines, Listing.block, Listing.bodyLine, unmoved]
  rw [fullLines, funext plain]
  conv_rhs => rw [← p.map_snd_placed, List.flatMap_map]

theorem codes_eq_of_lines_eq {is js : List Instruction}
    (his : ∀ i ∈ is, ∀ h ∈ i.hints, h.Unbroken) (hjs : ∀ j ∈ js, ∀ h ∈ j.hints, h.Unbroken)
    (same : (is.flatMap fun i => i.fullHintLines ++ [i.fullLine]) =
      js.flatMap fun j => j.fullHintLines ++ [j.fullLine]) :
    List.Forall₂ (fun i j => i.body = j.body ∧ i.incAp = j.incAp ∧
      i.hints.map Hint.fullCode = j.hints.map Hint.fullCode) is js := by
  induction is generalizing js with
  | nil =>
    cases js with
    | nil => exact .nil
    | cons j js => simp at same
  | cons i is ih =>
    cases js with
    | nil => simp at same
    | cons j js =>
      obtain ⟨hi, his⟩ := List.forall_mem_cons.mp his
      obtain ⟨hj, hjs⟩ := List.forall_mem_cons.mp hjs
      rw [List.flatMap_cons, List.flatMap_cons, List.append_assoc, List.append_assoc] at same
      obtain ⟨first, rest⟩ := Instruction.lines_append_inj hi hj same
      exact .cons first (ih his hjs rest)

theorem withinDigits_hints {p : Program} (short : WithinDigits digitLimit p.integers) :
    ∀ i ∈ p.instructions, ∀ h ∈ i.hints, WithinDigits digitLimit h.integers := by
  intro i member
  have parts := withinDigits_flatMap.mp short i member
  simp only [Instruction.integers, withinDigits_append] at parts
  exact withinDigits_flatMap.mp parts.1

end Program

/-- A plain listing determines the program if given code keeps to one line, except that given code
can be the same as the code that operands make. That of two choices of operands never is. -/
theorem plain_listing_unambiguous {p q : Program} {t : String}
    (hp : ∀ i ∈ p.instructions, ∀ h ∈ i.hints, h.Unbroken)
    (hq : ∀ i ∈ q.instructions, ∀ h ∈ i.hints, h.Unbroken) (shown : p.text.result = .ok t)
    (shown' : q.text.result = .ok t) :
    p.length = q.length ∧
      List.Forall₂ (fun i j => i.body = j.body ∧ i.incAp = j.incAp ∧
        i.hints.map Hint.code = j.hints.map Hint.code) p.instructions q.instructions ∧
      ((∀ i ∈ p.instructions, ∀ h ∈ i.hints, h.Structured) →
        (∀ i ∈ q.instructions, ∀ h ∈ i.hints, h.Structured) → p = q) ∧
      ∀ (h k : Hint) (code : String), h.Structured → k.Structured → h.code = .ok code →
        k.code = .ok code → h = k := by
  obtain ⟨short, listed⟩ := Program.listing_eq_ok_iff.mp shown
  obtain ⟨short', listed'⟩ := Program.listing_eq_ok_iff.mp shown'
  have rows := Program.fullLines_eq_of_fullListing_eq (listed.trans listed'.symm)
  rw [Program.fullLines_plain, Program.fullLines_plain] at rows
  have alike := Program.codes_eq_of_lines_eq hp hq rows
  refine ⟨alike.length_eq, ?_, fun structured structured' => ?_, ?_⟩
  · refine forall₂_imp_of_mem alike fun i hi j hj parts => ⟨parts.1, parts.2.1, ?_⟩
    rw [Hint.map_code_eq (Program.withinDigits_hints short i hi),
      Hint.map_code_eq (Program.withinDigits_hints short' j hj), parts.2.2]
  · have instructions : p.instructions = q.instructions := by
      rw [← List.forall₂_eq_eq_eq]
      refine forall₂_imp_of_mem alike fun i hi j hj parts => ?_
      have hints := Hint.map_fullCode_inj (structured i hi) (structured' j hj) parts.2.2
      rw [show i = ⟨i.body, i.incAp, i.hints⟩ from rfl, parts.1, parts.2.1, hints]
    exact congrArg Program.mk instructions
  · intro h k code hh hk codeH codeK
    rw [Hint.code_eq, showing_eq_ok_iff] at codeH codeK
    exact Hint.fullCode_inj hh hk (codeH.2.trans codeK.2.symm)

/-- Given code that operands could have made, before a hint of several lines. -/
theorem plain_listing_unambiguous_segment :
    let root : Hint := .squareRoot (.atom (.immediate 9)) ⟨.fp, -3⟩
    let given : Program :=
      ⟨[⟨.ret, false, [.verbatim "memory[ap + 0] = segments.add()", root]⟩]⟩
    let made : Program := ⟨[⟨.ret, false, [.allocSegment ⟨.ap, 0⟩, root]⟩]⟩
    let t := "%\x7b memory[ap + 0] = segments.add() %\x7d\n%\x7b\nimport math\n"
      ++ "memory[fp + -3] = math.isqrt(9)\n%\x7d\nret"
    given ≠ made ∧ given.text.result = .ok t ∧ made.text.result = .ok t ∧
      (∀ i ∈ given.instructions, ∀ h ∈ i.hints, h.Unbroken) ∧
      (∀ i ∈ made.instructions, ∀ h ∈ i.hints, h.Unbroken) ∧
      (∀ i ∈ made.instructions, ∀ h ∈ i.hints, h.Structured) ∧
      given.length = made.length ∧
      List.Forall₂ (fun i j => i.body = j.body ∧ i.incAp = j.incAp ∧
        i.hints.map Hint.code = j.hints.map Hint.code) given.instructions made.instructions := by
  intro root given made t
  have shown : given.text.result = .ok t := by decide +kernel
  have shown' : made.text.result = .ok t := by decide +kernel
  have unbroken : ∀ i ∈ given.instructions, ∀ h ∈ i.hints, h.Unbroken := by decide
  have unbroken' : ∀ i ∈ made.instructions, ∀ h ∈ i.hints, h.Unbroken := by decide
  obtain ⟨length, alike, _⟩ := plain_listing_unambiguous unbroken unbroken' shown shown'
  exact ⟨by decide, shown, shown', unbroken, unbroken', by decide, length, alike⟩

end CairoAsm
