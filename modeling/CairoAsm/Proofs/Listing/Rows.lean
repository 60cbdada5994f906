import CairoAsm.Listing
import CairoAsm.Proofs.Instruction
import CairoAsm.Proofs.Program
import CairoAsm.Proofs.Text.Lines

namespace CairoAsm
open Text

namespace Instruction

/-- The texts of the hints, one below the other. -/
def hintBlock (i : Instruction) : Writing String := do return unlines (← i.hints.mapM Hint.text)

def hintLines (i : Instruction) : Writing (List String) := do
  return (← i.hints.mapM Hint.text).flatMap lines

def fullHintLines (i : Instruction) : List String := i.hints.flatMap fun h => lines h.fullText

theorem mapM_hintText (hs : List Hint) :
    hs.mapM Hint.text = showing (hs.flatMap Hint.integers) (hs.map Hint.fullText) := by
  rw [funext Hint.text_eq, mapM_showing]

theorem hintLines_eq (i : Instruction) :
    i.hintLines = showing (i.hints.flatMap Hint.integers) i.fullHintLines := by
  simp only [hintLines, mapM_hintText, bind_pure_comp, map_showing, List.flatMap_map, fullHintLines]

theorem hintBlock_eq (i : Instruction) :
    i.hintBlock = showing (i.hints.flatMap Hint.integers) (unlines i.fullHintLines) := by
  have joined := unlines_flatMap_lines (i.hints.map Hint.fullText)
  rw [List.flatMap_map] at joined
  simp only [hintBlock, mapM_hintText, bind_pure_comp, map_showing, fullHintLines, joined]

theorem lines_fullLine (i : Instruction) : lines i.fullLine = [i.fullLine] :=
  lines_of_newline_notMem i.printable_fullLine.newline_notMem

theorem lines_fullText (i : Instruction) :
    lines i.fullText = i.fullHintLines ++ [i.fullLine] := by
  have nonempty : i.hints.map Hint.fullText ++ [i.fullLine] ≠ [] := by simp
  have cut := lines_unlines_eq_flatMap nonempty
  rw [List.flatMap_append, List.flatMap_map, List.flatMap_singleton, lines_fullLine] at cut
  exact cut

/-- The lines of the hints and the line of the body are all that a text has. -/
theorem fullText_eq_iff {i j : Instruction} :
    i.fullText = j.fullText ↔ i.fullHintLines = j.fullHintLines ∧ i.fullLine = j.fullLine := by
  constructor
  · intro same
    have cut := congrArg lines same
    simp only [lines_fullText] at cut
    have parts := List.append_inj' cut rfl
    exact ⟨parts.1, List.singleton_inj.mp parts.2⟩
  · intro ⟨above, line⟩
    have joined := congrArg unlines (show lines i.fullText = lines j.fullText by
      simp only [lines_fullText, above, line])
    simpa only [unlines_lines] using joined

theorem text_eq_ok_iff {i : Instruction} {t : String} :
    i.text = .ok t ↔ WithinDigits digitLimit i.integers ∧ i.fullText = t := by
  rw [text_eq, showing_eq_ok_iff]

/-- Instructions that can be written have the same hint lines if their full ones are the same. -/
theorem hintLines_eq_iff {i j : Instruction} (hi : WithinDigits digitLimit i.integers)
    (hj : WithinDigits digitLimit j.integers) :
    i.hintLines = j.hintLines ↔ i.fullHintLines = j.fullHintLines := by
  simp only [integers, withinDigits_append] at hi hj
  rw [hintLines_eq, hintLines_eq, showing_of_short hi.1, showing_of_short hj.1, Except.ok.injEq]

theorem hintBlock_congr {i j : Instruction} (hi : WithinDigits digitLimit i.integers)
    (hj : WithinDigits digitLimit j.integers) (same : i.fullHintLines = j.fullHintLines) :
    i.hintBlock = j.hintBlock := by
  simp only [integers, withinDigits_append] at hi hj
  rw [hintBlock_eq, hintBlock_eq, showing_of_short hi.1, showing_of_short hj.1, same]

end Instruction

/-- The text of an instruction determines its body and whether `ap` moves on, and so its size,
whatever the code of its hints is. The hints are determined up to where one ends and the next
begins. -/
theorem instruction_text_determines_body :
    (∀ (i j : Instruction) (t u : String), i.text = .ok t → j.text = .ok u →
      (t = u ↔ i.body = j.body ∧ i.incAp = j.incAp ∧ i.hintLines = j.hintLines)) ∧
    (∀ (i j : Instruction) (t : String), i.text = .ok t → j.text = .ok t → i.size = j.size) ∧
    ∀ (a b : Body) (t : String), a.text = .ok t → b.text = .ok t → a = b := by
  have parts (i j : Instruction) (t u : String) (hi : i.text = .ok t) (hj : j.text = .ok u) :
      t = u ↔ i.body = j.body ∧ i.incAp = j.incAp ∧ i.hintLines = j.hintLines := by
    obtain ⟨shortI, rfl⟩ := Instruction.text_eq_ok_iff.mp hi
    obtain ⟨shortJ, rfl⟩ := Instruction.text_eq_ok_iff.mp hj
    simp only [Instruction.fullText_eq_iff, Instruction.fullLine_inj,
      Instruction.hintLines_eq_iff shortI shortJ]
    constructor
    · intro ⟨above, body, incAp⟩
      exact ⟨body, incAp, above⟩
    · intro ⟨body, incAp, above⟩
      exact ⟨above, body, incAp⟩
  refine ⟨parts, ?_, ?_⟩
  · intro i j t hi hj
    exact congrArg Body.size ((parts i j t t hi hj).mp rfl).1
  · intro a b t ha hb
    rw [Body.text_eq, showing_eq_ok_iff] at ha hb
    exact Body.fullText_inj.mp (ha.2.trans hb.2.symm)

/-- Two hints, and one whose code runs into a second and goes on as the line of a body. -/
theorem instruction_text_determines_body_run_on :
    let jump : Body := .jumpNonzero (.immediate (-3)) ⟨.fp, -1⟩
    let split : Instruction := ⟨jump, true, [.verbatim "a", .verbatim "ret, ap++"]⟩
    let joined : Instruction := ⟨jump, true, [.verbatim "a %\x7d\n%\x7b ret, ap++"]⟩
    let t := "%\x7b a %\x7d\n%\x7b ret, ap++ %\x7d\njmp rel -3 if [fp + -1] != 0, ap++"
    split ≠ joined ∧ split.text = .ok t ∧ joined.text = .ok t ∧ split.body = joined.body ∧
      split.incAp = joined.incAp ∧ split.hintLines = joined.hintLines ∧
      split.size = joined.size := by
  intro jump split joined t
  obtain ⟨parts, sizes, bodies⟩ := instruction_text_determines_body
  have ht : split.text = .ok t := by decide +kernel
  have hu : joined.text = .ok t := by decide +kernel
  obtain ⟨_, incAp, above⟩ := (parts split joined t t ht hu).mp rfl
  have line : jump.text = .ok "jmp rel -3 if [fp + -1] != 0" := by decide +kernel
  have body : split.body = joined.body := bodies split.body joined.body _ line line
  exact ⟨by decide, ht, hu, body, incAp, above, sizes split joined t ht hu⟩

namespace Listing

/-- What an instruction at an address adds to a listing: lines for its hints, and one for its
body. -/
def block (s : Settings) (width : Nat) (placed : Nat × Instruction) : List String × String :=
  (placed.2.fullHintLines.map (hintLine s width),
    bodyLine s width placed.1 placed.2.size placed.2.fullLine)

/-- The lines of an instruction at an address, whatever numbers they show. -/
def fullLines (s : Settings) (width : Nat) (placed : Nat × Instruction) : List String :=
  (block s width placed).1 ++ [(block s width placed).2]

theorem instructionLines_eq (s : Settings) (width offset : Nat) (i : Instruction) :
    instructionLines s width offset i = showing i.integers (fullLines s width (offset, i)) := by
  simp [instructionLines, i.text_eq, fullLines, block, i.lines_fullText]

theorem printable_padded (width n : Nat) : Printable (padded width n) := by
  have digits := printable_iff.mp (printable_natRepr n)
  rw [printable_iff]
  intro c member
  rw [padded, String.toList_ofList, List.leftpad, List.mem_append] at member
  rcases member with zero | digit
  · rw [List.eq_of_mem_replicate zero]
    decide
  · exact digits c digit

theorem printable_blanks (n : Nat) : Printable (blanks n) := by
  rw [printable_iff]
  intro c member
  rw [blanks, String.toList_ofList] at member
  rw [List.eq_of_mem_replicate member]
  decide

theorem printable_bodyLine (s : Settings) (width offset : Nat) (i : Instruction) :
    Printable (bodyLine s width offset i.size i.fullLine) := by
  simp only [bodyLine, printable_append]
  refine ⟨⟨?_, i.printable_fullLine⟩, ?_⟩
  · split
    · exact printable_append.mpr ⟨printable_padded width offset, by decide⟩
    · decide
  · split
    · exact printable_append.mpr ⟨by decide, printable_natRepr i.size⟩
    · decide

theorem newline_notMem_hintLine (s : Settings) (width : Nat) {l : String}
    (h : '\n' ∉ l.toList) : '\n' ∉ (hintLine s width l).toList := by
  unfold hintLine
  split
  · rw [String.toList_append, List.mem_append]
    exact not_or.mpr ⟨(printable_blanks (width + 2)).newline_notMem, h⟩
  · exact h

theorem bodyLine_ne_empty (s : Settings) (width offset : Nat) (i : Instruction) :
    bodyLine s width offset i.size i.fullLine ≠ "" := by
  obtain ⟨rest, start⟩ := i.fullLine_eq_cons
  have nonempty : i.fullLine ≠ "" := by
    intro empty
    simp [empty] at start
  simp [bodyLine, nonempty]

end Listing

namespace Program

/-- The lines of a program, whatever numbers they show. -/
def fullLines (p : Program) (s : Settings) : List String :=
  p.placed.flatMap (Listing.fullLines s p.addressWidth)

def fullListing (p : Program) (s : Settings) : String := unlines (p.fullLines s)

theorem map_integers_placed (p : Program) :
    (p.placed.flatMap fun placed => placed.2.integers) = p.integers := by
  rw [integers, ← p.map_snd_placed, List.flatMap_map]

/-- A program can be listed if none of its numbers is too long. -/
theorem result_emit (p : Program) (s : Settings) :
    (p.emit s).result = showing p.integers (p.fullLines s) := by
  have blocks : (p.placed.mapM fun placed =>
      Listing.instructionLines s p.addressWidth placed.1 placed.2) =
        showing p.integers (p.placed.map (Listing.fullLines s p.addressWidth)) := by
    simp only [Listing.instructionLines_eq, mapM_showing, map_integers_placed]
  simp only [emit, Traced.result_bind, result_offsets, Traced.result_lift, Traced.result_pure]
  refine showing_bind_of_subset p.bodyIntegers_subset ?_
  have joined := congrArg (List.flatten <$> ·) blocks
  simp only [map_showing] at joined
  exact (bind_pure_comp List.flatten _).trans joined

/-- Only giving out the addresses is reported. -/
theorem log_emit (p : Program) (s : Settings) : (p.emit s).log = p.offsets.log := by
  refine Traced.log_bind_of_nil _ fun os => ?_
  exact Traced.log_bind_of_nil _ fun _ => rfl

theorem result_listing (p : Program) (s : Settings) :
    (p.listing s).result = showing p.integers (p.fullListing s) := by
  simp only [listing, Traced.result_bind, result_emit, Traced.result_pure]
  exact map_showing unlines

theorem log_listing (p : Program) (s : Settings) : (p.listing s).log = p.offsets.log :=
  (Traced.log_bind_of_nil _ fun _ => rfl).trans (p.log_emit s)

theorem emit_eq_ok_iff {p : Program} {s : Settings} {ls : List String} :
    (p.emit s).result = .ok ls ↔ WithinDigits digitLimit p.integers ∧ p.fullLines s = ls := by
  rw [result_emit, showing_eq_ok_iff]

theorem listing_eq_ok_iff {p : Program} {s : Settings} {t : String} :
    (p.listing s).result = .ok t ↔ WithinDigits digitLimit p.integers ∧ p.fullListing s = t := by
  rw [result_listing, showing_eq_ok_iff]

theorem newline_notMem_of_mem_fullLines {p : Program} {s : Settings} {l : String}
    (h : l ∈ p.fullLines s) : '\n' ∉ l.toList := by
  obtain ⟨⟨offset, i⟩, _, member⟩ := List.mem_flatMap.mp h
  rw [Listing.fullLines, List.mem_append, Listing.block, List.mem_map, List.mem_singleton] at member
  rcases member with ⟨m, hm, rfl⟩ | rfl
  · obtain ⟨hint, _, cut⟩ := List.mem_flatMap.mp hm
    exact Listing.newline_notMem_hintLine s _ (newline_notMem_of_mem_lines cut)
  · exact (Listing.printable_bodyLine s _ offset i).newline_notMem

/-- Each instruction leaves a line that is not empty. -/
theorem fullLines_ne_single_empty (p : Program) (s : Settings) : p.fullLines s ≠ [""] := by
  intro single
  have member := single ▸ List.mem_singleton_self ""
  obtain ⟨⟨offset, i⟩, placed, _⟩ := List.mem_flatMap.mp member
  have body : Listing.bodyLine s p.addressWidth offset i.size i.fullLine ∈ [""] := by
    rw [← single]
    exact List.mem_flatMap.mpr ⟨(offset, i), placed, by simp [Listing.fullLines, Listing.block]⟩
  exact Listing.bodyLine_ne_empty s p.addressWidth offset i (List.mem_singleton.mp body)

/-- A listing determines its lines. -/
theorem fullLines_eq_of_fullListing_eq {p q : Program} {s : Settings}
    (h : p.fullListing s = q.fullListing s) : p.fullLines s = q.fullLines s :=
  unlines_inj (fun _ => newline_notMem_of_mem_fullLines) (fun _ => newline_notMem_of_mem_fullLines)
    (p.fullLines_ne_single_empty s) (q.fullLines_ne_single_empty s) h

end Program
end CairoAsm
