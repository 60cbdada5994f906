import CairoAsm.Proofs.Command.Exported
import CairoAsm.Proofs.Layout.Tiling
import CairoAsm.Proofs.Listing.Columns

/-!
The numbers of a listing with addresses and sizes. The lines alone tell them: an address and the
size on its line make the next address, and at the end the number of words that the command reports.
How many lines there are depends on the program only.
-/
namespace CairoAsm
open Text

-- Sums start from the core library's zero, whichever others are in scope.
attribute [local instance (high)] Zero.ofOfNat0

/-- A hint has a line more than there are line breaks in its text. -/
def Hint.lineCount (h : Hint) : Nat := 1 + h.fullText.toList.count '\n'

/-- The lines that the hints of some instructions take. -/
def hintLineCount (is : List Instruction) : Nat :=
  ((is.flatMap Instruction.hints).map Hint.lineCount).sum

theorem Instruction.length_fullHintLines (i : Instruction) :
    i.fullHintLines.length = (i.hints.map Hint.lineCount).sum := by
  obtain ⟨body, incAp, hints⟩ := i
  simp only [fullHintLines]
  induction hints with
  | nil => simp
  | cons h hs ih =>
    simp only [List.flatMap_cons, List.length_append, List.map_cons, List.sum_cons, ih,
      length_lines, Hint.lineCount]
    omega

theorem hintLineCount_cons (i : Instruction) (is : List Instruction) :
    hintLineCount (i :: is) = i.fullHintLines.length + hintLineCount is := by
  simp only [hintLineCount, List.flatMap_cons, List.map_append, List.sum_append,
    i.length_fullHintLines]

namespace Listing

/-- The address and the size that a line shows: the digits that it starts with and those that it
ends with. A line that starts with no digit shows neither. -/
def numbers? (l : String) : Option (Nat × Nat) :=
  let first := l.toList.takeWhile Char.isDigit
  let last := (l.toList.reverse.takeWhile Char.isDigit).reverse
  if first = [] then none else some (Nat.ofDigitChars 10 first 0, Nat.ofDigitChars 10 last 0)

theorem ofDigitChars_padded (width n : Nat) :
    Nat.ofDigitChars 10 (padded width n).toList 0 = n := by
  have digits : Nat.ofDigitChars 10 n.repr.toList 0 = n := by simp
  simp only [padded, String.toList_ofList, List.leftpad, Nat.ofDigitChars_append,
    Nat.ofDigitChars_replicate_zero, Nat.mul_zero, digits]

theorem takeWhile_padded_append (width n : Nat) {r : List Char} (ends : NoDigit r) :
    ((padded width n).toList ++ r).takeWhile Char.isDigit = (padded width n).toList :=
  takeWhile_digits_append (fun _ => isDigit_of_mem_padded) ends

/-- The digits at the end of a text, found from behind. -/
theorem takeWhile_reverse_append_repr {r : List Char} (ends : NoDigit r.reverse) (n : Nat) :
    ((r ++ n.repr.toList).reverse.takeWhile Char.isDigit).reverse = n.repr.toList := by
  have digits : ∀ c ∈ n.repr.toList.reverse, c.isDigit := by
    intro c member
    exact isDigit_of_mem_repr (List.mem_reverse.mp member)
  simp only [List.reverse_append, takeWhile_digits_append digits ends, List.reverse_reverse]

theorem numbers?_bodyLine (verbose : Bool) (width offset size : Nat) (text : String) :
    numbers? (bodyLine ⟨true, true, verbose⟩ width offset size text) = some (offset, size) := by
  let middle := ": ".toList ++ (text.toList ++ "  // size ".toList)
  have line : (bodyLine ⟨true, true, verbose⟩ width offset size text).toList =
      (padded width offset).toList ++ middle ++ size.repr.toList := by
    simp [bodyLine, middle]
  have first := takeWhile_padded_append width offset (r := middle ++ size.repr.toList)
    (noDigit_cons (by decide) _)
  have ends : NoDigit ((padded width offset).toList ++ middle).reverse := by
    simp only [middle, List.reverse_append, List.append_assoc]
    exact noDigit_cons (by decide) _
  have last := takeWhile_reverse_append_repr ends size
  have digits : Nat.ofDigitChars 10 size.repr.toList 0 = size := by simp
  simp only [numbers?, line, last, digits]
  simp only [List.append_assoc, first, padded_ne_nil, ofDigitChars_padded, if_false]

theorem numbers?_hintLine (verbose : Bool) (width : Nat) (l : String) :
    numbers? (hintLine ⟨true, true, verbose⟩ width l) = none := by
  have line := hintLine_of_showOffsets (s := ⟨true, true, verbose⟩) rfl width l
  have noDigit : (hintLine ⟨true, true, verbose⟩ width l).toList.takeWhile Char.isDigit = [] := by
    rw [line]
    split
    · rfl
    · simp [List.replicate_succ]
  simp only [numbers?, noDigit, if_true]

namespace Row

/-- In a listing with addresses and sizes the line of a body shows both, and no other line does. -/
theorem numbers?_shown (verbose : Bool) (width : Nat) (r : Row) :
    numbers? (r.shown ⟨true, true, verbose⟩ width) =
      r.placed?.map fun placed => (placed.1, placed.2.size) := by
  cases r with
  | hint text => simp only [shown_hint, numbers?_hintLine, placed?, Option.map_none]
  | body offset i => simp only [shown_body, numbers?_bodyLine, placed?, Option.map_some]

theorem length_ofPlaced (placed : Nat × Instruction) :
    (ofPlaced placed).length = placed.2.fullHintLines.length + 1 := by
  simp [ofPlaced]

theorem length_flatMap_ofPlaced (placed : List (Nat × Instruction)) :
    (placed.flatMap ofPlaced).length = placed.length + hintLineCount (placed.map Prod.snd) := by
  induction placed with
  | nil => rfl
  | cons first rest ih =>
    simp only [List.flatMap_cons, List.length_append, ih, length_ofPlaced, List.map_cons,
      hintLineCount_cons, List.length_cons]
    omega

/-- A body comes behind the bodies before it and behind the hints up to its own. -/
theorem getElem?_flatMap_ofPlaced (placed : List (Nat × Instruction)) (k : Nat) :
    (placed.flatMap ofPlaced)[k + hintLineCount ((placed.map Prod.snd).take (k + 1))]? =
      placed[k]?.map fun here => body here.1 here.2 := by
  induction placed generalizing k with
  | nil => simp
  | cons first rest ih =>
    have own : (ofPlaced first)[first.2.fullHintLines.length]? = some (body first.1 first.2) := by
      simp [ofPlaced]
    simp only [List.map_cons, List.take_succ_cons, hintLineCount_cons, List.flatMap_cons]
    cases k with
    | zero =>
      have none : hintLineCount ((rest.map Prod.snd).take 0) = 0 := rfl
      have inside : first.2.fullHintLines.length < (ofPlaced first).length := by
        simp only [length_ofPlaced, Nat.lt_succ_self]
      simp only [none, Nat.zero_add, Nat.add_zero, List.getElem?_append_left inside, own]
      rfl
    | succ k =>
      have past : k + 1 + (first.2.fullHintLines.length +
          hintLineCount ((rest.map Prod.snd).take (k + 1))) =
          (ofPlaced first).length + (k + hintLineCount ((rest.map Prod.snd).take (k + 1))) := by
        simp only [length_ofPlaced]
        omega
      simp only [past, List.getElem?_append_right (Nat.le_add_right _ _), Nat.add_sub_cancel_left,
        ih, List.getElem?_cons_succ]

end Row
end Listing

namespace Program
open Listing

variable (p : Program)

theorem length_fullLines (s : Settings) :
    (p.fullLines s).length = p.length + hintLineCount p.instructions := by
  simp only [fullLines_eq_map_rows, List.length_map, rows, Row.length_flatMap_ofPlaced,
    p.map_snd_placed, p.length_placed]

theorem getElem?_fullLines (s : Settings) {k : Nat} {i : Instruction}
    (at_k : p.instructions[k]? = some i) :
    (p.fullLines s)[k + hintLineCount (p.instructions.take (k + 1))]? =
      some (bodyLine s p.addressWidth (p.sizeBefore k) i.size i.fullLine) := by
  have row := Row.getElem?_flatMap_ofPlaced p.placed k
  simp only [p.map_snd_placed, p.getElem?_placed at_k, Option.map_some] at row
  simp only [fullLines_eq_map_rows, List.getElem?_map, rows, row, Option.map_some, Row.shown_body]

/-- All numbers of a full listing are the addresses and the sizes of its instructions. -/
theorem filterMap_numbers?_fullLines (verbose : Bool) :
    (p.fullLines ⟨true, true, verbose⟩).filterMap numbers? =
      p.placed.map fun placed => (placed.1, placed.2.size) := by
  have row : (fun r => numbers? (Row.shown ⟨true, true, verbose⟩ p.addressWidth r)) =
      fun r => r.placed?.map fun placed => (placed.1, placed.2.size) := by
    funext r
    exact Row.numbers?_shown verbose p.addressWidth r
  simp only [fullLines_eq_map_rows, List.filterMap_map, Function.comp_def, row,
    ← List.map_filterMap, filterMap_placed?_rows]

theorem map_fst_placed : p.placed.map Prod.fst = p.addresses :=
  List.map_fst_zip (Nat.le_of_eq p.length_addresses)

end Program

open Listing

/-- The numbers in a listing with addresses and sizes can be read back from its lines, each on the
line of its instruction and none on another line, and they add up: an address and the size behind it
make the next address, and in the end the number of words that the command reports. No setting
changes how many lines there are. -/
theorem printed_numbers_add_up {p : Program} (short : WithinDigits digitLimit p.integers)
    (verbose : Bool) :
    let full : Settings := ⟨true, true, verbose⟩
    ∃ lines offsets, (p.emit full).result = .ok lines ∧ p.offsets.result = .ok offsets ∧
      (∀ k i, p.instructions[k]? = some i → ∃ (digits text : String) (offset : Nat),
        offsets[k]? = some offset ∧ i.bodyLine = .ok text ∧
        lines[k + hintLineCount (p.instructions.take (k + 1))]? =
          some (digits ++ ": " ++ text ++ "  // size " ++ i.size.repr) ∧
        digits.length = max 4 p.size.repr.length ∧ (∀ c ∈ digits.toList, c.isDigit) ∧
        Nat.ofDigitChars 10 digits.toList 0 = offset ∧
        (lines.filterMap numbers?)[k]? = some (offset, i.size) ∧
        ((lines.filterMap numbers?).map Prod.fst).getD (k + 1) p.size = offset + i.size) ∧
      (lines.filterMap numbers?).length = p.length ∧
      (∀ host path bytes, Command.Holds host bytes p → Command.hasHalfPair bytes = false →
        ∃ r earlier, Command.list host full path bytes = .finished r ∧
          r.stderr = earlier ++ ("INFO:root:" ++ Command.Path.base path ++ ": " ++ p.length.repr
            ++ " instructions, " ++ p.size.repr ++ " words\n")) ∧
      (∀ i ∈ p.instructions, ∀ h ∈ i.hints,
        ∃ t, h.text = .ok t ∧ h.lineCount = 1 + t.toList.count '\n') ∧
      ∀ s, ∃ ls, (p.emit s).result = .ok ls ∧
        ls.length = p.length + hintLineCount p.instructions := by
  intro full
  have numbers : (p.fullLines full).filterMap numbers? =
      p.placed.map fun placed => (placed.1, placed.2.size) :=
    p.filterMap_numbers?_fullLines verbose
  have addresses : ((p.fullLines full).filterMap numbers?).map Prod.fst = p.addresses := by
    simp only [numbers, List.map_map, Function.comp_def]
    exact p.map_fst_placed
  have written {i : Instruction} (member : i ∈ p.instructions) :
      WithinDigits digitLimit (i.hints.flatMap Hint.integers) ∧
        WithinDigits digitLimit i.body.integers :=
    withinDigits_append.mp (withinDigits_flatMap.mp short i member)
  refine ⟨p.fullLines full, p.addresses, Program.emit_eq_ok_iff.mpr ⟨short, rfl⟩,
    Program.offsets_eq_ok_iff.mpr ⟨short.mono p.bodyIntegers_subset, rfl⟩, ?_, ?_, ?_, ?_, ?_⟩
  · intro k i at_k
    have inside : k < p.length := (List.getElem?_eq_some_iff.mp at_k).1
    have placed := p.getElem?_placed at_k
    have fits : (p.sizeBefore k).repr.length ≤ p.addressWidth :=
      Program.length_repr_le_addressWidth (List.mem_of_getElem? placed)
    have text : i.bodyLine = .ok i.fullLine := by
      rw [i.bodyLine_eq, showing_of_short (written (List.mem_of_getElem? at_k)).2]
    have line := p.getElem?_fullLines full at_k
    simp only [bodyLine, full, if_true, ← String.append_assoc] at line
    have next := p.getD_addresses inside
    refine ⟨padded p.addressWidth (p.sizeBefore k), i.fullLine, p.sizeBefore k,
      p.getElem?_addresses inside, text, line, length_padded fits, fun _ => isDigit_of_mem_padded,
      ofDigitChars_padded _ _, ?_, ?_⟩
    · simp only [numbers, List.getElem?_map, placed, Option.map_some]
    · simp only [addresses, next, p.sizeBefore_succ at_k]
  · simp only [numbers, List.length_map, p.length_placed]
  · intro host path bytes holds whole
    have loaded := (Command.result_load_eq_ok_iff path).mpr holds
    obtain ⟨r, finished, lists⟩ := Command.lists_of_loaded (s := full) loaded whole
    obtain ⟨earlier, _, stderr⟩ := lists.stderr
    exact ⟨r, earlier, finished, stderr⟩
  · intro i member h within
    have digits := withinDigits_flatMap.mp (written member).1 h within
    exact ⟨h.fullText, by rw [h.text_eq, showing_of_short digits], rfl⟩
  · intro s
    exact ⟨p.fullLines s, Program.emit_eq_ok_iff.mpr ⟨short, rfl⟩, p.length_fullLines s⟩

/-- A hint with an empty line in it and one that looks like the line of a body. -/
theorem printed_numbers_add_up_look_alike :
    let call : Instruction :=
      ⟨.call (.immediate (-7)) true, true, [.verbatim "a\n\n0007: ret  // size 9"]⟩
    let p : Program := ⟨[call, ⟨.ret, false, []⟩]⟩
    let full : Settings := ⟨true, true, false⟩
    let bytes := Command.fileOf p.toJson
    WithinDigits digitLimit p.integers ∧ Command.Holds Command.plainHost bytes p ∧
      Command.hasHalfPair bytes = false ∧
      (∃ lines offsets, (p.emit full).result = .ok lines ∧ p.offsets.result = .ok offsets ∧
        (∃ (digits text : String) (offset : Nat), offsets[0]? = some offset ∧
          call.bodyLine = .ok text ∧
          lines[3]? = some (digits ++ ": " ++ text ++ "  // size " ++ call.size.repr) ∧
          digits.length = max 4 p.size.repr.length ∧ (∀ c ∈ digits.toList, c.isDigit) ∧
          Nat.ofDigitChars 10 digits.toList 0 = offset ∧
          (lines.filterMap numbers?)[0]? = some (offset, call.size) ∧
          ((lines.filterMap numbers?).map Prod.fst).getD 1 p.size = offset + call.size) ∧
        (lines.filterMap numbers?).length = p.length) ∧
      (∃ r earlier, Command.list Command.plainHost full "p.json" bytes = .finished r ∧
        r.stderr = earlier ++ "INFO:root:p.json: 2 instructions, 3 words\n") ∧
      ∃ ls, (p.emit {}).result = .ok ls ∧ ls.length = p.length + 3 := by
  intro call p full bytes
  have short : WithinDigits digitLimit p.integers := by decide +kernel
  obtain ⟨lines, offsets, shown, given, each, count, listed, _, length⟩ :=
    printed_numbers_add_up short false
  have above : hintLineCount p.instructions = 3 := by decide +kernel
  have start : hintLineCount (p.instructions.take 1) = 3 := by decide +kernel
  have first := each 0 call rfl
  simp only [Nat.zero_add, start] at first
  have holds := Command.holds_exported Command.plainHost short
  have whole := Command.hasHalfPair_exported short
  obtain ⟨r, earlier, finished, stderr⟩ := listed Command.plainHost "p.json" bytes holds whole
  have line : "INFO:root:" ++ Command.Path.base "p.json" ++ ": " ++ p.length.repr
      ++ " instructions, " ++ p.size.repr ++ " words\n" =
        "INFO:root:p.json: 2 instructions, 3 words\n" := by decide +kernel
  rw [line] at stderr
  have plain := length {}
  rw [above] at plain
  exact ⟨short, holds, whole, ⟨lines, offsets, shown, given, first, count⟩,
    ⟨r, earlier, finished, stderr⟩, plain⟩

/-- A program with a number that cannot be written has no lines to read numbers from. -/
theorem unwritable_program_shows_no_numbers :
    ¬∃ lines, (Program.unwritable.emit ⟨true, true, false⟩).result = .ok lines := by
  intro ⟨lines, shown⟩
  exact Program.not_withinDigits_unwritable (Program.emit_eq_ok_iff.mp shown).1

end CairoAsm
