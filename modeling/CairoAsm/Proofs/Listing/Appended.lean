import CairoAsm.Proofs.Layout.Tiling
import CairoAsm.Proofs.Listing.Columns
import CairoAsm.Proofs.Listing.Plain

/-!
Listings of growing programs. An instruction added at the end adds its lines at the end. The lines
before it stay as they are, unless the size then has a digit more than addresses have room for.
-/
namespace CairoAsm
open Text

namespace Listing.Row

/-- What a margin that is wider by one has in front. -/
def widening : Row → String
  | hint text => if text = "" then "" else " "
  | body .. => "0"

theorem blanks_succ (n : Nat) : blanks (n + 1) = " " ++ blanks n := by
  apply String.toList_inj.mp
  simp [blanks, List.replicate_succ]

theorem padded_succ {width n : Nat} (fits : n.repr.length ≤ width) :
    padded (width + 1) n = "0" ++ padded width n := by
  have digits : n.repr.toList.length ≤ width := fits
  apply String.toList_inj.mp
  simp only [padded, List.leftpad, String.toList_ofList, String.toList_append,
    Nat.succ_sub digits, List.replicate_succ]
  rfl

theorem margin_succ {width : Nat} {r : Row} (fits : r.Fits width) :
    r.margin (width + 1) = r.widening ++ r.margin width := by
  cases r with
  | hint text =>
    by_cases empty : text = ""
    · simp [margin, widening, empty]
    · simp [margin, widening, empty, blanks_succ]
  | body offset i => simp [margin, widening, padded_succ fits, String.append_assoc]

theorem shown_succ {s : Settings} (on : s.showOffsets = true) {width : Nat} {r : Row}
    (fits : r.Fits width) : r.shown s (width + 1) = r.widening ++ r.shown s width := by
  simp [shown, on, margin_succ fits, String.append_assoc]

/-- Without addresses no line depends on the width of addresses. -/
theorem shown_of_not_showOffsets {s : Settings} (off : s.showOffsets = false) (width width' : Nat)
    (r : Row) : r.shown s width = r.shown s width' := by
  simp [shown, off]

end Listing.Row

namespace Program
open Listing

theorem size_replicate (i : Instruction) (times : Nat) :
    size ⟨List.replicate times i⟩ = times * i.size := by
  induction times with
  | zero => simp [size]
  | succ times ih =>
    simp only [List.replicate_succ, size_cons, ih, Nat.succ_mul]
    omega

section
variable (p : Program) (i : Instruction)

theorem size_of_append (times : Nat) : (p.append i times).size = p.size + times * i.size := by
  have parts := size_append p.instructions (List.replicate times i)
  simp only [size_replicate] at parts
  exact parts

theorem placed_append : (p.append i 1).placed = p.placed ++ [(p.size, i)] := by
  have addresses : (p.append i 1).addresses = p.addresses ++ [p.size] := by
    have parts := addressesFrom_append 0 p.instructions [i]
    simp only [Nat.zero_add] at parts
    exact parts
  have instructions : (p.append i 1).instructions = p.instructions ++ [i] := rfl
  simp only [placed, addresses, instructions]
  exact List.zip_append p.length_addresses

theorem rows_append : (p.append i 1).rows = p.rows ++ Row.ofPlaced (p.size, i) := by
  simp [rows, placed_append]

/-- The lines of a program with an instruction more, those of the instruction last. -/
theorem fullLines_append (s : Settings) :
    (p.append i 1).fullLines s = p.rows.map (Row.shown s (p.append i 1).addressWidth) ++
      Listing.fullLines s (p.append i 1).addressWidth (p.size, i) := by
  simp only [fullLines_eq_map_rows, rows_append, List.map_append, Row.map_shown_ofPlaced]

/-- An instruction takes two words at most, too few for two digits more. -/
theorem addressWidth_append : (p.append i 1).addressWidth = p.addressWidth ∨
    (p.append i 1).addressWidth = p.addressWidth + 1 := by
  have size := p.size_of_append i 1
  have words := i.size_cases
  have lower : p.size.repr.length ≤ (p.append i 1).size.repr.length :=
    length_natRepr_le (by omega)
  have upper : (p.append i 1).size.repr.length ≤ p.size.repr.length + 1 :=
    length_natRepr_le_succ (by omega)
  simp only [addressWidth]
  omega

end

theorem fullListing_plain (p : Program) :
    p.fullListing {} = unlines (p.instructions.map Instruction.fullText) := by
  have rows : p.fullLines {} = (p.instructions.map Instruction.fullText).flatMap lines := by
    simp only [fullLines_plain, List.flatMap_map, Instruction.lines_fullText]
  have joined := unlines_flatMap_lines (p.instructions.map Instruction.fullText)
  simp only [← rows] at joined
  exact joined

theorem mapM_text (p : Program) : p.instructions.mapM Instruction.text =
    showing p.integers (p.instructions.map Instruction.fullText) := by
  rw [funext Instruction.text_eq, mapM_showing]
  rfl

end Program

open Listing

/-- An instruction added at the end adds its lines to the listing and leaves those before them as
they are. Only if addresses get a digit more, hint lines move by a blank and addresses get another
zero in front. A listing without addresses is the texts of the instructions one below the other. -/
theorem appended_extends_listing {p : Program} {i : Instruction}
    (hp : WithinDigits digitLimit p.integers) (hi : WithinDigits digitLimit i.integers)
    (s : Settings) :
    let q := p.append i 1
    ∃ before added after texts, (p.emit s).result = .ok before ∧
      instructionLines s q.addressWidth p.size i = .ok added ∧ (q.emit s).result = .ok after ∧
      (s.showOffsets = false ∨ q.addressWidth = p.addressWidth → after = before ++ added) ∧
      (s.showOffsets = true → q.addressWidth ≠ p.addressWidth →
        q.addressWidth = p.addressWidth + 1 ∧
          before = p.rows.map (Row.shown s p.addressWidth) ∧
          after = p.rows.map (fun r => r.widening ++ r.shown s p.addressWidth) ++ added) ∧
      p.instructions.mapM Instruction.text = .ok texts ∧ p.text.result = .ok (unlines texts) := by
  intro q
  have lines : q.fullLines s = p.rows.map (Row.shown s q.addressWidth) ++
    fullLines s q.addressWidth (p.size, i) := p.fullLines_append i s
  have before : p.fullLines s = p.rows.map (Row.shown s p.addressWidth) :=
    p.fullLines_eq_map_rows s
  have hq : WithinDigits digitLimit q.integers := by
    change WithinDigits digitLimit ((p.instructions ++ [i]).flatMap Instruction.integers)
    rw [List.flatMap_append, List.flatMap_singleton, withinDigits_append]
    exact ⟨hp, hi⟩
  refine ⟨p.fullLines s, fullLines s q.addressWidth (p.size, i), q.fullLines s,
    p.instructions.map Instruction.fullText, Program.emit_eq_ok_iff.mpr ⟨hp, rfl⟩, ?_,
    Program.emit_eq_ok_iff.mpr ⟨hq, rfl⟩, ?_, ?_, ?_, ?_⟩
  · rw [instructionLines_eq, showing_of_short hi]
  · intro unmoved
    have same : Row.shown s q.addressWidth = Row.shown s p.addressWidth := by
      rcases unmoved with off | width
      · funext r
        exact Row.shown_of_not_showOffsets off _ _ r
      · simp only [width]
    simp only [lines, before, same]
  · intro on differ
    have wider : q.addressWidth = p.addressWidth + 1 :=
      (p.addressWidth_append i).resolve_left differ
    refine ⟨wider, before, ?_⟩
    have moved : p.rows.map (Row.shown s q.addressWidth) =
        p.rows.map fun r => r.widening ++ r.shown s p.addressWidth := by
      apply List.map_congr_left
      intro r member
      simp only [wider]
      exact Row.shown_succ on (Program.fits_of_mem_rows member)
    simp only [lines, moved]
  · rw [p.mapM_text, showing_of_short hp]
  · exact Program.listing_eq_ok_iff.mpr ⟨hp, p.fullListing_plain⟩

/-- The first instruction, and the one after which the size has five digits. -/
theorem appended_extends_listing_fifth_digit :
    let ret : Instruction := ⟨.ret, false, [.verbatim "a\n\nb"]⟩
    let none : Program := ⟨[]⟩
    let first : Program := none.append ret 1
    let p : Program := none.append ret 9999
    let q := p.append ret 1
    let s : Settings := ⟨true, false, false⟩
    WithinDigits digitLimit none.integers ∧ WithinDigits digitLimit p.integers ∧
    WithinDigits digitLimit ret.integers ∧ first.addressWidth = none.addressWidth ∧
    (first.emit s).result = .ok ["      %\x7b a", "", "      b %\x7d", "0000: ret"] ∧
    s.showOffsets = true ∧ q.addressWidth ≠ p.addressWidth ∧
      (q.emit s).result = .ok (p.rows.map (fun r => r.widening ++ r.shown s p.addressWidth) ++
        ["       %\x7b a", "", "       b %\x7d", "09999: ret"]) := by
  intro ret none first p q s
  have shortRet : WithinDigits digitLimit ret.integers := withinDigits_nil
  have shortNone : WithinDigits digitLimit none.integers := withinDigits_nil
  have shortP : WithinDigits digitLimit p.integers :=
    withinDigits_flatMap.mpr fun i member => (List.eq_of_mem_replicate member) ▸ shortRet
  have unmoved : first.addressWidth = none.addressWidth := by decide
  have start : instructionLines s first.addressWidth none.size ret =
      .ok ["      %\x7b a", "", "      b %\x7d", "0000: ret"] := by decide
  obtain ⟨lines, added, after, _, empty, here, shown, extended, _⟩ :=
    appended_extends_listing shortNone shortRet s
  obtain rfl := Except.ok.inj (start.symm.trans here)
  obtain rfl : [] = lines := Except.ok.inj empty
  rw [extended (.inr unmoved)] at shown
  have word : ret.size = 1 := rfl
  have nothing : none.size = 0 := rfl
  have size : p.size = 9999 := by
    have grown : p.size = none.size + 9999 * ret.size := none.size_of_append ret 9999
    omega
  have size' : q.size = 10000 := by
    have grown : q.size = p.size + 1 * ret.size := p.size_of_append ret 1
    omega
  -- Nothing but the sizes counts from here on: the program is too long to be looked at.
  clear_value p
  have differ : q.addressWidth ≠ p.addressWidth := by
    simp only [Program.addressWidth, size, size']
    decide
  have next : instructionLines s q.addressWidth p.size ret =
      .ok ["       %\x7b a", "", "       b %\x7d", "09999: ret"] := by
    simp only [Program.addressWidth, size, size']
    decide
  obtain ⟨_, last, later, _, _, there, shown', _, moved, _⟩ :=
    appended_extends_listing shortP shortRet s
  obtain rfl := Except.ok.inj (next.symm.trans there)
  rw [(moved rfl differ).2.2] at shown'
  exact ⟨shortNone, shortP, shortRet, unmoved, shown, rfl, differ, shown'⟩

/-- An instruction that cannot be written adds no lines: the longer program cannot be listed. -/
theorem unwritable_instruction_adds_no_lines :
    let i : Instruction := ⟨.unwritable, false, []⟩
    let p : Program := ⟨[]⟩
    (p.emit {}).result = .ok [] ∧ ¬∃ after, ((p.append i 1).emit {}).result = .ok after := by
  intro i p
  refine ⟨rfl, ?_⟩
  intro ⟨after, shown⟩
  exact Program.not_withinDigits_unwritable (Program.emit_eq_ok_iff.mp shown).1

end CairoAsm
