import CairoAsm.Proofs.Listing.Offsets

/-!
Listings in columns. A listing with addresses has the lines of the one without, each behind a
margin. The margin is as wide as the size of the program asks for, so every address fits into it.
-/
namespace CairoAsm
open Text

namespace Listing

/-- A line of a listing: of a hint, or of the body of the instruction at an address. -/
inductive Row where
  | hint (text : String)
  | body (offset : Nat) (i : Instruction)
  deriving DecidableEq

namespace Row

def ofPlaced (placed : Nat × Instruction) : List Row :=
  placed.2.fullHintLines.map hint ++ [body placed.1 placed.2]

/-- The instruction whose body the line shows, with its address. -/
def placed? : Row → Option (Nat × Instruction)
  | hint _ => none
  | body offset i => some (offset, i)

def content (sizes : Bool) : Row → String
  | hint text => text
  | body _ i => i.fullLine ++ if sizes then "  // size " ++ i.size.repr else ""

/-- What stands in front of a line where addresses are shown. An empty line stays empty. -/
def margin (width : Nat) : Row → String
  | hint text => if text = "" then "" else blanks (width + 2)
  | body offset _ => padded width offset ++ ": "

def shown (s : Settings) (width : Nat) (r : Row) : String :=
  (if s.showOffsets then r.margin width else "") ++ r.content s.showSizes

def Fits (width : Nat) : Row → Prop
  | hint _ => True
  | body offset _ => offset.repr.length ≤ width

theorem shown_hint (s : Settings) (width : Nat) (text : String) :
    (hint text).shown s width = hintLine s width text := by
  by_cases empty : text = ""
  · simp [shown, margin, content, hintLine, empty]
  · by_cases on : s.showOffsets = true
    · simp [shown, margin, content, hintLine, empty, on]
    · simp [shown, content, hintLine, on]

theorem shown_body (s : Settings) (width offset : Nat) (i : Instruction) :
    (body offset i).shown s width = bodyLine s width offset i.size i.fullLine := by
  simp [shown, margin, content, bodyLine, String.append_assoc]

theorem map_shown_ofPlaced (s : Settings) (width : Nat) (placed : Nat × Instruction) :
    (ofPlaced placed).map (shown s width) = fullLines s width placed := by
  simp [ofPlaced, fullLines, block, shown_hint, shown_body]

theorem content_ne_empty (sizes : Bool) (offset : Nat) (i : Instruction) :
    (body offset i).content sizes ≠ "" := by
  have shown := bodyLine_ne_empty ⟨false, sizes, false⟩ 0 offset i
  simpa [content, bodyLine] using shown

theorem length_margin (sizes : Bool) {width : Nat} {r : Row} (fits : r.Fits width) :
    (r.margin width).length = if r.content sizes = "" then 0 else width + 2 := by
  cases r with
  | hint text => by_cases empty : text = "" <;> simp [margin, content, blanks, empty]
  | body offset i =>
    have digits : (padded width offset).length = width := length_padded fits
    have mark : ": ".length = 2 := rfl
    simp [margin, content_ne_empty, digits, mark]

theorem drop_shown {s : Settings} (on : s.showOffsets = true) {width : Nat} {r : Row}
    (fits : r.Fits width) : (r.shown s width).toList.drop (width + 2) =
      (r.content s.showSizes).toList := by
  have length : (r.margin width).toList.length =
      if r.content s.showSizes = "" then 0 else width + 2 := length_margin s.showSizes fits
  by_cases empty : r.content s.showSizes = ""
  · simp only [empty, if_true] at length
    simp [shown, on, empty, List.eq_nil_of_length_eq_zero length]
  · simp only [empty, if_false] at length
    simp [shown, on, ← length]

end Row
end Listing

namespace Program
open Listing

def rows (p : Program) : List Row := p.placed.flatMap Row.ofPlaced

theorem fullLines_eq_map_rows (p : Program) (s : Settings) :
    p.fullLines s = p.rows.map (Row.shown s p.addressWidth) := by
  simp only [fullLines, rows, List.map_flatMap, Row.map_shown_ofPlaced]

theorem mem_placed_of_mem_rows {p : Program} {offset : Nat} {i : Instruction}
    (h : Row.body offset i ∈ p.rows) : (offset, i) ∈ p.placed := by
  obtain ⟨placed, member, here⟩ := List.mem_flatMap.mp h
  have same : (offset, i) = placed := by simpa [Row.ofPlaced, Prod.ext_iff] using here
  exact same ▸ member

theorem fits_of_mem_rows {p : Program} {r : Row} (h : r ∈ p.rows) : r.Fits p.addressWidth := by
  cases r with
  | hint text => trivial
  | body offset i => exact length_repr_le_addressWidth (mem_placed_of_mem_rows h)

/-- Each instruction has one row for its body, in its place. -/
theorem filterMap_placed?_rows (p : Program) : p.rows.filterMap Row.placed? = p.placed := by
  have one (placed : Nat × Instruction) :
      (Row.ofPlaced placed).filterMap Row.placed? = [placed] := by
    simp [Row.ofPlaced, List.filterMap_map, Function.comp_def, Row.placed?]
  simp only [rows, List.filterMap_flatMap, one, List.flatMap_singleton']

end Program

open Listing

/-- A listing with addresses has the lines of the one without, in the same order, each but the empty
ones behind a margin of the same width. Taking the margins away gives the plain listing back, and
one line for each instruction has the address in its margin, whatever breaks its hints have. -/
theorem addresses_in_one_column {p : Program} (short : WithinDigits digitLimit p.integers)
    (sizes verbose : Bool) :
    let width := max 4 p.size.repr.length
    ∃ offsets plain aligned, p.offsets.result = .ok offsets ∧
      (p.emit ⟨false, sizes, verbose⟩).result = .ok plain ∧
      (p.emit ⟨true, sizes, verbose⟩).result = .ok aligned ∧
      (∀ i ∈ p.instructions, i.hintLines = .ok i.fullHintLines ∧ i.bodyLine = .ok i.fullLine) ∧
      plain = p.rows.map (Row.content sizes) ∧
      aligned = p.rows.map (fun r => r.margin width ++ r.content sizes) ∧
      (∀ r ∈ p.rows, (r.margin width).length = if r.content sizes = "" then 0 else width + 2) ∧
      aligned.map (fun l => String.ofList (l.toList.drop (width + 2))) = plain ∧
      p.rows.filterMap Row.placed? = offsets.zip p.instructions ∧
      ∀ l ∈ aligned, '\n' ∉ l.toList := by
  intro width
  have bodies : WithinDigits digitLimit p.bodyIntegers := short.mono p.bodyIntegers_subset
  refine ⟨p.addresses, p.fullLines ⟨false, sizes, verbose⟩, p.fullLines ⟨true, sizes, verbose⟩,
    Program.offsets_eq_ok_iff.mpr ⟨bodies, rfl⟩, Program.emit_eq_ok_iff.mpr ⟨short, rfl⟩,
    Program.emit_eq_ok_iff.mpr ⟨short, rfl⟩, ?_⟩
  have plainRows : p.fullLines ⟨false, sizes, verbose⟩ = p.rows.map (Row.content sizes) := by
    simp [Program.fullLines_eq_map_rows, Row.shown]
  have alignedRows : p.fullLines ⟨true, sizes, verbose⟩ =
      p.rows.map (Row.shown ⟨true, sizes, verbose⟩ width) :=
    p.fullLines_eq_map_rows ⟨true, sizes, verbose⟩
  refine ⟨?_, plainRows, alignedRows, ?_, ?_, p.filterMap_placed?_rows, ?_⟩
  · intro i member
    have parts := withinDigits_flatMap.mp short i member
    simp only [Instruction.integers, withinDigits_append] at parts
    rw [i.hintLines_eq, i.bodyLine_eq, showing_of_short parts.1, showing_of_short parts.2]
    exact ⟨rfl, rfl⟩
  · intro r member
    exact Row.length_margin sizes (Program.fits_of_mem_rows member)
  · simp only [alignedRows, plainRows, List.map_map]
    apply List.map_congr_left
    intro r member
    have dropped := Row.drop_shown (s := ⟨true, sizes, verbose⟩) rfl
      (Program.fits_of_mem_rows member)
    exact String.toList_inj.mp (String.toList_ofList.trans dropped)
  · intro l member
    exact Program.newline_notMem_of_mem_fullLines member

/-- A hint with an empty line in it and one that looks like the line of a body. -/
theorem addresses_in_one_column_look_alike :
    let i : Instruction := ⟨.call (.immediate (-7)) true, true, [.verbatim "a\n\n0000: ret"]⟩
    let p : Program := ⟨[i, i]⟩
    let plain := ["%\x7b a", "", "0000: ret %\x7d", "call rel -7, ap++  // size 2",
      "%\x7b a", "", "0000: ret %\x7d", "call rel -7, ap++  // size 2"]
    let aligned := ["      %\x7b a", "", "      0000: ret %\x7d",
      "0000: call rel -7, ap++  // size 2",
      "      %\x7b a", "", "      0000: ret %\x7d", "0002: call rel -7, ap++  // size 2"]
    WithinDigits digitLimit p.integers ∧ max 4 p.size.repr.length = 4 ∧
      (p.emit ⟨false, true, false⟩).result = .ok plain ∧
      (p.emit ⟨true, true, false⟩).result = .ok aligned ∧
      aligned.map (fun l => String.ofList (l.toList.drop 6)) = plain ∧
      ((Row.body 2 i).margin 4).length = (if (Row.body 2 i).content true = "" then 0 else 4 + 2) ∧
      p.rows.filterMap Row.placed? = [(0, i), (2, i)] := by
  intro i p plain aligned
  have short : WithinDigits digitLimit p.integers := by decide +kernel
  obtain ⟨offsets, plain', aligned', placed, hplain, haligned, _, _, _, margins, dropped, bodies,
      _⟩ :=
    addresses_in_one_column short true false
  have width : max 4 p.size.repr.length = 4 := by decide +kernel
  have shown : (p.emit ⟨false, true, false⟩).result = .ok plain := by decide +kernel
  have shown' : (p.emit ⟨true, true, false⟩).result = .ok aligned := by decide +kernel
  have starts : p.offsets.result = .ok [0, 2] := by decide +kernel
  obtain rfl : plain = plain' := Except.ok.inj (shown.symm.trans hplain)
  obtain rfl : aligned = aligned' := Except.ok.inj (shown'.symm.trans haligned)
  obtain rfl : [0, 2] = offsets := Except.ok.inj (starts.symm.trans placed)
  rw [width] at margins dropped
  exact ⟨short, width, shown, shown', dropped, margins _ (by decide +kernel), bodies⟩

/-- A program with a number that cannot be written has no lines, with addresses or without. -/
theorem unwritable_program_has_no_columns :
    ¬∃ plain aligned, (Program.unwritable.emit ⟨false, false, false⟩).result = .ok plain ∧
      (Program.unwritable.emit ⟨true, false, false⟩).result = .ok aligned := by
  intro ⟨plain, _, shown, _⟩
  exact Program.not_withinDigits_unwritable (Program.emit_eq_ok_iff.mp shown).1

end CairoAsm
