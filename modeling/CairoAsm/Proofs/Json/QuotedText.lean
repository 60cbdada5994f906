import CairoAsm.Json.Token
import CairoAsm.Json.Written

/-!
Quoted texts read back. Each character is found again behind its escape, a surrogate pair is one
character, and the text ends at the first quote that is not escaped.
-/
namespace CairoAsm
namespace Text

/-- One more digit is the last one of a number of one digit less. -/
theorem hex_succ {width : Nat} (wide : 0 < width) (n : Nat) :
    hex (width + 1) n = hex width (n / 16) ++ [Nat.digitChar (n % 16)] := by
  by_cases small : n < 16
  · have zero : n / 16 = 0 := Nat.div_eq_of_lt small
    rw [hex, hex, zero, Nat.toDigits_of_lt_base small, Nat.toDigits_zero, Nat.mod_eq_of_lt small,
      List.leftpad, List.leftpad]
    have zeros : List.replicate width '0' = List.replicate (width - 1) '0' ++ ['0'] := by
      rw [← List.replicate_succ', Nat.sub_add_cancel wide]
    simp [zeros]
  · rw [hex, hex, Nat.toDigits_of_base_le (by decide) (Nat.le_of_not_lt small), List.leftpad,
      List.leftpad]
    simp

theorem hex_four {u : Nat} (h : u < 0x10000) :
    hex 4 u = [Nat.digitChar (u / 4096), Nat.digitChar (u / 256 % 16), Nat.digitChar (u / 16 % 16),
      Nat.digitChar (u % 16)] := by
  have one : hex 1 (u / 16 / 16 / 16) = [Nat.digitChar (u / 16 / 16 / 16)] := by
    rw [hex, Nat.toDigits_of_lt_base (by omega), List.leftpad]
    rfl
  rw [hex_succ (by decide), hex_succ (by decide), hex_succ (by decide), one,
    show u / 16 / 16 / 16 = u / 4096 by omega, show u / 16 / 16 = u / 256 by omega]
  rfl

end Text

namespace Json
open Text

namespace Token

theorem codeUnit?_hex {u : Nat} (h : u < 0x10000) {rest : List Char} (more : rest ≠ []) :
    codeUnit? (hex 4 u ++ rest) = some u := by
  obtain ⟨c, tail, rfl⟩ := List.exists_cons_of_ne_nil more
  have first := hexValue?_digitChar (u / 4096) (by omega)
  have second := hexValue?_digitChar (u / 256 % 16) (by omega)
  have third := hexValue?_digitChar (u / 16 % 16) (by omega)
  have fourth := hexValue?_digitChar (u % 16) (by omega)
  have value : ((u / 4096 * 16 + u / 256 % 16) * 16 + u / 16 % 16) * 16 + u % 16 = u := by omega
  rw [hex_four h]
  simp only [List.cons_append, List.nil_append, codeUnit?, first, second, third, fourth]
  exact congrArg some value

theorem length_hex_four {u : Nat} (h : u < 0x10000) : (hex 4 u).length = 4 := by
  rw [hex_four h]
  rfl

theorem paired?_eq_none {high : Nat} (h : high < 0xd800 ∨ 0xdc00 ≤ high) (cs : List Char) :
    paired? high cs = none := by
  unfold paired?
  split
  · rename_i rest
    cases codeUnit? rest with
    | none => rfl
    | some low =>
      refine if_neg ?_
      omega
  · rfl

theorem paired?_eq_some {high low : Nat} {rest : List Char} (read : codeUnit? rest = some low)
    (isHigh : 0xd800 ≤ high ∧ high < 0xdc00) (isLow : 0xdc00 ≤ low ∧ low < 0xe000) :
    paired? high ('\\' :: 'u' :: rest) =
      some (Char.ofNat (0x10000 + (high - 0xd800) * 0x400 + (low - 0xdc00))) := by
  simp only [paired?, read, Option.bind_eq_bind, Option.bind_some]
  exact if_pos ⟨isHigh.1, isHigh.2, isLow⟩

theorem escape_simple {c d : Char} (named : simpleEscape? c = some d) (notUnit : c ≠ 'u')
    (rest : List Char) : escape (c :: rest) = .char d 1 := by
  rw [escape]
  · simp only [named]
  · exact notUnit

/-- A character that is no half of a pair is a single unit. -/
theorem escape_unit {c : Char} (single : c.toNat < 0x10000) {rest : List Char}
    (more : rest ≠ []) : escape ('u' :: (hex 4 c.toNat ++ rest)) = .char c 5 := by
  have scalar : c.toNat < 0xd800 ∨ 0xdfff < c.toNat ∧ c.toNat < 0x110000 := c.valid
  have alone : paired? c.toNat ((hex 4 c.toNat ++ rest).drop 4) = none :=
    paired?_eq_none (by omega) _
  have whole : ¬ (0xd800 ≤ c.toNat ∧ c.toNat < 0xe000) := by omega
  simp only [escape, codeUnit?_hex single more, alone, if_neg whole, Char.ofNat_toNat]

theorem escape_pair {high low : Nat} (isHigh : 0xd800 ≤ high ∧ high < 0xdc00)
    (isLow : 0xdc00 ≤ low ∧ low < 0xe000) {rest : List Char} (more : rest ≠ []) :
    escape ('u' :: (hex 4 high ++ '\\' :: 'u' :: (hex 4 low ++ rest))) =
      .char (Char.ofNat (0x10000 + (high - 0xd800) * 0x400 + (low - 0xdc00))) 11 := by
  have first := codeUnit?_hex (show high < 0x10000 by omega)
    (List.cons_ne_nil '\\' ('u' :: (hex 4 low ++ rest)))
  have second := codeUnit?_hex (show low < 0x10000 by omega) more
  have length := length_hex_four (show high < 0x10000 by omega)
  simp only [escape, first, List.drop_left' length, paired?_eq_some second isHigh isLow]

theorem quotedText_skip (start position : Nat) (whole : Bool) (done tail rest : List Char) :
    quotedText start position tail.length whole done (tail ++ rest) =
      quotedText start (position + tail.length) 0 whole done rest := by
  induction tail generalizing position with
  | nil => rfl
  | cons c tail ih =>
    rw [List.cons_append, List.length_cons, quotedText, ih, Nat.add_assoc, Nat.add_comm 1]

theorem quotedText_escaped (start position : Nat) (whole : Bool) (done : List Char) {d : Char}
    {tail rest : List Char} (read : escape (tail ++ rest) = .char d tail.length) :
    quotedText start position 0 whole done ('\\' :: (tail ++ rest)) =
      quotedText start (position + ('\\' :: tail).length) 0 whole (d :: done) rest := by
  rw [quotedText, if_neg (by decide), if_pos rfl]
  simp only [read]
  rw [quotedText_skip, List.length_cons, Nat.add_assoc, Nat.add_comm 1]

theorem quotedText_plain (start position : Nat) (whole : Bool) (done rest : List Char) {c : Char}
    (quote : c ≠ '"') (backslash : c ≠ '\\') (shown : 0x20 ≤ c.toNat) :
    quotedText start position 0 whole done (c :: rest) =
      quotedText start (position + 1) 0 whole (c :: done) rest := by
  rw [quotedText, if_neg quote, if_neg backslash, if_neg (Nat.not_lt.mpr shown)]

/-- A character is written behind a backslash by a name of its own, as it is, or by its units. -/
theorem writtenChar_cases (c : Char) :
    (∃ x, writtenChar c = ['\\', x] ∧ simpleEscape? x = some c ∧
      x ∈ ['"', '\\', 'n', 'r', 't', 'f', 'b']) ∨
    (writtenChar c = [c] ∧ c ≠ '"' ∧ c ≠ '\\' ∧ 32 ≤ c.toNat ∧ c.toNat < 127) ∨
    writtenChar c = (units c).flatMap fun u => '\\' :: 'u' :: hex 4 u := by
  by_cases named : c ∈ ['"', '\\', '\n', '\r', '\t', '\x0c', '\x08']
  · simp only [List.mem_cons, List.not_mem_nil, or_false] at named
    rcases named with rfl | rfl | rfl | rfl | rfl | rfl | rfl <;>
      exact .inl ⟨_, rfl, rfl, by decide⟩
  · simp only [List.mem_cons, List.not_mem_nil, or_false, not_or] at named
    obtain ⟨quote, backslash, newline, return_, tab, feed, back⟩ := named
    rw [writtenChar, if_neg (not_or.mpr ⟨quote, backslash⟩), if_neg newline, if_neg return_,
      if_neg tab, if_neg feed, if_neg back]
    split
    · rename_i plain
      have low : 32 ≤ c.toNat := plain.1
      have high : c.toNat ≤ 126 := plain.2
      exact .inr (.inl ⟨rfl, quote, backslash, low, Nat.lt_succ_of_le high⟩)
    · exact .inr (.inr rfl)

/-- A character that is written is read, whatever comes next. -/
theorem quotedText_writtenChar (start position : Nat) (whole : Bool) (done : List Char) (c : Char)
    {rest : List Char} (more : rest ≠ []) :
    quotedText start position 0 whole done (writtenChar c ++ rest) =
      quotedText start (position + (writtenChar c).length) 0 whole (c :: done) rest := by
  obtain ⟨x, form, named, known⟩ | ⟨form, quote, backslash, low, _⟩ | form := writtenChar_cases c
  · have notUnit : x ≠ 'u' := by
      rintro rfl
      revert known
      decide
    rw [form]
    exact quotedText_escaped start position whole done (escape_simple named notUnit rest)
  · rw [form]
    exact quotedText_plain start position whole done rest quote backslash low
  · rw [form]
    unfold units
    split
    · rename_i single
      have read := escape_unit single more
      have length := length_hex_four single
      have units : ([c.toNat].flatMap fun u => '\\' :: 'u' :: hex 4 u) =
          '\\' :: 'u' :: hex 4 c.toNat := by simp
      rw [units]
      refine quotedText_escaped start position whole done ?_
      rw [List.length_cons, length]
      exact read
    · rename_i double
      have scalar : c.toNat < 0xd800 ∨ 0xdfff < c.toNat ∧ c.toNat < 0x110000 := c.valid
      obtain ⟨high, hhigh⟩ : ∃ n, n = 0xd800 + (c.toNat - 0x10000) / 0x400 := ⟨_, rfl⟩
      obtain ⟨low, hlow⟩ : ∃ n, n = 0xdc00 + (c.toNat - 0x10000) % 0x400 := ⟨_, rfl⟩
      have value : 0x10000 + (high - 0xd800) * 0x400 + (low - 0xdc00) = c.toNat := by omega
      have read := escape_pair (show 0xd800 ≤ high ∧ high < 0xdc00 by omega)
        (show 0xdc00 ≤ low ∧ low < 0xe000 by omega) more
      have lengthHigh := length_hex_four (show high < 0x10000 by omega)
      have lengthLow := length_hex_four (show low < 0x10000 by omega)
      have units : ([high, low].flatMap fun u => '\\' :: 'u' :: hex 4 u) =
          '\\' :: ('u' :: (hex 4 high ++ '\\' :: 'u' :: hex 4 low)) := by simp
      have width : ('u' :: (hex 4 high ++ '\\' :: 'u' :: hex 4 low)).length = 11 := by
        simp [lengthHigh, lengthLow]
      rw [value, Char.ofNat_toNat] at read
      rw [← hhigh, ← hlow, units]
      refine quotedText_escaped start position whole done ?_
      rw [width, ← read]
      simp

/-- The text and its length are found when the closing quote is reached. -/
theorem quotedText_written (start position : Nat) (whole : Bool) (done cs rest : List Char) :
    quotedText start position 0 whole done (cs.flatMap writtenChar ++ '"' :: rest) =
      (.text (String.ofList (done.reverse ++ cs)) whole,
        position + (cs.flatMap writtenChar).length - start) := by
  induction cs generalizing position done with
  | nil => simp [quotedText]
  | cons c cs ih =>
    have more : cs.flatMap writtenChar ++ '"' :: rest ≠ [] := by simp
    rw [List.flatMap_cons, List.append_assoc, quotedText_writtenChar _ _ _ _ _ more, ih,
      List.reverse_cons, List.append_assoc, List.singleton_append, List.length_append,
      Nat.add_assoc]

end Token
end Json
end CairoAsm
