import CairoAsm.Json.Reader
import CairoAsm.Proofs.Json.Number
import CairoAsm.Proofs.Json.QuotedText
import CairoAsm.Proofs.Traced

namespace CairoAsm.Json
open Text

namespace Token
variable {limit : Option Nat}

theorem scan_done (position skip : Nat) (done : List Token) (cs : List Char) :
    scan limit position skip done cs = done.reverse ++ scan limit position skip [] cs := by
  induction cs generalizing position skip done with
  | nil => simp [scan]
  | cons c cs ih =>
    cases skip with
    | succ skip => rw [scan, ih, scan]
    | zero =>
      by_cases blank : isBlank c
      · rw [scan, if_pos blank, ih, scan, if_pos blank]
      · rw [scan, if_neg blank, scan, if_neg blank]
        obtain ⟨l, length⟩ := lexemeAt limit position c cs
        dsimp only
        rw [ih, ih _ _ [⟨l, position⟩]]
        simp

theorem scan_skip (position : Nat) (done : List Token) (tail rest : List Char) :
    scan limit position tail.length done (tail ++ rest) =
      scan limit (position + tail.length) 0 done rest := by
  induction tail generalizing position with
  | nil => rfl
  | cons c tail ih =>
    rw [List.cons_append, List.length_cons, scan, ih, Nat.add_assoc, Nat.add_comm 1]

theorem scan_token {position : Nat} {c : Char} {tail rest : List Char} {l : Lexeme}
    (shown : isBlank c = false)
    (found : lexemeAt limit position c (tail ++ rest) = (l, tail.length)) :
    scan limit position 0 [] (c :: tail ++ rest) =
      ⟨l, position⟩ :: scan limit (position + (c :: tail).length) 0 [] rest := by
  rw [List.cons_append, scan, if_neg (by simp [shown])]
  simp only [found]
  rw [scan_skip, scan_done, List.length_cons, Nat.add_assoc, Nat.add_comm 1]
  rfl

end Token

namespace Reader
variable {nesting : Option Nat} {r next : Reader} {t : Token} {e : ReadError}

/-- No more arrays and objects are open than may be. -/
def Roomy (nesting : Option Nat) (r : Reader) : Prop := ∀ n ∈ nesting, r.depth ≤ n

theorem any_lt_depth_iff : nesting.any (· < r.depth) ↔ ∃ n ∈ nesting, n < r.depth := by
  simp only [Option.any_eq_true, decide_eq_true_eq, Option.mem_def]

theorem stepWithin_eq_ok_iff :
    r.stepWithin nesting t = .ok next ↔ r.step t = .ok next ∧ next.Roomy nesting := by
  simp only [stepWithin, bind_eq_ok_iff, any_lt_depth_iff, Roomy]
  constructor
  · rintro ⟨found, step, within⟩
    split at within
    · cases within
    · rename_i fits
      cases within
      exact ⟨step, fun n limit => Nat.le_of_not_lt fun deeper => fits ⟨n, limit, deeper⟩⟩
  · rintro ⟨step, roomy⟩
    refine ⟨next, step, if_neg ?_⟩
    rintro ⟨n, limit, deeper⟩
    exact absurd (roomy n limit) (Nat.not_le_of_lt deeper)

theorem stepWithin_eq_error_iff :
    r.stepWithin nesting t = .error e ↔
      r.step t = .error e ∨
        ∃ next, r.step t = .ok next ∧ (∃ n ∈ nesting, n < next.depth) ∧ .nestedTooDeep = e := by
  simp only [stepWithin, bind_eq_error_iff, any_lt_depth_iff]
  refine or_congr_right (exists_congr fun next => and_congr_right fun _ => ?_)
  split
  · rename_i deeper
    exact ⟨fun same => ⟨deeper, Except.error.inj same⟩, fun same => congrArg Except.error same.2⟩
  · rename_i fits
    exact ⟨nofun, fun deeper => absurd deeper.1 fits⟩

end Reader

/-- In front of `rest` the text `cs` takes a reader from `r` to `r'`, and its quoted texts are
whole. -/
structure Reads (limits : Limits) (r : Reader) (cs rest : List Char) (r' : Reader) : Prop where
  takes (position : Nat) :
    (Token.scan limits.digits position 0 [] (cs ++ rest)).foldlM
        (Reader.stepWithin limits.nesting) r =
      (Token.scan limits.digits (position + cs.length) 0 [] rest).foldlM
        (Reader.stepWithin limits.nesting) r'
  whole (position : Nat) :
    (Token.scan limits.digits position 0 [] (cs ++ rest)).any (fun t => t.lexeme.isHalved) =
      (Token.scan limits.digits (position + cs.length) 0 [] rest).any fun t => t.lexeme.isHalved

section
variable {limits : Limits} {r r₁ r₂ : Reader} {cs ds rest : List Char}

theorem Reads.append (first : Reads limits r cs (ds ++ rest) r₁)
    (second : Reads limits r₁ ds rest r₂) : Reads limits r (cs ++ ds) rest r₂ where
  takes position := by
    rw [List.append_assoc, first.takes, second.takes, List.length_append, Nat.add_assoc]
  whole position := by
    rw [List.append_assoc, first.whole, second.whole, List.length_append, Nat.add_assoc]

theorem reads_token {c : Char} {tail : List Char} {l : Lexeme} (shown : Token.isBlank c = false)
    (found : ∀ position,
      Token.lexemeAt limits.digits position c (tail ++ rest) = (l, tail.length))
    (whole : l.isHalved = false) (step : ∀ position, r.step ⟨l, position⟩ = .ok r₁)
    (roomy : r₁.Roomy limits.nesting) : Reads limits r (c :: tail) rest r₁ where
  takes position := by
    rw [Token.scan_token shown (found position), List.foldlM_cons,
      Reader.stepWithin_eq_ok_iff.mpr ⟨step position, roomy⟩]
    rfl
  whole position := by
    rw [Token.scan_token shown (found position), List.any_cons, whole, Bool.false_or]

theorem scan_blank {limit : Option Nat} (position : Nat) :
    Token.scan limit position 0 [] ([' '] ++ rest) =
      Token.scan limit (position + [' '].length) 0 [] rest := by
  rw [List.singleton_append, Token.scan, if_pos (by decide)]
  rfl

theorem reads_blank : Reads limits r [' '] rest r where
  takes position := by rw [scan_blank]
  whole position := by rw [scan_blank]

/-- A mark of one character is read whatever follows. -/
theorem reads_mark {c : Char} {l : Lexeme} (shown : Token.isBlank c = false)
    (found : ∀ position rest, Token.lexemeAt limits.digits position c rest = (l, 0))
    (whole : l.isHalved = false) (step : ∀ position, r.step ⟨l, position⟩ = .ok r₁)
    (roomy : r₁.Roomy limits.nesting) : Reads limits r [c] rest r₁ :=
  reads_token shown (fun position => found position rest) whole step roomy

end

namespace Reader

/-- The reader waits for a value inside of the frames of `stack`. -/
def Begins (r : Reader) (stack : List Frame) : Prop :=
  ∀ t, t.lexeme ≠ .arrayClose → r.step t = beginValue stack t

theorem begins_value (stack : List Frame) : (value stack).Begins stack := fun _ _ => rfl

/-- The first item of an array begins as a later one, only that the array could end instead. -/
theorem begins_firstItem (stack : List Frame) : (firstItem stack).Begins (.array [] :: stack) := by
  intro t other
  unfold step
  dsimp only
  split
  · rename_i close
    exact absurd close other
  · rfl

theorem depth_complete (v : Json) (stack : List Frame) :
    (complete v stack).depth = stack.length := by
  cases stack with
  | nil => rfl
  | cons frame stack => cases frame <;> rfl

end Reader

section
variable {limits : Limits} {r : Reader} {stack : List Frame} {rest : List Char}

theorem reads_scalar (begins : r.Begins stack) {v : Json} {c : Char} {tail : List Char}
    (shown : Token.isBlank c = false)
    (found : ∀ position,
      Token.lexemeAt limits.digits position c (tail ++ rest) = (.scalar v, tail.length))
    (roomy : (Reader.complete v stack).Roomy limits.nesting) :
    Reads limits r (c :: tail) rest (.complete v stack) :=
  reads_token shown found rfl (fun _ => begins _ nofun) roomy

theorem lexemeAt_writtenText (limit : Option Nat) (position : Nat) (s : String) :
    Token.lexemeAt limit position '"' (s.toList.flatMap writtenChar ++ ['"'] ++ rest) =
      (.text s true, (s.toList.flatMap writtenChar ++ ['"']).length) := by
  have read := Token.quotedText_written position (position + 1) true [] s.toList rest
  rw [List.reverse_nil, List.nil_append, String.ofList_toList] at read
  rw [List.append_assoc, List.singleton_append, List.length_append]
  change Token.quotedText position (position + 1) 0 true [] _ = _
  rw [read, List.length_singleton, show ∀ n, position + 1 + n - position = n + 1 by omega]

theorem writtenText_toList (s : String) :
    (writtenText s).toList = '"' :: (s.toList.flatMap writtenChar ++ ['"']) := by
  rw [writtenText, String.toList_ofList, List.cons_append]

theorem reads_writtenText {r₁ : Reader} (s : String)
    (step : ∀ position, r.step ⟨.text s true, position⟩ = .ok r₁)
    (roomy : r₁.Roomy limits.nesting) :
    Reads limits r (writtenText s).toList rest r₁ := by
  rw [writtenText_toList]
  exact reads_token rfl (fun position => lexemeAt_writtenText _ position s) rfl step roomy

end

namespace Token
variable {limit : Option Nat} {rest : List Char}

theorem words_find?_eq_none {c : Char} (other : c ∉ ['n', 't', 'f', 'N', 'I', '-']) :
    (words.find? fun (word, _) => word.toList.isPrefixOf (c :: rest)) = none := by
  simp only [List.mem_cons, List.not_mem_nil, or_false, not_or] at other
  simp [words, List.isPrefixOf, Ne.symm other.1, Ne.symm other.2.1, Ne.symm other.2.2.1,
    Ne.symm other.2.2.2.1, Ne.symm other.2.2.2.2.1, Ne.symm other.2.2.2.2.2]

/-- What no mark and no quote begins is a number or a word. -/
theorem lexemeAt_scalar {c : Char} {l : Lexeme} {n : Nat}
    (other : c ∉ ['[', ']', '\x7b', '\x7d', ':', ',', '"'])
    (found : scalar? limit (c :: rest) = some (l, n + 1)) (position : Nat) :
    lexemeAt limit position c rest = (l, n) := by
  unfold lexemeAt
  split
  · exact absurd (by decide) other
  · exact absurd (by decide) other
  · exact absurd (by decide) other
  · exact absurd (by decide) other
  · exact absurd (by decide) other
  · exact absurd (by decide) other
  · exact absurd (by decide) other
  · rw [found]
    rfl

theorem notMem_of_isDigit {c : Char} (digit : c.isDigit) {ds : List Char}
    (others : ∀ d ∈ ds, d.isDigit = false) : c ∉ ds :=
  fun member => ne_of_isDigit digit (others c member) rfl

/-- A digit begins a number and nothing else. -/
theorem lexemeAt_digit {c : Char} {l : Lexeme} {n : Nat} (digit : c.isDigit)
    (found : number? limit false (c :: rest) = some (l, n + 1)) (position : Nat) :
    lexemeAt limit position c rest = (l, n) := by
  have word : c ∉ ['n', 't', 'f', 'N', 'I', '-'] := notMem_of_isDigit digit (by simp)
  have number : scalar? limit (c :: rest) = some (l, n + 1) := by
    rw [scalar?, words_find?_eq_none word]
    · exact found
    · exact fun _ same => ne_of_isDigit digit rfl (List.cons.inj same).1
  exact lexemeAt_scalar (notMem_of_isDigit digit (by simp)) number position

/-- A minus before a digit begins a negative number. -/
theorem lexemeAt_minus {c : Char} {l : Lexeme} {n : Nat} (digit : c.isDigit)
    (found : number? limit true (c :: rest) = some (l, n)) (position : Nat) :
    lexemeAt limit position '-' (c :: rest) = (l, n) := by
  have infinity : 'I' ≠ c := (ne_of_isDigit digit rfl).symm
  have noWord :
      (words.find? fun (word, _) => word.toList.isPrefixOf ('-' :: c :: rest)) = none := by
    simp [words, List.isPrefixOf, infinity]
  have number : scalar? limit ('-' :: c :: rest) = some (l, n + 1) := by
    rw [scalar?, noWord]
    dsimp only
    rw [found]
    rfl
  exact lexemeAt_scalar (by decide) number position

theorem isBlank_of_isDigit {c : Char} (digit : c.isDigit) : isBlank c = false := by
  have blanks : c ∉ [' ', '\t', '\n', '\r'] := notMem_of_isDigit digit (by simp)
  simpa [isBlank, and_assoc] using blanks

theorem natRepr_eq_cons (n : Nat) :
    ∃ c cs, n.repr.toList = c :: cs ∧ c.isDigit ∧ n.repr.length = cs.length + 1 := by
  obtain ⟨c, cs, same⟩ := List.exists_cons_of_ne_nil (show n.repr.toList ≠ [] by simp)
  have length : n.repr.length = cs.length + 1 := by rw [← String.length_toList, same]; rfl
  exact ⟨c, cs, same, isDigit_of_mem_repr (same ▸ List.mem_cons_self), length⟩

end Token

/-- A whole number is read as far as it was written. -/
theorem reads_repr {limits : Limits} {limit : Nat} (digits : limits.digits = some limit)
    {r : Reader} {stack : List Frame} {rest : List Char} (begins : r.Begins stack) {n : Int}
    (short : n.natAbs.repr.length ≤ limit) (ends : Token.EndsNumber rest)
    (roomy : (Reader.complete (.int n) stack).Roomy limits.nesting) :
    Reads limits r n.repr.toList rest (.complete (.int n) stack) := by
  cases n with
  | ofNat m =>
    obtain ⟨c, cs, same, digit, length⟩ := Token.natRepr_eq_cons m
    have within : m.repr.length ≤ limit := short
    have number := Token.number?_natRepr (some limit) false m ends
    rw [Token.wholeNumber_natRepr false within, same, length, ← digits] at number
    have text : (Int.ofNat m).repr.toList = c :: cs := same
    rw [text]
    exact reads_scalar begins (Token.isBlank_of_isDigit digit) (Token.lexemeAt_digit digit number)
      roomy
  | negSucc m =>
    obtain ⟨c, cs, same, digit, length⟩ := Token.natRepr_eq_cons (m + 1)
    have within : (m + 1).repr.length ≤ limit := short
    have number := Token.number?_natRepr (some limit) true (m + 1) ends
    rw [Token.wholeNumber_natRepr true within, same, length, ← digits] at number
    rw [toList_repr_negSucc, same]
    exact reads_scalar begins rfl (Token.lexemeAt_minus digit number) roomy

end CairoAsm.Json
