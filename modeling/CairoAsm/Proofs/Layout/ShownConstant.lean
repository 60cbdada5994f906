import CairoAsm.Proofs.Instruction
import CairoAsm.Proofs.Layout.Tiling

/-!
Sizes read off texts. The constant that takes a second word is the last thing that the text of a
body shows, up to a condition, so addresses are known from the texts of the bodies alone.
-/
namespace CairoAsm
namespace Text

/-- The text before the first place where `mark` stands, or all of it. -/
def before (mark : List Char) : List Char → List Char
  | [] => []
  | c :: rest => if mark.isPrefixOf (c :: rest) then [] else c :: before mark rest

def endsInDigit (cs : List Char) : Bool := cs.getLast?.any Char.isDigit

theorem endsInDigit_append (xs : List Char) {ys : List Char} (nonempty : ys ≠ []) :
    endsInDigit (xs ++ ys) = endsInDigit ys := by
  rw [endsInDigit, endsInDigit, List.getLast?_append_of_ne_nil xs nonempty]

theorem endsInDigit_natRepr (n : Nat) : endsInDigit n.repr.toList := by
  have nonempty : n.repr.toList ≠ [] := by simp
  have last := isDigit_of_mem_repr (List.getLast_mem nonempty)
  rw [endsInDigit, List.getLast?_eq_getLast_of_ne_nil nonempty, Option.any_some]
  exact last

theorem endsInDigit_repr (n : Int) : endsInDigit n.repr.toList := by
  cases n with
  | ofNat m => exact endsInDigit_natRepr m
  | negSucc m =>
    rw [toList_repr_negSucc, ← List.singleton_append, endsInDigit_append _ (by simp)]
    exact endsInDigit_natRepr (m + 1)

theorem notMem_repr (n : Int) {c : Char} (sign : c ≠ '-') (digit : c.isDigit = false) :
    c ∉ n.repr.toList := by
  have other : ∀ m : Nat, c ∉ m.repr.toList := by
    intro m member
    rw [isDigit_of_mem_repr member] at digit
    cases digit
  cases n with
  | ofNat m => exact other m
  | negSucc m =>
    rw [toList_repr_negSucc, List.mem_cons]
    exact not_or.mpr ⟨sign, other (m + 1)⟩

/-- A mark does not start inside of a text without its second character, unless it does so right at
the end. -/
theorem before_append {a b : Char} {more xs ys : List Char} (free : b ∉ xs)
    (apart : ys.head? ≠ some b) :
    before (a :: b :: more) (xs ++ ys) = xs ++ before (a :: b :: more) ys := by
  induction xs with
  | nil => rfl
  | cons c xs ih =>
    obtain ⟨other, free⟩ := List.ne_and_not_mem_of_not_mem_cons free
    have next : (xs ++ ys).head? ≠ some b := by
      cases xs with
      | nil => exact apart
      | cons d xs => exact fun same => free (Option.some.inj same ▸ List.mem_cons_self)
    have none : ¬ (a :: b :: more) <+: c :: (xs ++ ys) := by
      rintro ⟨rest, start⟩
      have tails := (List.cons.inj start).2
      exact next (by rw [← tails]; rfl)
    rw [List.cons_append, before, if_neg (by simpa using none), ih free, List.cons_append]

end Text
open Text

def Body.conditionMark : List Char := " if ".toList

/-- Whether a constant is the last thing that the text of a body shows before a condition. -/
def Body.showsConstant (text : String) : Bool :=
  endsInDigit (before conditionMark text.toList)

theorem Cell.notMem_fullText (c : Cell) : 'i' ∉ c.fullText.toList := by
  obtain ⟨register, n⟩ := c
  have free := notMem_repr n (show 'i' ≠ '-' by decide) (by decide)
  cases register <;> simp [Cell.fullText, Register.name, free]

theorem Atom.notMem_fullText (a : Atom) : 'i' ∉ a.fullText.toList := by
  cases a with
  | cell c => exact c.notMem_fullText
  | immediate n => exact notMem_repr n (by decide) (by decide)

theorem Operand.notMem_fullText (o : Operand) : 'i' ∉ o.fullText.toList := by
  cases o with
  | atom a => exact a.notMem_fullText
  | indirect c n =>
    have free := notMem_repr n (show 'i' ≠ '-' by decide) (by decide)
    simp [fullText, c.notMem_fullText, free]
  | binary op a b =>
    cases op <;> simp [fullText, Operation.symbol, a.notMem_fullText, b.notMem_fullText]

/-- The words that a text shows by how it ends. -/
def Text.wordsShown (cs : List Char) : Nat := if endsInDigit cs then 2 else 1

theorem Text.wordsShown_append (xs : List Char) {ys : List Char} (nonempty : ys ≠ []) :
    wordsShown (xs ++ ys) = wordsShown ys := by
  rw [wordsShown, wordsShown, endsInDigit_append xs nonempty]

theorem Cell.wordsShown_fullText (c : Cell) : wordsShown c.fullText.toList = 1 := by
  have ends : c.fullText.toList =
      ("[" ++ c.register.name ++ " + " ++ c.offset.repr).toList ++ [']'] := by
    simp [Cell.fullText]
  rw [ends, wordsShown_append _ (by simp)]
  rfl

theorem Cell.fullText_ne_nil (c : Cell) : c.fullText.toList ≠ [] := by
  simp [Cell.fullText]

theorem Atom.fullText_ne_nil (a : Atom) : a.fullText.toList ≠ [] := by
  cases a with
  | cell c => exact c.fullText_ne_nil
  | immediate n => cases n <;> simp [fullText, Int.repr]

theorem Atom.wordsShown_fullText (a : Atom) : wordsShown a.fullText.toList = a.size := by
  cases a with
  | cell c => exact c.wordsShown_fullText
  | immediate n => exact if_pos (endsInDigit_repr n)

theorem Operand.fullText_ne_nil (o : Operand) : o.fullText.toList ≠ [] := by
  cases o with
  | atom a => exact a.fullText_ne_nil
  | indirect c n => simp [fullText]
  | binary op a b => simp [fullText]

/-- Of the two sides of an operation the right one is shown last. -/
theorem Operand.wordsShown_fullText (o : Operand) : wordsShown o.fullText.toList = o.size := by
  cases o with
  | atom a => exact a.wordsShown_fullText
  | indirect c n =>
    have ends : (indirect c n).fullText.toList =
        ("[" ++ c.fullText ++ " + " ++ n.repr).toList ++ [']'] := by
      simp [fullText]
    rw [ends, wordsShown_append _ (by simp)]
    rfl
  | binary op a b =>
    have ends : (binary op a b).fullText.toList =
        (a.fullText ++ " " ++ op.symbol ++ " ").toList ++ b.fullText.toList := by
      simp [fullText]
    rw [ends, wordsShown_append _ b.fullText_ne_nil]
    exact b.wordsShown_fullText

namespace Body

theorem before_condition_append {xs ys : List Char} (free : 'i' ∉ xs)
    (apart : ys.head? ≠ some 'i') :
    before conditionMark (xs ++ ys) = xs ++ before conditionMark ys :=
  before_append free apart

theorem wordsShown_before_append {xs ys : List Char} (free : 'i' ∉ xs) (free' : 'i' ∉ ys)
    (nonempty : ys ≠ []) :
    wordsShown (before conditionMark (xs ++ ys)) = wordsShown ys := by
  have whole : before conditionMark (xs ++ ys ++ []) = xs ++ ys ++ [] :=
    before_condition_append (by simp [free, free']) (by decide)
  rw [List.append_nil] at whole
  rw [whole, wordsShown_append xs nonempty]

/-- A text that shows an operand last, and no condition, shows the words of the operand. -/
theorem wordsShown_of_operand_last {text : String} {lead : List Char} (o : Operand)
    (parts : text.toList = lead ++ o.fullText.toList) (free : 'i' ∉ lead) :
    wordsShown (before conditionMark text.toList) = o.size := by
  rw [parts, wordsShown_before_append free o.notMem_fullText o.fullText_ne_nil]
  exact o.wordsShown_fullText

/-- A body is as large as its text shows. -/
theorem wordsShown_fullText (b : Body) :
    wordsShown (before conditionMark b.fullText.toList) = b.size := by
  cases b with
  | addAp operand =>
    have parts : (addAp operand).fullText.toList = "ap += ".toList ++ operand.fullText.toList := by
      simpa using fullText_addAp_append [] operand
    exact wordsShown_of_operand_last operand parts (by decide)
  | assertEq a b =>
    have parts : (assertEq a b).fullText.toList =
        (a.fullText.toList ++ " = ".toList) ++ b.fullText.toList := by
      simpa using fullText_assertEq_append [] a b
    exact wordsShown_of_operand_last b parts (by simp [a.notMem_fullText])
  | assertEqQm31 a b =>
    have parts : (assertEqQm31 a b).fullText.toList =
        ("\x7bQM31\x7d ".toList ++ a.fullText.toList ++ " = ".toList) ++ b.fullText.toList := by
      simpa using fullText_assertEqQm31_append [] a b
    exact wordsShown_of_operand_last b parts (by simp [a.notMem_fullText])
  | call target relative =>
    have parts : (call target relative).fullText.toList =
        ("call " ++ distance relative ++ " ").toList ++ target.fullText.toList := by
      simpa using fullText_call_append [] target relative
    have free : 'i' ∉ ("call " ++ distance relative ++ " ").toList := by
      cases relative <;> decide
    exact wordsShown_of_operand_last (.atom target) parts free
  | jump target relative =>
    have parts : (jump target relative).fullText.toList =
        ("jmp " ++ distance relative ++ " ").toList ++ target.fullText.toList := by
      simpa using fullText_jump_append [] target relative
    have free : 'i' ∉ ("jmp " ++ distance relative ++ " ").toList := by
      cases relative <;> decide
    exact wordsShown_of_operand_last (.atom target) parts free
  | jumpNonzero offset condition =>
    -- Here the mark does stand in the text, and what is before it ends with the jump's offset.
    have parts : (jumpNonzero offset condition).fullText.toList =
        ("jmp rel ".toList ++ offset.fullText.toList) ++
          (conditionMark ++ (condition.fullText.toList ++ " != 0".toList)) := by
      simpa [conditionMark] using fullText_jumpNonzero_append [] offset condition
    have free : 'i' ∉ "jmp rel ".toList ++ offset.fullText.toList := by
      simp [offset.notMem_fullText]
    have found : before conditionMark
        (conditionMark ++ (condition.fullText.toList ++ " != 0".toList)) = [] := by
      simp [conditionMark, before]
    rw [parts, before_condition_append free (by simp [conditionMark]), found, List.append_nil,
      wordsShown_append _ offset.fullText_ne_nil]
    exact offset.wordsShown_fullText
  | ret => decide
  | blake2s state byteCount message finalize =>
    have parts : (blake2s state byteCount message finalize).fullText.toList =
        ("blake2s[state=".toList ++ state.fullText.toList ++ ", message=".toList ++
          message.fullText.toList ++ ", byte_count=".toList ++ byteCount.fullText.toList) ++
          (", finalize=" ++ (if finalize then "true" else "false") ++ "] => [ap + 0]").toList := by
      simpa using fullText_blake2s_append [] state byteCount message finalize
    have free : 'i' ∉ "blake2s[state=".toList ++ state.fullText.toList ++ ", message=".toList ++
        message.fullText.toList ++ ", byte_count=".toList ++ byteCount.fullText.toList := by
      simp [state.notMem_fullText, message.notMem_fullText, byteCount.notMem_fullText]
    rw [parts, before_condition_append free (by simp)]
    change _ = 1
    cases finalize
    · rw [wordsShown_append _ (by decide)]
      decide
    · rw [wordsShown_append _ (by decide)]
      decide

theorem size_eq_of_fullText (b : Body) : b.size = if showsConstant b.fullText then 2 else 1 :=
  b.wordsShown_fullText.symm

end Body

/-- Whether the body can be written and its text shows a constant last. -/
def Instruction.showsConstant (i : Instruction) : Bool :=
  match i.body.text with
  | .ok t => Body.showsConstant t
  | .error _ => false

theorem Instruction.size_eq_of_text {i : Instruction}
    (short : WithinDigits digitLimit i.body.integers) :
    i.size = if i.showsConstant then 2 else 1 := by
  rw [showsConstant, Body.text_eq, showing_of_short short]
  exact i.body.size_eq_of_fullText

namespace Program

/-- A program has a word for each instruction, and one more for each constant that is shown. -/
theorem size_eq_add_countP {is : List Instruction}
    (short : ∀ i ∈ is, WithinDigits digitLimit i.body.integers) :
    size ⟨is⟩ = is.length + is.countP Instruction.showsConstant := by
  induction is with
  | nil => rfl
  | cons i is ih =>
    obtain ⟨first, rest⟩ := List.forall_mem_cons.mp short
    rw [size_cons, ih rest, Instruction.size_eq_of_text first, List.countP_cons, List.length_cons]
    split <;> omega

end Program

/-- The size of a body is read off its text, so the addresses and the size of a program are read
off the texts of its bodies, whatever its hints are and wherever `ap` moves on. -/
theorem size_read_from_text :
    (∀ b : Body, WithinDigits digitLimit b.integers →
      ∃ t, b.text = .ok t ∧ b.size = if Body.showsConstant t then 2 else 1) ∧
    (∀ p : Program, WithinDigits digitLimit p.bodyIntegers →
      (∃ os, p.offsets.result = .ok os ∧ ∀ k < p.length,
        os[k]? = some (k + (p.instructions.take k).countP Instruction.showsConstant)) ∧
      p.size = p.length + p.instructions.countP Instruction.showsConstant) ∧
    ∀ p q : Program,
      List.Forall₂ (fun i j => ∃ t, i.body.text = .ok t ∧ j.body.text = .ok t)
        p.instructions q.instructions →
      (∃ os, p.offsets.result = .ok os ∧ q.offsets.result = .ok os) ∧ p.size = q.size := by
  refine ⟨?_, ?_, ?_⟩
  · intro b short
    refine ⟨b.fullText, ?_, b.size_eq_of_fullText⟩
    rw [Body.text_eq, showing_of_short short]
  · intro p short
    have bodies := Program.withinDigits_bodyIntegers.mp short
    refine ⟨⟨p.addresses, Program.offsets_eq_ok_iff.mpr ⟨short, rfl⟩, ?_⟩,
      Program.size_eq_add_countP bodies⟩
    intro k inside
    have before : (p.instructions.take k).length = k := List.length_take_of_le (Nat.le_of_lt inside)
    have front : ∀ i ∈ p.instructions.take k, WithinDigits digitLimit i.body.integers :=
      fun i member => bodies i (List.mem_of_mem_take member)
    have count := Program.size_eq_add_countP front
    rw [before] at count
    rw [p.getElem?_addresses inside, Program.sizeBefore, count]
  · intro p q texts
    have bodies : List.Forall₂ (fun i j => i.body = j.body) p.instructions q.instructions := by
      refine texts.imp fun i j same => ?_
      obtain ⟨t, first, second⟩ := same
      rw [Body.text_eq, showing_eq_ok_iff] at first second
      exact Body.fullText_inj.mp (first.2.trans second.2.symm)
    have short : WithinDigits digitLimit p.bodyIntegers := by
      refine Program.withinDigits_bodyIntegers.mpr fun i member => ?_
      obtain ⟨j, _, t, written, _⟩ := forall₂_exists_of_mem texts member
      rw [Body.text_eq, showing_eq_ok_iff] at written
      exact written.1
    have given := Program.offsets_eq_ok_iff.mpr ⟨short, rfl⟩
    have sizes : List.Forall₂ (fun i j => i.size = j.size) p.instructions q.instructions :=
      bodies.imp fun i j same => congrArg Body.size same
    exact ⟨⟨p.addresses, given, Program.offsets_congr bodies ▸ given⟩, Program.size_congr sizes⟩

/-- A constant on the left, a digit after a condition, and hint code that looks like a body. -/
theorem size_read_from_text_jumps :
    let jump : Body := .jumpNonzero (.immediate (-12)) ⟨.fp, 0⟩
    let call : Body := .call (.cell ⟨.ap, 5⟩) true
    let add : Body := .addAp (.binary .mul (.immediate 7) (.cell ⟨.ap, 2⟩))
    let p : Program := ⟨[⟨jump, true, [.verbatim "ap += 3"]⟩, ⟨call, false, []⟩, ⟨add, false, []⟩]⟩
    let q : Program := ⟨[⟨jump, false, []⟩, ⟨call, true, []⟩, ⟨add, true, [.verbatim " if "]⟩]⟩
    WithinDigits digitLimit jump.integers ∧
      (∃ t, jump.text = .ok t ∧ jump.size = if Body.showsConstant t then 2 else 1) ∧
      WithinDigits digitLimit p.bodyIntegers ∧ p.size = 3 + 1 ∧
      (∃ os, p.offsets.result = .ok os ∧ 2 < p.length ∧ os[2]? = some (2 + 1)) ∧
      List.Forall₂ (fun i j => ∃ t, i.body.text = .ok t ∧ j.body.text = .ok t)
        p.instructions q.instructions ∧
      (∃ os, p.offsets.result = .ok os ∧ q.offsets.result = .ok os) ∧ p.size = q.size := by
  intro jump call add p q
  obtain ⟨sizes, addresses, texts⟩ := size_read_from_text
  have shortJump : WithinDigits digitLimit jump.integers := by decide +kernel
  have short : WithinDigits digitLimit p.bodyIntegers := by decide +kernel
  have inside : 2 < p.length := by decide
  have shown : (p.instructions.take 2).countP Instruction.showsConstant = 1 := by decide +kernel
  have shown' : p.instructions.countP Instruction.showsConstant = 1 := by decide +kernel
  obtain ⟨⟨os, given, each⟩, size⟩ := addresses p short
  have same : List.Forall₂ (fun i j => ∃ t, i.body.text = .ok t ∧ j.body.text = .ok t)
      p.instructions q.instructions :=
    .cons ⟨"jmp rel -12 if [fp + 0] != 0", by decide +kernel, by decide +kernel⟩
      (.cons ⟨"call rel [ap + 5]", by decide +kernel, by decide +kernel⟩
        (.cons ⟨"ap += 7 * [ap + 2]", by decide +kernel, by decide +kernel⟩ .nil))
  have third := each 2 inside
  rw [shown] at third
  rw [shown'] at size
  exact ⟨shortJump, sizes jump shortJump, short, size, ⟨os, given, inside, third⟩, same,
    texts p q same⟩

/-- A body that shows too long a number has a size, but no text to read it from. -/
theorem unwritable_body_shows_no_size :
    Body.unwritable.size = 2 ∧ ¬∃ t, Body.unwritable.text = .ok t ∧
      Body.unwritable.size = if Body.showsConstant t then 2 else 1 := by
  refine ⟨rfl, ?_⟩
  intro ⟨t, written, _⟩
  rw [Body.text_unwritable] at written
  cases written

end CairoAsm
