import CairoAsm.Proofs.Hint
import CairoAsm.Proofs.Listing.Rows
import CairoAsm.Proofs.Program
import CairoAsm.Proofs.Text.Streams

/-!
What streams show of a listing. Bodies and computed hints are shown as they are, so only a hint that
is given as code can bring in a control sequence.
-/
namespace CairoAsm
open Text

namespace Hint

theorem notMem_fullCode {h : Hint} (structured : h.Structured) {c : Char} (low : c.toNat < 32)
    (other : c ≠ '\n') : c ∉ h.fullCode.toList := by
  rcases structured_fullCode_cases structured with printable | ⟨ls, framed, _, plain⟩
  · exact printable.notMem low
  · have whole : h.fullCode = "\n" ++ unlines ls ++ "\n" := framed
    rw [whole]
    intro member
    simp only [String.toList_append, List.mem_append] at member
    have inside : c ∈ (unlines ls).toList := by simpa [other] using member
    obtain break_ | ⟨l, hl, within⟩ := mem_toList_unlines inside
    · exact other break_
    · exact (plain l hl).1.notMem low within

/-- Code stands in braces, set off by a blank or not. -/
theorem fullText_frame (h : Hint) :
    h.fullText.toList = "%\x7b".toList ++ (h.fullCode.toList ++ '%' :: ['\x7d']) ∨
      h.fullText.toList = "%\x7b ".toList ++ (h.fullCode.toList ++ ' ' :: ['%', '\x7d']) := by
  unfold fullText framed
  split
  · exact .inl (by simp)
  · exact .inr (by simp)

theorem hasControl_fullText (h : Hint) :
    hasControl h.fullText.toList = hasControl h.fullCode.toList := by
  rcases h.fullText_frame with whole | whole
  · rw [whole, hasControl_append_of_notMem (by decide), hasControl_append_stop _ (by decide)]
    exact Bool.or_false _
  · rw [whole, hasControl_append_of_notMem (by decide), hasControl_append_stop _ (by decide)]
    exact Bool.or_false _

/-- Only code that is given has control sequences. -/
theorem hasControl_fullCode (h : Hint) :
    hasControl h.fullCode.toList = h.source?.any fun source => hasControl source.toList := by
  cases given : h.source? with
  | some source =>
    rw [eq_verbatim given]
    rfl
  | none =>
    exact hasControl_eq_false_of_notMem (h.notMem_fullCode given (by decide) (by decide))

end Hint

namespace Instruction

theorem any_fullHintLines (i : Instruction) :
    (i.fullHintLines.any fun l => hasControl l.toList) =
      i.hints.any fun h => h.source?.any fun source => hasControl source.toList := by
  rw [fullHintLines, List.any_flatMap]
  refine congrArg (List.any i.hints) (funext fun h => ?_)
  rw [← hasControl_unlines, unlines_lines, h.hasControl_fullText, h.hasControl_fullCode]

end Instruction

namespace Listing

theorem hasControl_hintLine (s : Settings) (width : Nat) (l : String) :
    hasControl (hintLine s width l).toList = hasControl l.toList := by
  unfold hintLine
  split
  · rw [String.toList_append]
    exact hasControl_append_of_notMem ((printable_blanks _).notMem (by decide))
  · rfl

theorem hasControl_bodyLine (s : Settings) (width offset : Nat) (i : Instruction) :
    hasControl (bodyLine s width offset i.size i.fullLine).toList = false :=
  hasControl_eq_false_of_notMem ((printable_bodyLine s width offset i).notMem (by decide))

theorem any_fullLines (s : Settings) (width : Nat) (placed : Nat × Instruction) :
    ((fullLines s width placed).any fun l => hasControl l.toList) =
      placed.2.hints.any fun h => h.source?.any fun source => hasControl source.toList := by
  simp only [fullLines, block, List.any_append, List.any_map, Function.comp_def,
    hasControl_hintLine, hasControl_bodyLine, List.any_cons, List.any_nil, Bool.or_false,
    Instruction.any_fullHintLines]

end Listing

namespace Program

/-- The code of the hints that are given as code. -/
def sources (p : Program) : List String :=
  p.instructions.flatMap fun i => i.hints.filterMap Hint.source?

theorem any_sources (p : Program) (f : String → Bool) :
    p.sources.any f = p.instructions.any fun i => i.hints.any fun h => h.source?.any f := by
  have eachHint (i : Instruction) :
      (i.hints.filterMap Hint.source?).any f = i.hints.any fun h => h.source?.any f := by
    rw [List.any_filterMap]
    refine congrArg (List.any i.hints) (funext fun h => ?_)
    cases h.source? <;> rfl
  rw [sources, List.any_flatMap]
  exact congrArg (List.any p.instructions) (funext eachHint)

theorem hasControl_fullListing (p : Program) (s : Settings) :
    hasControl (p.fullListing s).toList =
      p.sources.any fun source => hasControl source.toList := by
  rw [fullListing, hasControl_unlines, fullLines, List.any_flatMap, any_sources,
    ← p.map_snd_placed, List.any_map]
  exact congrArg (List.any p.placed) (funext (Listing.any_fullLines s p.addressWidth))

/-- No hint brings in a control sequence. -/
def ShownInFull (p : Program) : Prop := ∀ source ∈ p.sources, hasControl source.toList = false

instance (p : Program) : Decidable p.ShownInFull :=
  inferInstanceAs (Decidable (∀ source ∈ p.sources, hasControl source.toList = false))

theorem stripControls_fullListing_iff (p : Program) (s : Settings) :
    stripControls (p.fullListing s).toList = (p.fullListing s).toList ↔ p.ShownInFull := by
  rw [stripControls_eq_self_iff, hasControl_fullListing, List.any_eq_false]
  simp only [Bool.not_eq_true, ShownInFull]

end Program
end CairoAsm
