import CairoAsm.Proofs.Session.Steps

/-!
Runs of sessions compared: without the steps that change nothing, with a copy replaced by an import,
and without what goes on in other slots.
-/
namespace CairoAsm.Session

def history (s : Session) (steps : List (String × Step)) : List ((String × Step) × Answer) :=
  steps.zip (s.run steps)

section
variable {s t : Session} {slot : String} {work : Step} {steps rest : List (String × Step)}

theorem run_cons :
    s.run ((slot, work) :: rest) = (s.step slot work).2 :: (s.step slot work).1.run rest := rfl

theorem history_cons : s.history ((slot, work) :: rest) =
    ((slot, work), (s.step slot work).2) :: (s.step slot work).1.history rest := rfl

theorem run_append (s : Session) (first : List (String × Step)) :
    s.run (first ++ rest) = s.run first ++ (s.after first).run rest := by
  induction first generalizing s with
  | nil => rfl
  | cons step first ih =>
    obtain ⟨slot, work⟩ := step
    rw [List.cons_append, run_cons, run_cons, after_cons, ih, List.cons_append]

/-- Whether a step succeeded and did more than to ask for something or to import again what is
there. -/
def counts (taken : (String × Step) × Answer) : Bool :=
  taken.2.reply.isOk && !taken.1.2.readsOnly && !taken.1.2.isReload

theorem Sound.agreeOn_step_of_not_counts (sound : s.Sound)
    (idle : counts ((slot, work), (s.step slot work).2) = false) :
    AgreeOn (fun _ => True) (s.step slot work).1 s := by
  rcases sound.step_cases slot work with same | ⟨effect, succeeded⟩
  · rw [same]
    exact .refl sound
  · have next := sound.step slot work
    simp only [counts, succeeded, Bool.true_and, Bool.and_eq_false_iff, Bool.not_eq_false'] at idle
    generalize (s.step slot work).1 = t at effect next
    cases effect with
    | nothing => exact .refl sound
    | program p writes _ kept =>
      have held := kept (idle.resolve_left (by simp [writes]))
      refine ⟨next, sound, rfl, fun name _ => ?_⟩
      rw [sound.program?_put]
      split
      · rename_i same
        rw [same, held]
      · rfl
    | append | settings => simp [Step.readsOnly, Step.isReload] at idle

theorem run_counting (steps : List (String × Step)) (agree : AgreeOn (fun _ => True) t s) :
    t.run (((s.history steps).filter counts).map Prod.fst) =
        ((s.history steps).filter counts).map Prod.snd ∧
      AgreeOn (fun _ => True) (t.after (((s.history steps).filter counts).map Prod.fst))
        (s.after steps) := by
  induction steps generalizing s t with
  | nil => exact ⟨rfl, agree⟩
  | cons step rest ih =>
    obtain ⟨slot, work⟩ := step
    rw [history_cons, after_cons]
    cases counted : counts ((slot, work), (s.step slot work).2) with
    | true =>
      obtain ⟨answer, next⟩ := agree.step trivial fun _ _ => trivial
      obtain ⟨answers, last⟩ := ih next
      rw [List.filter_cons_of_pos counted, List.map_cons, List.map_cons, run_cons, after_cons]
      exact ⟨by rw [answers, answer], last⟩
    | false =>
      rw [List.filter_cons_of_neg (by simp [counted])]
      exact ih (agree.trans (agree.right.agreeOn_step_of_not_counts counted).symm)

/-- Steps that fail, only ask for something or import again what is there can be left out of a run:
the other steps get the answers they got, and the programs and settings at the end are the same. -/
theorem idle_steps_unnoticed (first : String) (before steps : List (String × Step)) :
    let s := (start first).after before
    let kept := (s.history steps).filter counts
    s.run (kept.map Prod.fst) = kept.map Prod.snd ∧
      (s.after (kept.map Prod.fst)).settings = (s.after steps).settings ∧
        ∀ slot, (s.after (kept.map Prod.fst)).program? slot = (s.after steps).program? slot := by
  intro s kept
  have sound : s.Sound := (sound_start first).after before
  obtain ⟨answers, last⟩ := run_counting steps (AgreeOn.refl sound)
  exact ⟨answers, last.settings, fun slot => last.programs slot trivial⟩

/-- The answers to the steps of a run on one slot. -/
def answersOn (s : Session) (slot : String) (steps : List (String × Step)) : List Answer :=
  ((s.history steps).filter fun taken => taken.1.1 = slot).map Prod.snd

/-- Whether a step can matter to a slot that looks at no other one. -/
def concerns (slot : String) (step : String × Step) : Bool :=
  step.1 = slot || step.2.isUpdate

theorem answersOn_cons_own : s.answersOn slot ((slot, work) :: rest) =
    (s.step slot work).2 :: (s.step slot work).1.answersOn slot rest := by
  simp [answersOn, history_cons]

theorem answersOn_cons_other {name : String} (differ : name ≠ slot) :
    s.answersOn slot ((name, work) :: rest) = (s.step name work).1.answersOn slot rest := by
  simp [answersOn, history_cons, differ]

theorem answersOn_filter_concerns (agree : AgreeOn (· = slot) s t)
    (alone : ∀ work, (slot, work) ∈ steps → work.others = []) :
    s.answersOn slot steps = t.answersOn slot (steps.filter (concerns slot)) := by
  induction steps generalizing s t with
  | nil => rfl
  | cons step rest ih =>
    obtain ⟨name, work⟩ := step
    have later : ∀ work, (slot, work) ∈ rest → work.others = [] :=
      fun work there => alone work (List.mem_cons_of_mem _ there)
    by_cases own : name = slot
    · subst own
      have inside : ∀ other ∈ work.others, other = name := by
        simp [alone work List.mem_cons_self]
      obtain ⟨answer, next⟩ := agree.step rfl inside
      rw [List.filter_cons_of_pos (by simp [concerns]), answersOn_cons_own, answersOn_cons_own,
        answer, ih next later]
    · rw [answersOn_cons_other own]
      cases updates : work.isUpdate with
      | true =>
        rw [List.filter_cons_of_pos (by simp [concerns, updates]), answersOn_cons_other own]
        exact ih (agree.update updates) later
      | false =>
        have unnoticed : AgreeOn (· = slot) (s.step name work).1 s :=
          agree.left.agreeOn_step_of_unseen own updates
        rw [List.filter_cons_of_neg (by simp [concerns, updates, own])]
        exact ih (unnoticed.trans agree) later

/-- Programs are independent values, whatever steps have been taken. No two names refer to one list.
A copy can be replaced by an import of what its source exports at that moment, what is appended in
one slot is not seen in another one, and the steps on other slots do not matter to a slot that none
of its own steps compares or copies from. -/
theorem programs_independent (first : String) (before : List (String × Step)) :
    let s := (start first).after before
    (∀ a b address, s.address? a = some address → s.address? b = some address → a = b) ∧
    (∀ slot source later, (s.step slot (.copy source)).2.reply.isOk →
      ∃ p, s.program? source = some p ∧
        (start first).run (before ++ (slot, .copy source) :: later) =
          (start first).run (before ++ (slot, .load p.toJson) :: later)) ∧
    (∀ slot name data times, name ≠ slot →
      (s.step slot (.append data times)).1.program? name = s.program? name) ∧
    ∀ slot steps, (∀ work, (slot, work) ∈ steps → work.others = []) →
      s.answersOn slot steps = s.answersOn slot (steps.filter (concerns slot)) := by
  intro s
  have sound : s.Sound := (sound_start first).after before
  refine ⟨fun a b address => sound.apart, ?_, ?_, ?_⟩
  · intro slot source later succeeded
    obtain ⟨p, held⟩ := program?_of_copy succeeded
    refine ⟨p, held, ?_⟩
    rw [run_append, run_append, run_cons, run_cons, sound.step_copy held]
  · intro slot name data times differ
    exact sound.program?_step differ
  · intro slot steps alone
    exact answersOn_filter_concerns (.refl sound) alone

/-- A program of two returns, copied before the copy and then itself get another one. -/
theorem programs_independent_copy :
    let ret : Instruction := ⟨.ret, false, []⟩
    let before : List (String × Step) := [("p", .append ret.toJson 2)]
    let later : List (String × Step) :=
      [("q", .append ret.toJson 1), ("q", .update none (some true) none), ("p", .offsets),
        ("p", .append ret.toJson 1), ("p", .emit)]
    let steps := ("q", .copy "p") :: later
    let s := (start "p").after before
    let t := (start "p").after (before ++ [("q", .copy "p")])
    (∃ a b, t.address? "p" = some a ∧ t.address? "q" = some b ∧ a ≠ b) ∧
    ((s.step "q" (.copy "p")).2.reply.isOk ∧
      ∃ p, s.program? "p" = some p ∧
        (start "p").run (before ++ steps) =
          (start "p").run (before ++ ("q", .load p.toJson) :: later)) ∧
    ("p" ≠ "q" ∧ (t.step "q" (.append ret.toJson 1)).1.program? "p" = t.program? "p") ∧
    (∀ work, ("p", work) ∈ steps → work.others = []) ∧
      s.answersOn "p" steps = s.answersOn "p" (steps.filter (concerns "p")) := by
  intro ret before later steps s t
  obtain ⟨_, copied, _, dropped⟩ := programs_independent "p" before
  obtain ⟨_, _, appended, _⟩ := programs_independent "p" (before ++ [("q", .copy "p")])
  have succeeded : (s.step "q" (.copy "p")).2.reply.isOk := rfl
  have differ : "p" ≠ "q" := by decide
  have ofP : t.address? "p" = some 0 := rfl
  have ofQ : t.address? "q" = some 1 := rfl
  have alone : ∀ work, ("p", work) ∈ steps → work.others = [] := by
    simp [steps, later, Step.others]
  refine ⟨⟨0, 1, ofP, ofQ, ?_⟩, ⟨succeeded, copied "q" "p" later succeeded⟩,
    ⟨differ, appended "q" "p" ret.toJson 1 differ⟩, alone, dropped "p" steps alone⟩
  rintro ⟨⟩

end
end CairoAsm.Session
