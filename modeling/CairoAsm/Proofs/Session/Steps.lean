import CairoAsm.Proofs.Session.Lists

/-!
What a step of a session looks at and what it leaves alone. Sessions that agree on the slots a step
looks at give it the same answer, and agree on them afterwards, wherever their lists are.
-/
namespace CairoAsm.Session

/-- Sound sessions with the same settings, and the same programs in the slots that are looked at. -/
structure AgreeOn (seen : String → Prop) (s t : Session) : Prop where
  left : s.Sound
  right : t.Sound
  settings : s.settings = t.settings
  programs : ∀ slot, seen slot → s.program? slot = t.program? slot

/-- The slots a step looks at besides its own. -/
def Step.others : Step → List String
  | .copy source => [source]
  | .equals other => [other]
  | _ => []

namespace AgreeOn
variable {seen : String → Prop} {s t u : Session} {slot : String} {a b : Nat} {i : Instruction}
  {is : List Instruction}

theorem refl (sound : s.Sound) : AgreeOn seen s s := ⟨sound, sound, rfl, fun _ _ => rfl⟩

theorem symm (agree : AgreeOn seen s t) : AgreeOn seen t s :=
  ⟨agree.right, agree.left, agree.settings.symm, fun slot h => (agree.programs slot h).symm⟩

theorem trans (first : AgreeOn seen s t) (second : AgreeOn seen t u) : AgreeOn seen s u :=
  ⟨first.left, second.right, first.settings.trans second.settings,
    fun slot h => (first.programs slot h).trans (second.programs slot h)⟩

theorem put (agree : AgreeOn seen s t)
    (short : ∀ i ∈ is, WithinDigits digitLimit i.body.integers) :
    AgreeOn seen (s.put slot is) (t.put slot is) where
  left := agree.left.put short
  right := agree.right.put short
  settings := agree.settings
  programs name h := by
    rw [agree.left.program?_put, agree.right.program?_put, agree.programs name h]

/-- A slot that is looked at has no program in either session, or the lists of its programs hold the
same instructions. -/
theorem address (agree : AgreeOn seen s t) (here : seen slot) :
    (s.address slot = .error (.noProgram slot) ∧ t.address slot = .error (.noProgram slot)) ∨
      ∃ a b, s.address slot = .ok a ∧ t.address slot = .ok b ∧
        s.programAt a = t.programAt b := by
  have same := agree.programs slot here
  rw [program?, program?] at same
  rw [Session.address, Session.address]
  cases inS : s.address? slot with
  | none =>
    rw [inS, Option.map_none] at same
    rw [Option.map_eq_none_iff.mp same.symm]
    exact .inl ⟨rfl, rfl⟩
  | some a =>
    rw [inS, Option.map_some] at same
    obtain ⟨b, inT, held⟩ := Option.map_eq_some_iff.mp same.symm
    rw [inT]
    exact .inr ⟨a, b, rfl, rfl, held.symm⟩

theorem program (agree : AgreeOn seen s t) (here : seen slot) :
    s.program slot = t.program slot := by
  rw [Session.program, Session.program]
  rcases agree.address here with ⟨inS, inT⟩ | ⟨a, b, inS, inT, same⟩
  · rw [inS, inT]
    rfl
  · rw [inS, inT]
    exact congrArg Except.ok same

theorem append (agree : AgreeOn seen s t) (inS : s.address? slot = some a)
    (inT : t.address? slot = some b) (same : s.programAt a = t.programAt b)
    (short : WithinDigits digitLimit i.body.integers) (times : Nat) :
    AgreeOn seen (s.append a i times).1 (t.append b i times).1 where
  left := agree.left.append short a times
  right := agree.right.append short b times
  settings := agree.settings
  programs name h := by
    rw [agree.left.program?_append inS, agree.right.program?_append inT, agree.programs name h,
      same]

end AgreeOn

/-- Two ends of a step that cannot be told apart: the same refusal, or the same reply in sessions
that agree. -/
inductive SameEnd (seen : String → Prop) :
    Except Refusal (Session × Reply) → Except Refusal (Session × Reply) → Prop where
  | refused (refusal : Refusal) : SameEnd seen (.error refusal) (.error refusal)
  | done {s t : Session} (reply : Reply) (agree : AgreeOn seen s t) :
      SameEnd seen (.ok (s, reply)) (.ok (t, reply))

theorem SameEnd.bind {seen : String → Prop} {x : Except Refusal α}
    {f g : α → Except Refusal (Session × Reply)}
    (rest : ∀ a, x = .ok a → SameEnd seen (f a) (g a)) : SameEnd seen (x >>= f) (x >>= g) := by
  cases x with
  | error refusal => exact .refused refusal
  | ok a => exact rest a rfl

section
variable {seen : String → Prop} {s t : Session} {slot : String} {work : Step}

theorem AgreeOn.perform_append (agree : AgreeOn seen s t) (here : seen slot) (data : Json)
    (times : Nat) :
    SameEnd seen (s.perform slot (.append data times)) (t.perform slot (.append data times)) := by
  simp only [Session.perform]
  rcases agree.address here with ⟨inS, inT⟩ | ⟨a, b, inS, inT, same⟩
  · rw [inS, inT]
    exact .refused _
  · rw [inS, inT, ok_bind, ok_bind]
    refine .bind fun i read => ?_
    have returned : decide ((s.append a i times).2 = a) = decide ((t.append b i times).2 = b) := by
      simp [Session.append]
    simp only [returned]
    exact .done _ (agree.append (address_eq_ok_iff.mp inS) (address_eq_ok_iff.mp inT) same
      (short_of_imported_instruction read) times)

theorem AgreeOn.perform (agree : AgreeOn seen s t) (here : seen slot)
    (there : ∀ name ∈ work.others, seen name) :
    SameEnd seen (s.perform slot work) (t.perform slot work) := by
  have own := agree.program here
  cases work with
  | new => exact .done .done (agree.put (List.forall_mem_nil _))
  | load data => exact .bind fun p read => .done .done (agree.put (short_of_imported read))
  | copy source =>
    simp only [Session.perform, agree.program (there source List.mem_cons_self)]
    refine .bind fun p held => .done .done (agree.put ?_)
    exact agree.right.short_of_program? (program_eq_ok_iff.mp held)
  | update showOffsets showSizes verbose =>
    simp only [Session.perform, agree.settings]
    exact .done _ ⟨agree.left.settings _, agree.right.settings _, rfl, agree.programs⟩
  | append data times => exact agree.perform_append here data times
  | json | equalsData _ =>
    simp only [Session.perform, own]
    exact .bind fun p _ => .done _ agree
  | offsets | emitPlain | text =>
    simp only [Session.perform, own]
    exact .bind fun p _ => .bind fun shown _ => .done _ agree
  | emit | listing =>
    simp only [Session.perform, own, agree.settings]
    exact .bind fun p _ => .bind fun shown _ => .done _ agree
  | reload =>
    simp only [Session.perform, own]
    exact .bind fun p _ => .bind fun q read => .done _ (agree.put (short_of_imported read))
  | equals other =>
    simp only [Session.perform, own, agree.program (there other List.mem_cons_self)]
    exact .bind fun p _ => .bind fun q _ => .done _ agree

/-- A step is answered the same in sessions that agree on what it looks at. -/
theorem AgreeOn.step (agree : AgreeOn seen s t) (here : seen slot)
    (there : ∀ name ∈ work.others, seen name) :
    (s.step slot work).2 = (t.step slot work).2 ∧
      AgreeOn seen (s.step slot work).1 (t.step slot work).1 := by
  have ends := agree.perform here there
  have measured {s t : Session} (agree : AgreeOn seen s t) : s.measure slot = t.measure slot := by
    simp only [measure, agree.programs slot here]
  unfold Session.step
  generalize s.perform slot work = inS at ends
  generalize t.perform slot work = inT at ends
  cases ends with
  | refused refusal =>
    simp only [measured agree]
    exact ⟨trivial, agree⟩
  | done reply after =>
    simp only [measured after]
    exact ⟨trivial, after⟩

theorem Sound.program?_step (sound : s.Sound) {name : String} (differ : name ≠ slot) :
    (s.step slot work).1.program? name = s.program? name := by
  rcases sound.step_cases slot work with same | ⟨effect, _⟩
  · rw [same]
  · generalize (s.step slot work).1 = next at effect
    cases effect with
    | nothing => rfl
    | program p => rw [sound.program?_put, if_neg differ]
    | append held => rw [sound.program?_append held, if_neg differ]
    | settings => rfl

theorem Sound.settings_step (sound : s.Sound) (notUpdate : work.isUpdate = false) :
    (s.step slot work).1.settings = s.settings := by
  rcases sound.step_cases slot work with same | ⟨effect, _⟩
  · rw [same]
  · generalize (s.step slot work).1 = next at effect
    cases effect with
    | nothing | program | append => rfl
    | settings => cases notUpdate

/-- A step on a slot that is not looked at goes unnoticed, unless it changes the settings. -/
theorem Sound.agreeOn_step_of_unseen (sound : s.Sound) (unseen : ¬seen slot)
    (notUpdate : work.isUpdate = false) : AgreeOn seen (s.step slot work).1 s := by
  refine ⟨sound.step slot work, sound, sound.settings_step notUpdate, fun name looked => ?_⟩
  refine sound.program?_step ?_
  rintro rfl
  exact unseen looked

theorem AgreeOn.update (agree : AgreeOn seen s t) (isUpdate : work.isUpdate) :
    AgreeOn seen (s.step slot work).1 (t.step slot work).1 := by
  have left := agree.left.step slot work
  have right := agree.right.step slot work
  cases work with
  | update showOffsets showSizes verbose =>
    refine ⟨left, right, ?_, agree.programs⟩
    simp only [Session.step, Session.perform, agree.settings]
  | _ => cases isUpdate

/-- A copy is an import of what its source exports. -/
theorem Sound.step_copy (sound : s.Sound) {source : String} {p : Program}
    (held : s.program? source = some p) :
    s.step slot (.copy source) = s.step slot (.load p.toJson) := by
  have copied : s.perform slot (.copy source) = .ok (s.put slot p.instructions, .done) := by
    simp only [perform, program_eq_ok_iff.mpr held]
    rfl
  have loaded : s.perform slot (.load p.toJson) = .ok (s.put slot p.instructions, .done) := by
    simp only [perform, sound.imported_toJson held]
    rfl
  simp only [Session.step, copied, loaded]

theorem program?_of_copy {source : String} (succeeded : (s.step slot (.copy source)).2.reply.isOk) :
    ∃ p, s.program? source = some p := by
  cases held : s.program source with
  | ok p => exact ⟨p, program_eq_ok_iff.mp held⟩
  | error refusal =>
    have refused : s.perform slot (.copy source) = .error refusal := by
      simp only [perform, held]
      rfl
    rw [step, refused] at succeeded
    cases succeeded

end
end CairoAsm.Session
