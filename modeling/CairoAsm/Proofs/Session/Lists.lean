import CairoAsm.Proofs.Schema.RoundTrip
import CairoAsm.Session
import Mathlib.Data.List.GetD

/-!
The lists of a session. Whatever is done, each program has a list of its own, so what is appended to
one program is not seen in another.
-/
namespace CairoAsm.Session

variable {s : Session} {slot name : String} {work : Step} {address other : Nat}
  {is : List Instruction} {i : Instruction} {p : Program}

/-- Each name has a list of its own, and every body in the lists can be written. -/
structure Sound (s : Session) : Prop where
  apart : ∀ {a b address}, s.address? a = some address → s.address? b = some address → a = b
  made : ∀ {a address}, s.address? a = some address → address < s.lists.length
  writable : ∀ is ∈ s.lists, ∀ i ∈ is, WithinDigits digitLimit i.body.integers

theorem lookup_filter_ne (differ : name ≠ slot) (programs : List (String × Nat)) :
    (programs.filter fun (n, _) => n ≠ slot).lookup name = programs.lookup name := by
  induction programs with
  | nil => rfl
  | cons entry rest ih =>
    obtain ⟨n, address⟩ := entry
    by_cases own : n = slot
    · have passed : (name == n) = false := beq_false_of_ne fun same => differ (same.trans own)
      rw [List.filter_cons_of_neg (by simp [own]), List.lookup_cons, passed]
      exact ih
    · rw [List.filter_cons_of_pos (by simp [own]), List.lookup_cons, List.lookup_cons, ih]

theorem address?_put (s : Session) (slot name : String) (is : List Instruction) :
    (s.put slot is).address? name =
      if name = slot then some s.lists.length else s.address? name := by
  by_cases same : name = slot
  · simp [address?, put, same]
  · have differ : (name == slot) = false := beq_false_of_ne same
    simp only [address?, put, List.lookup_cons, differ, if_neg same]
    exact lookup_filter_ne same s.programs

theorem programAt_put_new (s : Session) (slot : String) (is : List Instruction) :
    (s.put slot is).programAt s.lists.length = ⟨is⟩ := by
  simp [programAt, put]

/-- A new list leaves the others where they are. -/
theorem programAt_put_of_lt (made : address < s.lists.length) :
    (s.put slot is).programAt address = s.programAt address := by
  simp only [programAt, put, List.getD_append _ _ _ _ made]

theorem programAt_append_own (made : address < s.lists.length) (times : Nat) :
    (s.append address i times).1.programAt address = (s.programAt address).append i times := by
  simp [programAt, append, made]

/-- Only the list that is appended to changes. -/
theorem programAt_append_other (differ : address ≠ other) (times : Nat) :
    (s.append address i times).1.programAt other = s.programAt other := by
  simp [programAt, append, differ]

/-- All names of a list see what is appended to it. -/
theorem program?_append_of_shared (held : s.address? name = some address)
    (made : address < s.lists.length) (times : Nat) :
    (s.append address i times).1.program? name = some ((s.programAt address).append i times) := by
  have stays : (s.append address i times).1.address? name = s.address? name := rfl
  rw [program?, stays, held, Option.map_some, programAt_append_own made]

namespace Sound
variable (sound : s.Sound)
include sound

theorem program?_put :
    (s.put slot is).program? name = if name = slot then some ⟨is⟩ else s.program? name := by
  rw [program?, address?_put]
  by_cases same : name = slot
  · rw [if_pos same, if_pos same, Option.map_some, programAt_put_new]
  · rw [if_neg same, if_neg same, program?]
    cases held : s.address? name with
    | none => rfl
    | some address => rw [Option.map_some, Option.map_some, programAt_put_of_lt (sound.made held)]

theorem program?_append (held : s.address? slot = some address) (times : Nat) :
    (s.append address i times).1.program? name =
      if name = slot then some ((s.programAt address).append i times) else s.program? name := by
  by_cases same : name = slot
  · rw [if_pos same, same, program?_append_of_shared held (sound.made held)]
  · have stays : (s.append address i times).1.address? name = s.address? name := rfl
    rw [if_neg same, program?, program?, stays]
    cases elsewhere : s.address? name with
    | none => rfl
    | some other =>
      have differ : address ≠ other := by
        rintro rfl
        exact same (sound.apart elsewhere held)
      rw [Option.map_some, Option.map_some, programAt_append_other differ]

theorem put (short : ∀ i ∈ is, WithinDigits digitLimit i.body.integers) :
    (s.put slot is).Sound where
  apart {a b address} first second := by
    rw [address?_put] at first second
    split at first <;> split at second
    · rename_i here there
      exact here.trans there.symm
    · cases first
      exact absurd (sound.made second) (Nat.lt_irrefl _)
    · cases second
      exact absurd (sound.made first) (Nat.lt_irrefl _)
    · exact sound.apart first second
  made {a address} held := by
    have longer : (s.put slot is).lists.length = s.lists.length + 1 := List.length_append
    rw [address?_put] at held
    rw [longer]
    split at held
    · cases held
      exact Nat.lt_succ_self _
    · exact Nat.lt_succ_of_lt (sound.made held)
  writable := List.forall_mem_append.mpr ⟨sound.writable, List.forall_mem_singleton.mpr short⟩

theorem append (short : WithinDigits digitLimit i.body.integers) (address times : Nat) :
    (s.append address i times).1.Sound where
  apart first second := sound.apart first second
  made held := by
    have asLong : (s.append address i times).1.lists.length = s.lists.length :=
      List.length_modify ..
    rw [asLong]
    exact sound.made held
  writable := by
    intro list member j within
    obtain ⟨k, inside, rfl⟩ := List.getElem_of_mem member
    simp only [Session.append, List.getElem_modify] at within
    split at within
    · rcases List.mem_append.mp within with old | new
      · exact sound.writable _ (List.getElem_mem _) j old
      · rw [List.eq_of_mem_replicate new]
        exact short
    · exact sound.writable _ (List.getElem_mem _) j within

theorem settings (settings : Settings) : Sound { s with settings } :=
  ⟨sound.apart, sound.made, sound.writable⟩

theorem short_of_program? (held : s.program? name = some p) :
    ∀ i ∈ p.instructions, WithinDigits digitLimit i.body.integers := by
  obtain ⟨address, found, rfl⟩ := Option.map_eq_some_iff.mp held
  have made := sound.made found
  intro i member
  simp only [programAt, List.getD_eq_getElem _ _ made] at member
  exact sound.writable _ (List.getElem_mem made) i member

end Sound

theorem sound_start (slot : String) : (start slot).Sound := by
  have blank : Sound ⟨[], [], {}⟩ := ⟨nofun, nofun, nofun⟩
  exact blank.put (List.forall_mem_nil _)

/-- Steps that only ask for something. -/
def Step.readsOnly : Step → Bool
  | .offsets | .emit | .emitPlain | .listing | .text | .json | .equals _ | .equalsData _ => true
  | _ => false

def Step.isReload : Step → Bool
  | .reload => true
  | _ => false

def Step.isUpdate : Step → Bool
  | .update .. => true
  | _ => false

theorem program_eq_ok_iff : s.program slot = .ok p ↔ s.program? slot = some p := by
  rw [program, address, program?]
  cases s.address? slot with
  | none => simp [Except.map]
  | some address => simp [Except.map]

theorem address_eq_ok_iff : s.address slot = .ok address ↔ s.address? slot = some address := by
  rw [Session.address]
  cases s.address? slot with
  | none => simp
  | some address => simp

theorem short_of_imported {v : Json} (read : imported (Program.ofJson v) = .ok p) :
    ∀ i ∈ p.instructions, WithinDigits digitLimit i.body.integers :=
  (Program.ofJson_eq_ok_iff_readFrom.mp (mapError_eq_ok_iff.mp read)).2

theorem short_of_imported_instruction {v : Json}
    (read : imported (Instruction.ofJson v) = .ok i) : WithinDigits digitLimit i.body.integers :=
  (Instruction.ofJson_eq_ok_iff.mp (mapError_eq_ok_iff.mp read)).2

/-- A program of a session is imported from its export. -/
theorem Sound.imported_toJson (sound : s.Sound) (held : s.program? name = some p) :
    imported (Program.ofJson p.toJson) = .ok p := by
  have short := Program.withinDigits_bodyIntegers.mpr (sound.short_of_program? held)
  exact mapError_eq_ok_iff.mpr (p.ofJson_toJson_iff.mpr short)

/-- What a step that succeeds can do: nothing, give its slot a new program, append to the list of
its slot's program, or change the settings. A reload gives the slot the program it has. -/
inductive Effect (s : Session) (slot : String) : Step → Session → Prop where
  | nothing {work : Step} (reads : work.readsOnly) : Effect s slot work s
  | program {work : Step} (p : Program) (writes : work.readsOnly = false)
      (short : ∀ i ∈ p.instructions, WithinDigits digitLimit i.body.integers)
      (kept : work.isReload → s.program? slot = some p) :
      Effect s slot work (s.put slot p.instructions)
  | append {data : Json} {times address : Nat} {i : Instruction}
      (held : s.address? slot = some address) (short : WithinDigits digitLimit i.body.integers) :
      Effect s slot (.append data times) (s.append address i times).1
  | settings {showOffsets showSizes verbose : Option Bool} (settings : Settings) :
      Effect s slot (.update showOffsets showSizes verbose) { s with settings }

theorem Sound.effect_of_perform (sound : s.Sound) {next : Session} {reply : Reply}
    (h : s.perform slot work = .ok (next, reply)) : Effect s slot work next := by
  cases work with
  | new =>
    cases h
    exact .program ⟨[]⟩ rfl (List.forall_mem_nil _) nofun
  | load data =>
    obtain ⟨p, read, h⟩ := bind_eq_ok_iff.mp h
    cases h
    exact .program p rfl (short_of_imported read) nofun
  | copy source =>
    obtain ⟨p, held, h⟩ := bind_eq_ok_iff.mp h
    cases h
    exact .program p rfl (sound.short_of_program? (program_eq_ok_iff.mp held)) nofun
  | update showOffsets showSizes verbose =>
    cases h
    exact .settings _
  | append data times =>
    obtain ⟨address, held, h⟩ := bind_eq_ok_iff.mp h
    obtain ⟨i, read, h⟩ := bind_eq_ok_iff.mp h
    cases h
    exact .append (address_eq_ok_iff.mp held) (short_of_imported_instruction read)
  | reload =>
    obtain ⟨p, held, h⟩ := bind_eq_ok_iff.mp h
    replace held := program_eq_ok_iff.mp held
    rw [sound.imported_toJson held, ok_bind] at h
    cases h
    exact .program p rfl (sound.short_of_program? held) fun _ => held
  | equals other =>
    obtain ⟨p, _, h⟩ := bind_eq_ok_iff.mp h
    obtain ⟨q, _, h⟩ := bind_eq_ok_iff.mp h
    cases h
    exact .nothing rfl
  | json | equalsData =>
    obtain ⟨p, _, h⟩ := bind_eq_ok_iff.mp h
    cases h
    exact .nothing rfl
  | offsets | emit | emitPlain | listing | text =>
    obtain ⟨p, _, h⟩ := bind_eq_ok_iff.mp h
    obtain ⟨shown, _, h⟩ := bind_eq_ok_iff.mp h
    cases h
    exact .nothing rfl

/-- A step leaves the session as it is, or it succeeds and has one of these effects. -/
theorem Sound.step_cases (sound : s.Sound) (slot : String) (work : Step) :
    (s.step slot work).1 = s ∨
      Effect s slot work (s.step slot work).1 ∧ (s.step slot work).2.reply.isOk := by
  unfold Session.step
  cases h : s.perform slot work with
  | error refusal => exact .inl rfl
  | ok done => exact .inr ⟨sound.effect_of_perform h, rfl⟩

theorem Effect.sound {next : Session} (effect : Effect s slot work next) (sound : s.Sound) :
    next.Sound := by
  cases effect with
  | nothing => exact sound
  | program p _ short => exact sound.put short
  | append _ short => exact sound.append short _ _
  | settings settings => exact sound.settings settings

theorem Sound.step (sound : s.Sound) (slot : String) (work : Step) :
    (s.step slot work).1.Sound := by
  rcases sound.step_cases slot work with same | ⟨effect, _⟩
  · rw [same]
    exact sound
  · exact effect.sound sound

/-- The session that steps lead to. -/
def after (s : Session) (steps : List (String × Step)) : Session :=
  steps.foldl (fun s (slot, work) => (s.step slot work).1) s

theorem after_cons {rest : List (String × Step)} :
    s.after ((slot, work) :: rest) = (s.step slot work).1.after rest := rfl

theorem Sound.after (sound : s.Sound) (steps : List (String × Step)) : (s.after steps).Sound := by
  induction steps generalizing s with
  | nil => exact sound
  | cons step rest ih =>
    obtain ⟨slot, work⟩ := step
    exact ih (sound.step slot work)

end CairoAsm.Session
