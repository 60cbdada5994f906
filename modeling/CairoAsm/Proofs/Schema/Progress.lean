import CairoAsm.Proofs.Layout.Tiling
import CairoAsm.Proofs.Schema.Acceptance

/-!
What an import reports. An instruction is reported as soon as all but its single hints is known to
be valid and its body is written, and a list is imported up to its first fault, so the reports tell
how far an import came.
-/
namespace CairoAsm

def Event.record (e : Event) : Severity × String := (e.severity, e.message)

def creationRecord (body : String) (hints : Nat) : Severity × String :=
  (.debug, "Created instruction " ++ body ++ " with " ++ hints.repr ++ " hint(s)")

def placementRecord (offset : Nat) (body : String) : Severity × String :=
  (.debug, "Instruction at " ++ offset.repr ++ ": " ++ body)

namespace Instruction

/-- Data of an instruction whose class, body and mark are valid, whose hints are a list, and whose
body can be written. -/
structure Drafted (v : Json) (body : String) (hints : List Json) : Prop where
  named : v.IsA "Instruction"
  listed : v.field? "Hints" = some (.arr hints) ∨ v.field? "Hints" = none ∧ hints = []
  body : ∃ w b, v.field? "Body" = some w ∧ Body.ofJson w = .ok b ∧ b.text = .ok body
  incAp : (Field.optional "IncAp" .boolean).Held v

variable {v : Json} {body : String} {hints : List Json} {i : Instruction}

theorem exists_incApData_iff :
    (∃ b, incApData v = .ok b) ↔ (Field.optional "IncAp" .boolean).Held v := by
  simp only [incApData_eq_ok_iff, Field.Held, Field.optional, fits_boolean_iff]
  constructor
  · intro known
    obtain ⟨b, mark⟩ := known
    cases mark with
    | inl found => exact .inl ⟨_, found, b, rfl⟩
    | inr missing => exact .inr ⟨trivial, missing.1⟩
  · intro held
    cases held with
    | inl found =>
      obtain ⟨w, found, b, same⟩ := found
      exact ⟨b, .inl (same ▸ found)⟩
    | inr missing => exact ⟨false, .inr ⟨missing.2, rfl⟩⟩

theorem exists_draft_iff :
    (∃ d, Draft.ofJson v = .ok d ∧ d.body.text = .ok body ∧ d.hints = hints) ↔
      Drafted v body hints := by
  simp only [Draft.ofJson_eq_ok_iff, hintData_eq_ok_iff]
  constructor
  · rintro ⟨d, ⟨named, listed, ⟨w, found, known⟩, incAp⟩, written, rfl⟩
    exact ⟨named, listed, ⟨w, d.body, found, known, written⟩,
      exists_incApData_iff.mp ⟨d.incAp, incAp⟩⟩
  · intro drafted
    obtain ⟨w, b, found, known, written⟩ := drafted.body
    obtain ⟨mark, incAp⟩ := exists_incApData_iff.mpr drafted.incAp
    exact ⟨⟨b, mark, hints⟩, ⟨drafted.named, drafted.listed, ⟨w, found, known⟩, incAp⟩, written,
      rfl⟩

theorem ofJson_of_draft {d : Draft} (draft : Draft.ofJson v = .ok d) :
    ofJson v = Traced.lift (d.body.text.mapError fun _ => .oversized) >>= fun body =>
      .report (.created body d.hints.length) >>= fun _ =>
        .lift ((d.hints.mapM Hint.ofJson).mapError .ofFault) >>= fun hints =>
          pure ⟨d.body, d.incAp, hints⟩ := by
  simp only [ofJson, draft]
  rfl

/-- A draft whose body is written is reported, and then its hints are read. -/
theorem ofJson_of_written {d : Draft} (draft : Draft.ofJson v = .ok d)
    (written : d.body.text = .ok body) :
    ofJson v = ⟨[.created body d.hints.length],
      ((d.hints.mapM Hint.ofJson).mapError .ofFault).map fun hints =>
        ⟨d.body, d.incAp, hints⟩⟩ := by
  rw [ofJson_of_draft draft, written]
  cases d.hints.mapM Hint.ofJson <;> rfl

theorem ofJson_of_unwritten {d : Draft} {e : Oversized} (draft : Draft.ofJson v = .ok d)
    (unwritten : d.body.text = .error e) : ofJson v = ⟨[], .error .oversized⟩ := by
  rw [ofJson_of_draft draft, unwritten]
  rfl

theorem ofJson_of_no_draft {f : Fault} (draft : Draft.ofJson v = .error f) :
    ofJson v = ⟨[], .error (.ofFault f)⟩ := by
  simp only [ofJson, draft]
  rfl

/-- The report of an instruction, if it comes so far. -/
def started? (v : Json) : Option Event :=
  match Draft.ofJson v with
  | .ok d =>
    match d.body.text with
    | .ok body => some (.created body d.hints.length)
    | .error _ => none
  | .error _ => none

theorem started?_of_unwritten {d : Draft} {e : Oversized} (draft : Draft.ofJson v = .ok d)
    (unwritten : d.body.text = .error e) : started? v = none := by
  simp only [started?, draft, unwritten]

theorem started?_eq_some_iff {e : Event} :
    started? v = some e ↔ ∃ body hints, Drafted v body hints ∧ e = .created body hints.length := by
  simp only [started?, ← exists_draft_iff]
  cases Draft.ofJson v with
  | error f => simp
  | ok d =>
    dsimp only
    constructor
    · intro same
      split at same
      · rename_i body written
        exact ⟨body, d.hints, ⟨d, rfl, written, rfl⟩, (Option.some.inj same).symm⟩
      · cases same
    · rintro ⟨body, hints, ⟨d', same, written, rfl⟩, rfl⟩
      cases same
      rw [written]

theorem log_ofJson (v : Json) : (ofJson v).log = (started? v).toList := by
  unfold started?
  cases draft : Draft.ofJson v with
  | error f => simp only [ofJson_of_no_draft draft, Option.toList_none]
  | ok d =>
    dsimp only
    cases written : d.body.text with
    | error e => simp only [ofJson_of_unwritten draft written, Option.toList_none]
    | ok body => simp only [ofJson_of_written draft written, Option.toList_some]

def creation (i : Instruction) : Event := .created i.body.fullText i.hints.length

theorem started?_of_created (created : (ofJson v).result = .ok i) :
    started? v = some i.creation := by
  obtain ⟨⟨named, ⟨w, found, known⟩, incAp, items, listed, read⟩, short⟩ :=
    ofJson_eq_ok_iff.mp created
  have written : i.body.text = .ok i.body.fullText := by
    rw [Body.text_eq, showing_of_short short]
  have drafted : Drafted v i.body.fullText items :=
    ⟨named, hintData_eq_ok_iff.mp listed, ⟨w, i.body, found, known, written⟩,
      exists_incApData_iff.mp ⟨_, incAp⟩⟩
  rw [creation, ← (mapM_eq_ok_iff.mp read).length_eq]
  exact started?_eq_some_iff.mpr ⟨_, items, drafted, rfl⟩

/-- An instruction that has been reported fails at the first fault among its hints. -/
theorem failure_of_drafted {e : Failure} (drafted : Drafted v body hints)
    (failed : (ofJson v).result = .error e) :
    (hints.mapM Hint.ofJson).mapError .ofFault = .error e := by
  obtain ⟨d, draft, written, rfl⟩ := exists_draft_iff.mpr drafted
  rw [ofJson_of_written draft written, ← errorOf_eq_some_iff, errorOf_map] at failed
  exact errorOf_eq_some_iff.mp failed

theorem started?_of_failed {e : Failure} (failed : (ofJson v).result = .error e) :
    (∃ body hints, Drafted v body hints ∧ (hints.mapM Hint.ofJson).mapError .ofFault = .error e ∧
      started? v = some (.created body hints.length)) ∨
    (∀ body hints, ¬Drafted v body hints) ∧ started? v = none := by
  cases started : started? v with
  | none =>
    refine .inr ⟨?_, rfl⟩
    intro body hints drafted
    cases started.symm.trans (started?_eq_some_iff.mpr ⟨body, hints, drafted, rfl⟩)
  | some e =>
    obtain ⟨body, hints, drafted, rfl⟩ := started?_eq_some_iff.mp started
    exact .inl ⟨body, hints, drafted, failure_of_drafted drafted failed, rfl⟩

end Instruction

namespace Program
open Traced

variable {v bad : Json} {items before : List Json} {is : List Instruction} {e : Failure}

theorem ofJson_of_listed (listed : instructionData v = .ok items) :
    ofJson v = (items.mapM Instruction.ofJson).map Program.mk := by
  have rest : ofJson v = items.mapM Instruction.ofJson >>= fun is => pure ⟨is⟩ := by
    simp only [ofJson, listed]
    rfl
  rw [rest]
  cases read : (items.mapM Instruction.ofJson).result with
  | error f => simp only [bind_of_error read, Traced.map, read, Except.map]
  | ok is => simp only [bind_of_ok read, Traced.map, read, Except.map, pure, List.append_nil]

/-- Every instruction that is looked at, up to the first fault, is reported if it comes so far. -/
theorem log_ofJson_of_listed (listed : instructionData v = .ok items) :
    (ofJson v).log = (reached Instruction.ofJson items).filterMap Instruction.started? := by
  simp only [ofJson_of_listed listed, Traced.map, log_mapM, Instruction.log_ofJson,
    List.filterMap_eq_flatMap_toList]

theorem filterMap_started?_of_created
    (each : List.Forall₂ (fun v i => (Instruction.ofJson v).result = .ok i) items is) :
    items.filterMap Instruction.started? = is.map Instruction.creation := by
  induction each with
  | nil => rfl
  | cons first _ ih =>
    simp only [List.filterMap_cons, Instruction.started?_of_created first, ih, List.map_cons]

theorem log_ofJson_of_ok {p : Program} (read : (ofJson v).result = .ok p) :
    (ofJson v).log = p.instructions.map Instruction.creation := by
  obtain ⟨items, listed, created⟩ := ofJson_eq_ok_iff.mp read
  have each := mapM_eq_ok_iff.mp created
  rw [log_ofJson_of_listed listed, reached_of_ok each, filterMap_started?_of_created each]

theorem ofJson_of_created
    (each : List.Forall₂ (fun v i => (Instruction.ofJson v).result = .ok i) items is) :
    ofJson (.arr items) = ⟨is.map Instruction.creation, .ok ⟨is⟩⟩ := by
  have created : (ofJson (.arr items)).result = .ok ⟨is⟩ :=
    ofJson_eq_ok_iff.mpr ⟨items, rfl, mapM_eq_ok_iff.mpr each⟩
  exact Traced.ext (log_ofJson_of_ok created) created

/-- What follows the first fault has no part in the import. -/
theorem ofJson_of_first_fault
    (each : List.Forall₂ (fun v i => (Instruction.ofJson v).result = .ok i) before is)
    (failed : (Instruction.ofJson bad).result = .error e) (after : List Json) :
    ofJson (.arr (before ++ bad :: after)) =
      ⟨is.map Instruction.creation ++ (Instruction.started? bad).toList, .error e⟩ := by
  let items := before ++ bad :: after
  have log := log_ofJson_of_listed (v := .arr items) rfl
  have error : (ofJson (.arr items)).result = .error e := by
    rw [ofJson_of_listed (v := .arr items) rfl, result_map, result_mapM_append each failed]
    rfl
  have own : [bad].filterMap Instruction.started? = (Instruction.started? bad).toList := by
    cases h : Instruction.started? bad <;> simp [h]
  rw [reached_append each failed, List.filterMap_append, filterMap_started?_of_created each,
    own] at log
  exact Traced.ext log error

end Program

/-- What is said of an instruction that is created. -/
def RecordsCreation (i : Instruction) (record : Severity × String) : Prop :=
  ∃ body, i.body.text = .ok body ∧ record = creationRecord body i.hints.length

/-- What is said of the address of an instruction. -/
def RecordsPlacement (placed : Nat × Instruction) (record : Severity × String) : Prop :=
  ∃ body, placed.2.body.text = .ok body ∧ record = placementRecord placed.1 body

/-- An import of a list that stops at the item `bad`, its first fault. The items that follow have no
part in it, and `own` is what the log says of the item itself. -/
structure StopsAt (bad : Json) (before : List Json) (is : List Instruction) (failure : Failure)
    (own : List (Severity × String)) : Prop where
  created : List.Forall₂ (fun v i => (Instruction.ofJson v).result = .ok i) before is
  failed : (Instruction.ofJson bad).result = .error failure
  itself :
    (∃ body hints, Instruction.Drafted bad body hints ∧
      (hints.mapM Hint.ofJson).mapError .ofFault = .error failure ∧
      own = [creationRecord body hints.length]) ∨
    (∀ body hints, ¬Instruction.Drafted bad body hints) ∧ own = []
  result (after : List Json) :
    (Program.ofJson (.arr (before ++ bad :: after))).result = .error failure
  log (after : List Json) : ∃ records, List.Forall₂ RecordsCreation is records ∧
    (Program.ofJson (.arr (before ++ bad :: after))).log.map Event.record = records ++ own

/-- An import of a list that comes to its end, and what is said of the addresses `os` after it. -/
structure Completes (items : List Json) (is : List Instruction) (os : List Nat) : Prop where
  created : List.Forall₂ (fun v i => (Instruction.ofJson v).result = .ok i) items is
  result : (Program.ofJson (.arr items)).result = .ok ⟨is⟩
  log : List.Forall₂ RecordsCreation is ((Program.ofJson (.arr items)).log.map Event.record)
  offsets : (Program.mk is).offsets.result = .ok os
  length : os.length = is.length
  placements :
    List.Forall₂ RecordsPlacement (os.zip is) ((Program.mk is).offsets.log.map Event.record)

section
variable {items before : List Json} {bad : Json} {is : List Instruction} {e : Failure}

theorem short_of_created
    (created : List.Forall₂ (fun v i => (Instruction.ofJson v).result = .ok i) items is) :
    ∀ i ∈ is, WithinDigits digitLimit i.body.integers := by
  intro i member
  obtain ⟨v, _, read⟩ := forall₂_exists_of_mem created.flip member
  exact (Instruction.ofJson_eq_ok_iff.mp read).2

theorem Body.text_of_short {b : Body} (short : WithinDigits digitLimit b.integers) :
    b.text = .ok b.fullText := by
  rw [Body.text_eq, showing_of_short short]

theorem recordsCreation_map (short : ∀ i ∈ is, WithinDigits digitLimit i.body.integers) :
    List.Forall₂ RecordsCreation is ((is.map Instruction.creation).map Event.record) := by
  rw [List.map_map, List.forall₂_map_right_iff, List.forall₂_same]
  intro i member
  exact ⟨i.body.fullText, Body.text_of_short (short i member), rfl⟩

/-- Every address is reported with the body that goes there. -/
theorem recordsPlacement_offsets (short : ∀ i ∈ is, WithinDigits digitLimit i.body.integers) :
    List.Forall₂ RecordsPlacement ((Program.mk is).addresses.zip is)
      ((Program.mk is).offsets.log.map Event.record) := by
  have log := Program.log_offsets (p := ⟨is⟩) (Program.withinDigits_bodyIntegers.mpr short)
  have zipped : List.zipWith Program.placement (Program.mk is).addresses is =
      ((Program.mk is).addresses.zip is).map (Function.uncurry Program.placement) :=
    (List.map_zip_eq_zipWith (f := Function.uncurry Program.placement)).symm
  rw [log, zipped, List.map_map, List.forall₂_map_right_iff, List.forall₂_same]
  rintro ⟨offset, i⟩ member
  exact ⟨i.body.fullText, Body.text_of_short (short i (List.of_mem_zip member).2), rfl⟩

theorem stopsAt_of_first_fault
    (created : List.Forall₂ (fun v i => (Instruction.ofJson v).result = .ok i) before is)
    (failed : (Instruction.ofJson bad).result = .error e) :
    StopsAt bad before is e ((Instruction.started? bad).toList.map Event.record) where
  created := created
  failed := failed
  itself := by
    cases Instruction.started?_of_failed failed with
    | inl inHint =>
      obtain ⟨body, hints, drafted, failure, started⟩ := inHint
      simp only [started]
      exact .inl ⟨body, hints, drafted, failure, rfl⟩
    | inr earlier =>
      simp only [earlier.2]
      exact .inr ⟨earlier.1, rfl⟩
  result after := by
    simp only [Program.ofJson_of_first_fault created failed]
  log after := by
    refine ⟨_, recordsCreation_map (short_of_created created), ?_⟩
    simp only [Program.ofJson_of_first_fault created failed, List.map_append]

theorem completes_of_created
    (created : List.Forall₂ (fun v i => (Instruction.ofJson v).result = .ok i) items is) :
    Completes items is (Program.mk is).addresses where
  created := created
  result := by
    simp only [Program.ofJson_of_created created]
  log := by
    simp only [Program.ofJson_of_created created]
    exact recordsCreation_map (short_of_created created)
  offsets := Program.offsets_eq_ok_iff.mpr
    ⟨Program.withinDigits_bodyIntegers.mpr (short_of_created created), rfl⟩
  length := Program.length_addresses _
  placements := recordsPlacement_offsets (short_of_created created)

end

/-- An import of a list ends with the error of the first item that fails, and the log names the
instructions before that item, and the item itself if all but its single hints is valid and its body
can be written. If no item fails, the log names all instructions, and then their addresses. -/
theorem import_stops_at_first_fault (items : List Json) :
    ((∃ v ∈ items, ∀ i, (Instruction.ofJson v).result ≠ .ok i) →
      ∃ before bad after is failure own, items = before ++ bad :: after ∧
        StopsAt bad before is failure own) ∧
    ((∀ v ∈ items, ∃ i, (Instruction.ofJson v).result = .ok i) →
      ∃ is os, Completes items is os) := by
  cases Traced.all_ok_or_first_error Instruction.ofJson items with
  | inl all =>
    obtain ⟨is, created⟩ := all
    constructor
    · intro fails
      obtain ⟨v, member, fails⟩ := fails
      obtain ⟨i, here⟩ := exists_mapM_eq_ok_iff.mp ⟨is, mapM_eq_ok_iff.mpr created⟩ v member
      exact absurd here (fails i)
    · intro _
      exact ⟨is, _, completes_of_created created⟩
  | inr first =>
    obtain ⟨before, is, bad, failure, after, same, created, failed⟩ := first
    constructor
    · intro _
      exact ⟨before, bad, after, is, failure, _, same, stopsAt_of_first_fault created failed⟩
    · intro accepted
      obtain ⟨i, here⟩ := accepted bad (by simp [same])
      cases failed.symm.trans here

/-- A fault in a hint of the second item, which is reported, and one in the third, which is not
looked at. -/
theorem import_stops_at_first_fault_hint :
    let good := Instruction.toJson ⟨.ret, false, [.verbatim "x"]⟩
    let bad := classObject "Instruction" [("Body", Body.ret.toJson), ("Hints", .arr [.null])]
    let items := [good, bad, .null]
    (∃ v ∈ items, ∀ i, (Instruction.ofJson v).result ≠ .ok i) ∧
      (∃ before bad after is failure own, items = before ++ bad :: after ∧
        StopsAt bad before is failure own) ∧
      (∀ v ∈ [good], ∃ i, (Instruction.ofJson v).result = .ok i) ∧
      ∃ is os, Completes [good] is os := by
  intro good bad items
  have fails : ∃ v ∈ items, ∀ i, (Instruction.ofJson v).result ≠ .ok i := by
    refine ⟨.null, by simp [items], ?_⟩
    intro i created
    cases created
  have created : ∀ v ∈ [good], ∃ i, (Instruction.ofJson v).result = .ok i := by
    intro v member
    obtain rfl := List.mem_singleton.mp member
    exact ⟨⟨.ret, false, [.verbatim "x"]⟩, rfl⟩
  exact ⟨fails, (import_stops_at_first_fault items).1 fails, created,
    (import_stops_at_first_fault [good]).2 created⟩

/-- An instruction whose body cannot be written is not reported, valid as its data is. -/
theorem unwritable_instruction_not_reported :
    let i : Instruction := ⟨.unwritable, false, []⟩
    i.ReadFrom i.toJson ∧ (∃ e, (Instruction.ofJson i.toJson).result = .error e) ∧
      (Program.ofJson (.arr [i.toJson])).log = [] := by
  intro i
  have draft : Instruction.Draft.ofJson i.toJson = .ok ⟨i.body, false, []⟩ :=
    Instruction.Draft.ofJson_eq_ok_iff.mpr ⟨rfl, rfl, ⟨i.body.toJson, rfl, i.body.ofJson_toJson⟩,
      Instruction.incApData_eq_ok_iff.mpr (.inl rfl)⟩
  have failed := Instruction.ofJson_of_unwritten draft Body.text_unwritable
  have result : (Instruction.ofJson i.toJson).result = .error .oversized := by rw [failed]
  have stops := Program.ofJson_of_first_fault .nil result []
  rw [Instruction.started?_of_unwritten draft Body.text_unwritable, List.nil_append] at stops
  refine ⟨i.readFrom_toJson, ⟨_, result⟩, ?_⟩
  rw [stops]
  rfl

end CairoAsm
