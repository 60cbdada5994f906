import CairoAsm.Proofs.Schema.Checks

/-!
An import reports the first failing check of its data and no other. Each reader fails as its checks
do: first the class, then the fields one after another.
-/
namespace CairoAsm

open Check

/-- How an import ends whose reading fails. -/
def failureOf (x : Except Fault α) : Option Failure := errorOf (x.mapError .ofFault)

theorem failureOf_eq (x : Except Fault α) : failureOf x = (errorOf x).map .ofFault :=
  errorOf_mapError x Failure.ofFault

section
variable {fields : Json.Fields} {name key : String} {v : Json}

/-- An import that starts with the first of some checks, and goes on with the others. -/
theorem errorOf_then {x : Except Failure α} {f : α → Except Failure β} {c : Check}
    {cs : List Check} (first : errorOf x = c.reported)
    (rest : ∀ a, x = .ok a → errorOf (f a) = cs.findSome? reported) :
    errorOf (x >>= f) = (c :: cs).findSome? reported := by
  rw [errorOf_bind rest, first, List.findSome?_cons]
  cases c.reported <;> rfl

theorem errorOf_then_of_ok {x : Except Fault α} {f : α → Except Failure β} {c : Check}
    {cs : List Check} (first : failureOf x = c.reported)
    (rest : ∀ a, x = .ok a → errorOf (f a) = cs.findSome? reported) :
    errorOf (x.mapError .ofFault >>= f) = (c :: cs).findSome? reported :=
  errorOf_then first fun a ok => rest a (mapError_eq_ok_iff.mp ok)

theorem errorOf_then_read {x : Except Fault α} {read : α → Except Fault β}
    {f : β → Except Failure γ} {c : Check} {cs : List Check}
    (first : failureOf (x >>= read) = c.reported)
    (rest : ∀ b, x >>= read = .ok b → errorOf (f b) = cs.findSome? reported) :
    errorOf (x.mapError .ofFault >>= fun a => (read a).mapError .ofFault >>= f) =
      (c :: cs).findSome? reported := by
  rw [← bind_assoc, ← mapError_bind]
  exact errorOf_then_of_ok first rest

theorem failureOf_then {x : Except Fault α} {f : α → Except Fault β} {c : Check} {cs : List Check}
    (first : failureOf x = c.reported) (rest : ∀ a, failureOf (f a) = cs.findSome? reported) :
    failureOf (x >>= f) = (c :: cs).findSome? reported := by
  rw [failureOf, mapError_bind]
  exact errorOf_then_of_ok first fun a _ => rest a

theorem errorOf_last {x : Except Failure α} {c : Check} (only : errorOf x = c.reported) :
    errorOf x = [c].findSome? reported := by
  rw [only, List.findSome?_cons]
  cases c.reported <;> rfl

theorem failureOf_last {x : Except Fault α} {c : Check} (only : failureOf x = c.reported) :
    failureOf x = [c].findSome? reported :=
  errorOf_last only

theorem failureOf_bind_pure (x : Except Fault α) (g : α → β) :
    failureOf (x >>= fun a => pure (g a)) = failureOf x := by
  cases x <;> rfl

theorem failureOf_then_read {x : Except Fault α} {read : α → Except Fault β}
    {f : β → Except Fault γ} {c : Check} {cs : List Check}
    (first : failureOf (x >>= read) = c.reported)
    (rest : ∀ b, failureOf (f b) = cs.findSome? reported) :
    failureOf (x >>= fun a => read a >>= f) = (c :: cs).findSome? reported := by
  rw [← bind_assoc]
  exact failureOf_then first rest

theorem errorOf_get_bind {content : Content} {read : Json → Except Failure α}
    (named : fields.lookup "Class" = some (.str name))
    (reads : ∀ w,
      errorOf (read w) = reported ⟨some name, .required key content, some w, .thorough⟩) :
    errorOf ((Json.get (.obj fields) key).mapError .ofFault >>= read) =
      reported ⟨some name, .required key content, fields.lookup key, .thorough⟩ := by
  simp only [Json.get]
  cases found : fields.lookup key with
  | none =>
    rw [reported_of_inner_eq_nil rfl, named]
    rfl
  | some w => exact reads w

theorem failureOf_get_bind {content : Content} {read : Json → Except Fault α}
    (named : fields.lookup "Class" = some (.str name))
    (reads : ∀ w,
      failureOf (read w) = reported ⟨some name, .required key content, some w, .thorough⟩) :
    failureOf (Json.get (.obj fields) key >>= read) =
      reported ⟨some name, .required key content, fields.lookup key, .thorough⟩ := by
  rw [failureOf, mapError_bind]
  exact errorOf_get_bind named reads

theorem failureOf_get_plain {content : Content} {read : Json → Except Fault α}
    (named : fields.lookup "Class" = some (.str name))
    (plain : ∀ w, Check.inner ⟨some name, .required key content, some w, .thorough⟩ = [])
    (reads : ∀ w, errorOf (read w) = content.fault? key w) :
    failureOf (Json.get (.obj fields) key >>= read) =
      reported ⟨some name, .required key content, fields.lookup key, .thorough⟩ := by
  refine failureOf_get_bind named fun w => ?_
  rw [failureOf_eq, reads, reported_of_inner_eq_nil (plain w)]
  rfl

theorem failureOf_getInt (named : fields.lookup "Class" = some (.str name)) :
    failureOf (Json.getInt (.obj fields) key) =
      reported ⟨some name, .required key .integer, fields.lookup key, .thorough⟩ :=
  failureOf_get_plain named (fun w => by cases w <;> rfl) fun w => by cases w <;> rfl

theorem failureOf_getBool (named : fields.lookup "Class" = some (.str name)) :
    failureOf (Json.getBool (.obj fields) key) =
      reported ⟨some name, .required key .boolean, fields.lookup key, .thorough⟩ :=
  failureOf_get_plain named (fun w => by cases w <;> rfl) fun w => by cases w <;> rfl

theorem Register.errorOf_ofJson (w : Json) :
    errorOf (ofJson w) = Content.register.fault? key w := by
  cases w with
  | str s =>
    simp only [ofJson, ofJson?, Content.fault?]
    by_cases known : s = "ap" ∨ s = "fp"
    · rw [if_pos known]
      rcases known with rfl | rfl <;> rfl
    · have unknown : ofName? s = none := by
        unfold ofName?
        split <;> simp at known ⊢
      rw [if_neg known, unknown]
      rfl
  | _ => rfl

theorem Operation.errorOf_ofJson (w : Json) :
    errorOf (ofJson w) = Content.operation.fault? key w := by
  cases w with
  | str s =>
    simp only [ofJson, ofJson?, Content.fault?]
    by_cases known : s = "+" ∨ s = "*"
    · rw [if_pos known]
      rcases known with rfl | rfl <;> rfl
    · have unknown : ofSymbol? s = none := by
        unfold ofSymbol?
        split <;> simp at known ⊢
      rw [if_neg known, unknown]
      rfl
  | _ => rfl

theorem failureOf_getRegister (named : fields.lookup "Class" = some (.str name)) :
    failureOf (Json.get (.obj fields) key >>= Register.ofJson) =
      reported ⟨some name, .required key .register, fields.lookup key, .thorough⟩ :=
  failureOf_get_plain named (fun w => by cases w <;> rfl) Register.errorOf_ofJson

theorem failureOf_getOperation (named : fields.lookup "Class" = some (.str name)) :
    failureOf (Json.get (.obj fields) key >>= Operation.ofJson) =
      reported ⟨some name, .required key .operation, fields.lookup key, .thorough⟩ :=
  failureOf_get_plain named (fun w => by cases w <;> rfl) Operation.errorOf_ofJson

/-- An object of a class of the kind is at fault in its fields or not at all. -/
theorem reported_part_of_class {kind : Kind} {owner : Option String}
    (known : name ∈ kind.classNames) (named : fields.lookup "Class" = some (.str name)) :
    (part owner key kind (.obj fields)).reported = (ofFields name fields).findSome? reported := by
  have own : (part owner key kind (.obj fields)).failure? = none := by
    simp [part, failure?, faultAt, Field.required, Content.fault?, Kind.fault?, named, known]
  rw [reported_eq, own]
  simp [part, Check.inner, Field.required, named]

theorem reported_part_of_otherClass {kind : Kind} {owner : Option String} {got : Json}
    (other : ∀ name ∈ kind.classNames, got ≠ .str name)
    (found : fields.lookup "Class" = some got) :
    (part owner key kind (.obj fields)).reported = some (.ofFault (kind.otherClass got)) := by
  have own :
      (part owner key kind (.obj fields)).failure? = some (.ofFault (kind.otherClass got)) := by
    cases got with
    | str name =>
      have unknown : name ∉ kind.classNames := fun known => other name known rfl
      simp [part, failure?, faultAt, Field.required, Content.fault?, Kind.fault?, found, unknown]
    | _ => simp [part, failure?, faultAt, Field.required, Content.fault?, Kind.fault?, found]
  rw [reported_eq, own]
  rfl

/-- An import that looks at the class first fails as the check of a part of its kind. -/
theorem errorOf_part {kind : Kind} {read : Json → Except Failure α} {owner : Option String}
    (notList : ∀ items, v = .arr items → kind ≠ .program)
    (known : ∀ fields, v = .obj fields → ∀ name ∈ kind.classNames,
      fields.lookup "Class" = some (.str name) →
        errorOf (read (.str name)) = (ofFields name fields).findSome? reported)
    (other : ∀ got, (∀ name ∈ kind.classNames, got ≠ .str name) →
      errorOf (read got) = some (.ofFault (kind.otherClass got))) :
    errorOf ((v.get "Class").mapError .ofFault >>= read) = (part owner key kind v).reported := by
  cases v with
  | obj fields =>
    simp only [Json.get]
    cases found : fields.lookup "Class" with
    | none =>
      have own : (part owner key kind (.obj fields)).failure? =
          some (.ofFault (.missing "Class" none)) := by
        simp [part, failure?, faultAt, Field.required, Content.fault?, Kind.fault?, found]
      rw [reported_eq, own]
      rfl
    | some got =>
      by_cases ofKind : ∃ name ∈ kind.classNames, got = .str name
      · obtain ⟨name, listed, rfl⟩ := ofKind
        rw [reported_part_of_class listed found]
        exact known fields rfl name listed found
      · have unknown : ∀ name ∈ kind.classNames, got ≠ .str name :=
          fun name listed same => ofKind ⟨name, listed, same⟩
        rw [reported_part_of_otherClass unknown found]
        exact other got unknown
  | arr items =>
    have noProgram := notList items rfl
    rw [reported_eq]
    cases kind with
    | program => exact absurd rfl noProgram
    | _ => rfl
  | _ =>
    rw [reported_eq]
    cases kind <;> rfl

theorem failureOf_part {kind : Kind} {read : Json → Except Fault α} {owner : Option String}
    (notProgram : kind ≠ .program)
    (known : ∀ fields, v = .obj fields → ∀ name ∈ kind.classNames,
      fields.lookup "Class" = some (.str name) →
        failureOf (read (.str name)) = (ofFields name fields).findSome? reported)
    (other : ∀ got, (∀ name ∈ kind.classNames, got ≠ .str name) →
      failureOf (read got) = some (.ofFault (kind.otherClass got))) :
    failureOf (v.get "Class" >>= read) = (part owner key kind v).reported := by
  rw [failureOf, mapError_bind]
  exact errorOf_part (fun _ _ => notProgram) known other

theorem Cell.failureOf_ofJson {owner : Option String} (v : Json) :
    failureOf (ofJson v) = (part owner key .cell v).reported := by
  refine failureOf_part Kind.noConfusion ?_ ?_
  · rintro fields rfl name known named
    obtain rfl := List.mem_singleton.mp known
    exact failureOf_then_read (failureOf_getRegister named) fun r =>
      failureOf_then (failureOf_getInt named) fun n => rfl
  · intro got other
    split
    · exact absurd rfl (other _ (by decide))
    · rfl

theorem failureOf_getCell (named : fields.lookup "Class" = some (.str name)) :
    failureOf (Json.getCell (.obj fields) key) =
      reported ⟨some name, .required key (.part .cell), fields.lookup key, .thorough⟩ :=
  failureOf_get_bind named fun w => Cell.failureOf_ofJson w

theorem Atom.failureOf_ofJson {owner : Option String} (v : Json) :
    failureOf (ofJson v) = (part owner key .atom v).reported := by
  refine failureOf_part Kind.noConfusion ?_ ?_
  · rintro fields rfl name known named
    simp only [Kind.classNames, List.mem_cons, List.not_mem_nil, or_false] at known
    rcases known with rfl | rfl
    · have cell :
          failureOf (Cell.ofJson (.obj fields)) = (part owner key .cell (.obj fields)).reported :=
        Cell.failureOf_ofJson (.obj fields)
      rw [reported_part_of_class (by decide) named] at cell
      exact (failureOf_bind_pure _ _).trans cell
    · exact failureOf_then (failureOf_getInt named) fun n => rfl
  · intro got other
    split
    iterate 2 exact absurd rfl (other _ (by decide))
    rfl

theorem failureOf_getAtom (named : fields.lookup "Class" = some (.str name)) :
    failureOf (Json.getAtom (.obj fields) key) =
      reported ⟨some name, .required key (.part .atom), fields.lookup key, .thorough⟩ :=
  failureOf_get_bind named fun w => Atom.failureOf_ofJson w

theorem Operand.failureOf_ofJson {owner : Option String} (v : Json) :
    failureOf (ofJson v) = (part owner key .operand v).reported := by
  refine failureOf_part Kind.noConfusion ?_ ?_
  · rintro fields rfl name known named
    have atom (listed : name ∈ Kind.atom.classNames) :
        failureOf (Atom.ofJson (.obj fields)) = (ofFields name fields).findSome? reported := by
      have whole : failureOf (Atom.ofJson (.obj fields)) =
          (part owner key .atom (.obj fields)).reported := Atom.failureOf_ofJson (.obj fields)
      rw [whole, reported_part_of_class listed named]
    simp only [Kind.classNames, List.mem_cons, List.not_mem_nil, or_false] at known
    rcases known with rfl | rfl | rfl | rfl
    · exact (failureOf_bind_pure _ _).trans (atom (by decide))
    · exact (failureOf_bind_pure _ _).trans (atom (by decide))
    · exact failureOf_then_read (failureOf_getCell named) fun c =>
        failureOf_then (failureOf_getInt named) fun n => rfl
    · exact failureOf_then_read (failureOf_getOperation named) fun op =>
        failureOf_then_read (failureOf_getAtom named) fun a =>
          failureOf_then_read (failureOf_getAtom named) fun b => rfl
  · intro got other
    split
    iterate 4 exact absurd rfl (other _ (by decide))
    rfl

theorem failureOf_getOperand (named : fields.lookup "Class" = some (.str name)) :
    failureOf (Json.getOperand (.obj fields) key) =
      reported ⟨some name, .required key (.part .operand), fields.lookup key, .thorough⟩ :=
  failureOf_get_bind named fun w => Operand.failureOf_ofJson w

theorem Hint.failureOf_ofJson {owner : Option String} (v : Json) :
    failureOf (ofJson v) = (part owner key .hint v).reported := by
  refine failureOf_part Kind.noConfusion ?_ ?_
  · rintro fields rfl name known named
    simp only [Kind.classNames, List.mem_cons, List.not_mem_nil, or_false] at known
    rcases known with rfl | rfl | rfl | rfl | rfl | rfl | rfl | rfl
    · exact failureOf_last (failureOf_get_plain named (fun w => by cases w <;> rfl)
        fun w => by cases w <;> rfl)
    · exact failureOf_then (failureOf_getCell named) fun dst => rfl
    · exact failureOf_then (failureOf_getOperand named) fun l =>
        failureOf_then (failureOf_getOperand named) fun r =>
          failureOf_then (failureOf_getCell named) fun dst => rfl
    · exact failureOf_then (failureOf_getOperand named) fun l =>
        failureOf_then (failureOf_getOperand named) fun r =>
          failureOf_then (failureOf_getCell named) fun dst => rfl
    · exact failureOf_then (failureOf_getOperand named) fun l =>
        failureOf_then (failureOf_getOperand named) fun r =>
          failureOf_then (failureOf_getCell named) fun quotient =>
            failureOf_then (failureOf_getCell named) fun remainder => rfl
    · exact failureOf_then (failureOf_getOperand named) fun value =>
        failureOf_then (failureOf_getCell named) fun dst => rfl
    · exact failureOf_then (failureOf_getOperand named) fun size =>
        failureOf_then (failureOf_getCell named) fun dst => rfl
    · exact failureOf_then (failureOf_getOperand named) fun first =>
        failureOf_then (failureOf_getOperand named) fun last => rfl
  · intro got other
    split
    iterate 8 exact absurd rfl (other _ (by decide))
    rfl

theorem Body.failureOf_ofJson {owner : Option String} (v : Json) :
    failureOf (ofJson v) = (part owner key .body v).reported := by
  refine failureOf_part Kind.noConfusion ?_ ?_
  · rintro fields rfl name known named
    simp only [Kind.classNames, List.mem_cons, List.not_mem_nil, or_false] at known
    rcases known with rfl | rfl | rfl | rfl | rfl | rfl | rfl | rfl
    · exact failureOf_then (failureOf_getOperand named) fun operand => rfl
    · exact failureOf_then (failureOf_getCell named) fun a =>
        failureOf_then (failureOf_getOperand named) fun b => rfl
    · exact failureOf_then (failureOf_getCell named) fun a =>
        failureOf_then (failureOf_getOperand named) fun b => rfl
    · exact failureOf_then (failureOf_getAtom named) fun target =>
        failureOf_then (failureOf_getBool named) fun relative => rfl
    · exact failureOf_then (failureOf_getAtom named) fun target =>
        failureOf_then (failureOf_getBool named) fun relative => rfl
    · exact failureOf_then (failureOf_getAtom named) fun offset =>
        failureOf_then (failureOf_getCell named) fun condition => rfl
    · rfl
    · exact failureOf_then (failureOf_getCell named) fun state =>
        failureOf_then (failureOf_getCell named) fun byteCount =>
          failureOf_then (failureOf_getCell named) fun message =>
            failureOf_then (failureOf_getBool named) fun finalize => rfl
  · intro got other
    split
    iterate 8 exact absurd rfl (other _ (by decide))
    rfl

namespace Instruction

/-- Of the hints only that they are a list is looked at before the body. -/
theorem failureOf_hintData :
    failureOf (hintData (.obj fields)) =
      reported ⟨some name, .optional "Hints" (.parts .hint), fields.lookup "Hints", .own⟩ := by
  rw [reported_eq]
  simp only [hintData, Json.field?_obj]
  cases fields.lookup "Hints" with
  | none => rfl
  | some got => cases got <;> rfl

theorem failureOf_incApData :
    failureOf (incApData (.obj fields)) =
      reported ⟨some name, .optional "IncAp" .boolean, fields.lookup "IncAp", .thorough⟩ := by
  rw [reported_eq]
  cases found : fields.lookup "IncAp" with
  | none =>
    simp only [incApData, Json.field?_obj, found]
    rfl
  | some got =>
    simp only [incApData, Json.field?_obj, Json.getBool, Json.get, found]
    cases got <;> rfl

/-- The body is written once it is known. -/
theorem errorOf_bodyText {body : Body}
    (read : Json.get (.obj fields) "Body" >>= Body.ofJson = .ok body) :
    errorOf (body.text.mapError fun _ => Failure.oversized) =
      reported ⟨some name, .required "Body" (.part .body), fields.lookup "Body", .report⟩ := by
  obtain ⟨w, found, described⟩ := bind_eq_ok_iff.mp read
  have here : fields.lookup "Body" = some w := Json.get_eq_ok_iff.mp found
  have own : Check.failure? ⟨some name, .required "Body" (.part .body), some w, .report⟩ =
      errorOf (body.text.mapError fun _ => Failure.oversized) := by
    simp only [Check.failure?, Option.bind_some, reportFailure?, described, Body.text_eq, showing]
    split <;> rfl
  rw [here, reported_eq, own]
  simp

theorem failureOf_hints {items : List Json} (listed : hintData (.obj fields) = .ok items) :
    failureOf (items.mapM Hint.ofJson) =
      reported ⟨some name, .optional "Hints" (.parts .hint), fields.lookup "Hints", .thorough⟩ := by
  rw [failureOf_eq, errorOf_mapM, reported_eq, List.map_findSome?]
  rcases hintData_eq_ok_iff.mp listed with found | ⟨missing, rfl⟩
  · rw [Json.field?_obj] at found
    rw [found]
    simp only [failure?, faultAt, Field.optional, Content.fault?, Check.inner, Option.map_none,
      Option.none_or, if_true, List.findSome?_map]
    congr 1
    funext w
    exact (failureOf_eq _).symm.trans (Hint.failureOf_ofJson w)
  · rw [Json.field?_obj] at missing
    rw [missing]
    rfl

theorem result_ofJson (v : Json) :
    (ofJson v).result = (Draft.ofJson v).mapError .ofFault >>= fun draft =>
      (draft.body.text.mapError fun _ => .oversized) >>= fun _ =>
        (draft.hints.mapM Hint.ofJson).mapError .ofFault >>= fun hints =>
          pure ⟨draft.body, draft.incAp, hints⟩ := by
  simp only [ofJson, Traced.result_bind, Traced.result_lift, Traced.result_report,
    Traced.result_pure, ok_bind]
  rfl

theorem errorOf_ofJson {owner : Option String} (v : Json) :
    errorOf (ofJson v).result = (part owner key .instruction v).reported := by
  rw [result_ofJson, Draft.ofJson, mapError_bind, bind_assoc]
  refine errorOf_part (fun _ _ => Kind.noConfusion) ?_ ?_
  · rintro fields rfl name known named
    obtain rfl := List.mem_singleton.mp known
    simp only [mapError_bind, mapError_pure, bind_assoc, pure_bind]
    refine errorOf_then_of_ok failureOf_hintData fun items listed => ?_
    refine errorOf_then_read
      (failureOf_get_bind named fun w => Body.failureOf_ofJson w) fun body described => ?_
    refine errorOf_then_of_ok failureOf_incApData fun incAp _ => ?_
    refine errorOf_then (errorOf_bodyText described) fun text _ => ?_
    exact errorOf_then_of_ok (failureOf_hints listed) fun hints _ => rfl
  · intro got other
    split
    · exact absurd rfl (other _ (by decide))
    · rfl

end Instruction

namespace Program

theorem result_ofJson (v : Json) :
    (ofJson v).result = (instructionData v).mapError .ofFault >>= fun items =>
      items.mapM (fun w => (Instruction.ofJson w).result) >>= fun is => pure ⟨is⟩ := by
  simp only [ofJson, Traced.result_bind, Traced.result_lift, Traced.result_mapM,
    Traced.result_pure]
  rfl

/-- Instructions are looked at one by one. -/
theorem errorOf_instructions {owner : Option String} (items : List Json) :
    errorOf (items.mapM (fun w => (Instruction.ofJson w).result) >>= fun is =>
      pure (Program.mk is)) = (items.map (part owner key .instruction)).findSome? reported := by
  rw [errorOf_bind_pure, errorOf_mapM, List.findSome?_map]
  congr 1
  funext w
  exact Instruction.errorOf_ofJson w

theorem errorOf_ofJson {owner : Option String} (v : Json) :
    errorOf (ofJson v).result = (part owner key .program v).reported := by
  rw [result_ofJson]
  by_cases bare : ∃ items, v = .arr items
  · obtain ⟨items, rfl⟩ := bare
    rw [reported_eq]
    exact errorOf_instructions items
  · have notList (items : List Json) : v ≠ .arr items := fun same => bare ⟨items, same⟩
    rw [instructionData, mapError_bind, bind_assoc]
    refine errorOf_part (fun items same => absurd same (notList items)) ?_ ?_
    · rintro fields rfl name known named
      obtain rfl := List.mem_singleton.mp known
      simp only [mapError_bind, bind_assoc]
      refine errorOf_last (errorOf_get_bind named fun w => ?_)
      rw [reported_eq]
      cases w with
      | arr items => exact errorOf_instructions items
      | _ => rfl
    · intro got other
      split
      · exact absurd rfl (other _ (by decide))
      · rfl
    · exact notList

end Program

end
end CairoAsm
