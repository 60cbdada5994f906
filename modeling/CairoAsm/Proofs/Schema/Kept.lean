import CairoAsm.Proofs.Schema.FirstFault

/-!
An import brings in no number of its own: what it gives, and what it has to say of a fault, shows
the numbers of the data only. So data without too long a number is imported or has a fault, and the
fault has a message.
-/
namespace CairoAsm

section
variable {v w : Json} {key : String}

namespace Json

theorem integers_subset_of_field? (found : v.field? key = some w) : w.integers ⊆ v.integers := by
  cases v with
  | obj fields =>
    obtain ⟨before, after, rfl, _⟩ := List.lookup_eq_some_iff.mp found
    rw [integers, integersOfFields_eq_flatMap]
    have here : (key, w) ∈ before ++ (key, w) :: after := by simp
    exact fun n member => List.mem_flatMap.mpr ⟨(key, w), here, member⟩
  | _ => cases found

theorem integers_subset_of_mem {items : List Json} (member : w ∈ items) :
    w.integers ⊆ (arr items).integers := by
  rw [integers, integersOfItems_eq_flatMap]
  exact fun n here => List.mem_flatMap.mpr ⟨w, member, here⟩

end Json

open Json (integers_subset_of_field? integers_subset_of_mem)

/-! ### What is read -/

theorem Cell.integers_subset_of_ofJson {c : Cell} (read : Cell.ofJson v = .ok c) :
    c.integers ⊆ v.integers := by
  obtain ⟨_, _, offset⟩ := Cell.ofJson_eq_ok_iff.mp read
  exact integers_subset_of_field? offset

theorem Json.integers_subset_of_getCell {c : Cell} (read : v.getCell key = .ok c) :
    c.integers ⊆ v.integers := by
  obtain ⟨w, found, read⟩ := Json.getCell_eq_ok_iff.mp read
  exact List.Subset.trans (Cell.integers_subset_of_ofJson read) (integers_subset_of_field? found)

theorem Atom.integers_subset_of_ofJson {a : Atom} (read : Atom.ofJson v = .ok a) :
    a.integers ⊆ v.integers := by
  rw [Atom.ofJson_eq_ok_iff] at read
  cases a with
  | cell c => exact Cell.integers_subset_of_ofJson read
  | immediate n => exact integers_subset_of_field? read.2

theorem Json.integers_subset_of_getAtom {a : Atom} (read : v.getAtom key = .ok a) :
    a.integers ⊆ v.integers := by
  obtain ⟨w, found, read⟩ := Json.getAtom_eq_ok_iff.mp read
  exact List.Subset.trans (Atom.integers_subset_of_ofJson read) (integers_subset_of_field? found)

open Json (integers_subset_of_getCell integers_subset_of_getAtom)

theorem Operand.integers_subset_of_ofJson {o : Operand} (read : Operand.ofJson v = .ok o) :
    o.integers ⊆ v.integers := by
  rw [Operand.ofJson_eq_ok_iff] at read
  cases o with
  | atom a => exact Atom.integers_subset_of_ofJson read
  | indirect c n =>
    obtain ⟨_, cell, offset⟩ := read
    exact List.append_subset.mpr
      ⟨integers_subset_of_getCell cell, integers_subset_of_field? offset⟩
  | binary op a b =>
    obtain ⟨_, _, left, right⟩ := read
    exact List.append_subset.mpr
      ⟨integers_subset_of_getAtom left, integers_subset_of_getAtom right⟩

theorem Json.integers_subset_of_getOperand {o : Operand} (read : v.getOperand key = .ok o) :
    o.integers ⊆ v.integers := by
  obtain ⟨w, found, read⟩ := Json.getOperand_eq_ok_iff.mp read
  exact List.Subset.trans (Operand.integers_subset_of_ofJson read) (integers_subset_of_field? found)

open Json (integers_subset_of_getOperand)

theorem Hint.integers_subset_of_ofJson {h : Hint} (read : Hint.ofJson v = .ok h) :
    h.integers ⊆ v.integers := by
  rw [Hint.ofJson_eq_ok_iff] at read
  cases h with
  | verbatim source => exact List.nil_subset _
  | allocSegment dst => exact integers_subset_of_getCell read.2
  | lessThan l r dst | lessOrEqual l r dst =>
    obtain ⟨_, hl, hr, hdst⟩ := read
    simp only [integers, List.append_subset]
    exact ⟨⟨integers_subset_of_getCell hdst, integers_subset_of_getOperand hl⟩,
      integers_subset_of_getOperand hr⟩
  | divMod l r quotient remainder =>
    obtain ⟨_, hl, hr, hq, hm⟩ := read
    simp only [integers, List.append_subset]
    exact ⟨⟨⟨integers_subset_of_getOperand hl, integers_subset_of_getOperand hr⟩,
      integers_subset_of_getCell hq⟩, integers_subset_of_getCell hm⟩
  | squareRoot value dst | allocConstantSize value dst =>
    obtain ⟨_, hvalue, hdst⟩ := read
    exact List.append_subset.mpr
      ⟨integers_subset_of_getCell hdst, integers_subset_of_getOperand hvalue⟩
  | debugPrint first last =>
    obtain ⟨_, hfirst, hlast⟩ := read
    exact List.append_subset.mpr
      ⟨integers_subset_of_getOperand hfirst, integers_subset_of_getOperand hlast⟩

theorem Body.integers_subset_of_ofJson {b : Body} (read : Body.ofJson v = .ok b) :
    b.integers ⊆ v.integers := by
  rw [Body.ofJson_eq_ok_iff] at read
  cases b with
  | addAp operand => exact integers_subset_of_getOperand read.2
  | assertEq a b | assertEqQm31 a b =>
    obtain ⟨_, ha, hb⟩ := read
    exact List.append_subset.mpr
      ⟨integers_subset_of_getCell ha, integers_subset_of_getOperand hb⟩
  | call target relative | jump target relative => exact integers_subset_of_getAtom read.2.1
  | jumpNonzero offset condition =>
    obtain ⟨_, hoffset, hcondition⟩ := read
    exact List.append_subset.mpr
      ⟨integers_subset_of_getAtom hoffset, integers_subset_of_getCell hcondition⟩
  | ret => exact List.nil_subset _
  | blake2s state byteCount message finalize =>
    obtain ⟨_, hs, hb, hm, _⟩ := read
    simp only [integers, List.append_subset]
    exact ⟨⟨integers_subset_of_getCell hs, integers_subset_of_getCell hm⟩,
      integers_subset_of_getCell hb⟩

theorem Instruction.integers_subset_of_readFrom {i : Instruction} (read : i.ReadFrom v) :
    i.integers ⊆ v.integers := by
  obtain ⟨_, ⟨w, found, body⟩, _, items, listed, hints⟩ := read
  refine List.append_subset.mpr ⟨?_, ?_⟩
  · intro n member
    obtain ⟨h, within, here⟩ := List.mem_flatMap.mp member
    obtain ⟨w, item, read⟩ := forall₂_exists_of_mem (mapM_eq_ok_iff.mp hints).flip within
    rcases Instruction.hintData_eq_ok_iff.mp listed with found | ⟨_, rfl⟩
    · exact integers_subset_of_field? found
        (integers_subset_of_mem item (Hint.integers_subset_of_ofJson read here))
    · cases item
  · exact List.Subset.trans (Body.integers_subset_of_ofJson body) (integers_subset_of_field? found)

theorem Program.integers_subset_of_readFrom {p : Program} (read : p.ReadFrom v) :
    p.integers ⊆ v.integers := by
  obtain ⟨items, listed, each⟩ := read
  intro n member
  obtain ⟨i, within, here⟩ := List.mem_flatMap.mp member
  obtain ⟨w, item, read⟩ := forall₂_exists_of_mem each.flip within
  have inside := integers_subset_of_mem item (Instruction.integers_subset_of_readFrom read here)
  rcases Program.instructionData_eq_ok_iff.mp listed with rfl | ⟨_, found⟩
  · exact inside
  · exact integers_subset_of_field? found inside

end

/-! ### What is told -/

theorem Kind.integers_subset_of_fault? {kind : Kind} {v : Json} {f : Fault}
    (fault : kind.fault? v = some f) : f.integers ⊆ v.integers := by
  have others (got : Json) : (kind.otherClass got).integers = got.integers := by
    cases kind <;> rfl
  unfold Kind.fault? at fault
  split at fault
  · cases fault
  · rename_i fields _
    split at fault
    · cases fault
      exact List.nil_subset _
    · split at fault <;> cases fault
      rw [others]
      exact List.nil_subset _
    · rename_i got _ found
      cases fault
      rw [others]
      exact Json.integers_subset_of_field? found
  · cases fault
    exact List.append_subset.mpr ⟨List.Subset.refl _, List.nil_subset _⟩

theorem Content.integers_subset_of_fault? {content : Content} {key : String} {w : Json} {f : Fault}
    (fault : content.fault? key w = some f) : f.integers ⊆ w.integers := by
  have shown : w.integers ++ [] ⊆ w.integers := by
    rw [List.append_nil]
    exact List.Subset.refl _
  unfold Content.fault? at fault
  split at fault
  · split at fault <;> cases fault
    exact List.nil_subset _
  · cases fault
    exact List.Subset.refl _
  · cases fault
  · cases fault
    exact shown
  · cases fault
  · cases fault
    exact shown
  · cases fault
  · cases fault
    exact shown
  · split at fault <;> cases fault
    exact List.nil_subset _
  · cases fault
    exact List.Subset.refl _
  · exact Kind.integers_subset_of_fault? fault
  · cases fault
  · cases fault
    exact shown
  · cases fault
    exact List.nil_subset _

namespace Check

/-- The numbers in what is looked at. -/
def integers (c : Check) : List Int := c.value.elim [] Json.integers

theorem integers_subset_of_faultAt {c : Check} {f : Fault}
    (fault : faultAt c.owner c.field c.value = some f) : f.integers ⊆ c.integers := by
  obtain ⟨owner, field, value, look⟩ := c
  cases value with
  | none =>
    simp only [faultAt] at fault
    split at fault <;> cases fault
    cases owner <;> exact List.nil_subset _
  | some w => exact Content.integers_subset_of_fault? fault

theorem integers_subset_of_mem_inner {c d : Check} (within : d ∈ c.inner) :
    d.integers ⊆ c.integers := by
  unfold integers
  unfold Check.inner at within
  split at within
  · rename_i list _
    obtain ⟨w, here, rfl⟩ := List.mem_map.mp within
    rw [list]
    exact Json.integers_subset_of_mem here
  · rename_i list _
    obtain ⟨w, here, rfl⟩ := List.mem_map.mp within
    rw [list]
    exact Json.integers_subset_of_mem here
  · rename_i fields _ object _
    split at within
    · obtain ⟨⟨field, look⟩, _, rfl⟩ := List.mem_map.mp within
      rw [object]
      dsimp only
      cases found : fields.lookup field.key with
      | none => exact List.nil_subset _
      | some w => exact Json.integers_subset_of_field? (v := .obj fields) found
    · cases within
  · cases within

theorem integers_subset_of_mem_failing {c d : Check} (fails : d ∈ failing c) :
    d.integers ⊆ c.integers := by
  fun_induction failing c with
  | case1 c own =>
    rw [List.mem_singleton.mp fails]
    exact List.Subset.refl _
  | case2 c own thorough ih =>
    simp only [List.flatMap_subtype, List.unattach_attach, List.mem_flatMap] at fails
    obtain ⟨e, within, fails⟩ := fails
    exact List.Subset.trans (ih e within fails) (integers_subset_of_mem_inner within)
  | case3 => cases fails

/-- A check fails by a fault, unless there is too long a number in what it looks at. -/
theorem fault_of_failure? {c : Check} {e : Failure} (short : WithinDigits digitLimit c.integers)
    (fails : c.failure? = some e) : ∃ f, e = .fault f := by
  unfold failure? at fails
  split at fails
  · obtain ⟨w, value, fails⟩ := Option.bind_eq_some_iff.mp fails
    unfold reportFailure? at fails
    split at fails
    · rename_i b read
      have part : b.integers ⊆ c.integers := by
        rw [integers, value]
        exact Body.integers_subset_of_ofJson read
      rw [if_pos (short.mono part)] at fails
      cases fails
    · cases fails
  · obtain ⟨f, fault, rfl⟩ := Option.map_eq_some_iff.mp fails
    rw [Failure.ofFault_eq, if_pos (short.mono (integers_subset_of_faultAt fault))]
    exact ⟨f, rfl⟩

end Check

/-- Data without too long a number is read, or it has a fault that can be told. -/
theorem Program.exists_told_of_ofJson {v : Json} {e : Failure}
    (short : WithinDigits digitLimit v.integers) (failed : (ofJson v).result = .error e)
    (unprintable : Char → Bool) :
    ∃ f text, e = .fault f ∧ f.message unprintable = .ok text := by
  have whole : errorOf (ofJson v).result = (Check.whole .program v).reported := errorOf_ofJson v
  rw [failed] at whole
  obtain ⟨c, first, fails⟩ := Option.bind_eq_some_iff.mp whole.symm
  have part := Check.integers_subset_of_mem_failing (List.mem_of_mem_head? first)
  obtain ⟨f, rfl⟩ := Check.fault_of_failure? (short.mono part) fails
  obtain ⟨text, said, _⟩ := Check.exists_told_of_failure? fails unprintable
  exact ⟨f, text, rfl, (Check.message_of_failure? fails).trans said⟩

end CairoAsm
