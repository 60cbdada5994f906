import CairoAsm.Proofs.Lists
import CairoAsm.Proofs.Schema.Acceptance
import CairoAsm.Proofs.Schema.Rearranged
import CairoAsm.Proofs.Schema.RoundTrip
import Mathlib.Data.Set.Card

/-!
Different things export differently. Data of a class describes things of one kind only, up to the
kinds that take in one another, so an export can be read back without being told its kind.
-/
namespace CairoAsm

/-- The widest of the kinds that take in one another. -/
def Kind.widest : Kind → Kind
  | .cell | .atom | .operand => .operand
  | kind => kind

theorem Kind.widest_eq_of_mem_classNames {kind kind' : Kind} {name : String}
    (known : name ∈ kind.classNames) (known' : name ∈ kind'.classNames) :
    kind.widest = kind'.widest := by
  revert name
  cases kind <;> cases kind' <;> decide

theorem Kind.widest_eq_of_fits {kind kind' : Kind} {v : Json} (fits : Fits (.part kind) v)
    (fits' : Fits (.part kind') v) : kind.widest = kind'.widest := by
  cases fits_part_iff.mp fits with
  | inl object =>
    obtain ⟨name, known, named, _⟩ := object
    cases fits_part_iff.mp fits' with
    | inl object' =>
      obtain ⟨name', known', named', _⟩ := object'
      cases named.symm.trans named'
      exact widest_eq_of_mem_classNames known known'
    | inr bare =>
      obtain ⟨_, items, rfl, _⟩ := bare
      cases named
  | inr bare =>
    obtain ⟨rfl, items, rfl, _⟩ := bare
    cases fits_part_iff.mp fits' with
    | inl object' =>
      obtain ⟨name', _, named', _⟩ := object'
      cases named'
    | inr bare' => rw [bare'.1]

theorem Instruction.ReadFrom.unique {v : Json} {i j : Instruction} (read : i.ReadFrom v)
    (read' : j.ReadFrom v) : i = j := by
  obtain ⟨_, ⟨w, found, body⟩, incAp, items, listed, hints⟩ := read
  obtain ⟨_, ⟨w', found', body'⟩, incAp', items', listed', hints'⟩ := read'
  cases found.symm.trans found'
  cases listed.symm.trans listed'
  obtain ⟨b, flag, hs⟩ := i
  obtain ⟨b', flag', hs'⟩ := j
  cases body.symm.trans body'
  cases incAp.symm.trans incAp'
  cases hints.symm.trans hints'
  rfl

theorem Program.ReadFrom.unique {v : Json} {p q : Program} (read : p.ReadFrom v)
    (read' : q.ReadFrom v) : p = q := by
  obtain ⟨items, listed, each⟩ := read
  obtain ⟨items', listed', each'⟩ := read'
  cases listed.symm.trans listed'
  have one : Relator.RightUnique Instruction.ReadFrom :=
    fun _ _ _ read read' => read.unique read'
  obtain ⟨is⟩ := p
  obtain ⟨js⟩ := q
  exact congrArg Program.mk (List.right_unique_forall₂' one each each')

namespace Entity
variable {v w : Json} {x y : Entity}

/-- The widest kind of a thing. -/
def kind : Entity → Kind
  | .operand _ => .operand
  | .hint _ => .hint
  | .body _ => .body
  | .instruction _ => .instruction
  | .program _ => .program

/-- Data gives a thing, whether or not a body in it can be written. -/
def ReadFrom (v : Json) : Entity → Prop
  | .operand o => Operand.ofJson v = .ok o
  | .hint h => Hint.ofJson v = .ok h
  | .body b => Body.ofJson v = .ok b
  | .instruction i => i.ReadFrom v
  | .program p => p.ReadFrom v

theorem readFrom_toJson (x : Entity) : x.ReadFrom x.toJson := by
  cases x with
  | operand o => exact o.ofJson_toJson
  | hint h => exact h.ofJson_toJson
  | body b => exact b.ofJson_toJson
  | instruction i => exact i.readFrom_toJson
  | program p => exact p.readFrom_toJson

theorem ReadFrom.fits (read : x.ReadFrom v) : Fits (.part x.kind) v := by
  cases x with
  | operand o => exact Operand.accepted_iff.mp ⟨o, read⟩
  | hint h => exact Hint.accepted_iff.mp ⟨h, read⟩
  | body b => exact Body.accepted_iff.mp ⟨b, read⟩
  | instruction i => exact Instruction.exists_readFrom_iff.mp ⟨i, read⟩
  | program p =>
    obtain ⟨items, listed, each⟩ := read
    refine Program.fits_iff.mpr ⟨items, listed, fun w member => ?_⟩
    obtain ⟨i, _, read⟩ := forall₂_exists_of_mem each member
    exact Instruction.exists_readFrom_iff.mp ⟨i, read⟩

theorem widest_kind (x : Entity) : x.kind.widest = x.kind := by
  cases x <;> rfl

/-- Data gives one thing at most, whatever kind of thing is looked for. -/
theorem ReadFrom.unique (read : x.ReadFrom v) (read' : y.ReadFrom v) : x = y := by
  have kinds : x.kind = y.kind := by
    rw [← x.widest_kind, ← y.widest_kind, Kind.widest_eq_of_fits read.fits read'.fits]
  cases x <;> cases y <;> cases kinds
  · exact congrArg operand (Except.ok.inj (read.symm.trans read'))
  · exact congrArg hint (Except.ok.inj (read.symm.trans read'))
  · exact congrArg body (Except.ok.inj (read.symm.trans read'))
  · exact congrArg instruction (Instruction.ReadFrom.unique read read')
  · exact congrArg program (Program.ReadFrom.unique read read')

section
variable {kind : Kind}

end

/-- Programs can still change, so a count refuses them. -/
theorem countDistinct_program {items : List Json} (read : (ofJson .program v).result = .ok x) :
    countDistinct .program (v :: items) = .error .changeable := by
  obtain ⟨p, imported, rfl⟩ := map_eq_ok_iff.mp read
  have found : (ofJson .program v).result.mapError CountError.failure = .ok (.program p) :=
    mapError_eq_ok_iff.mpr read
  have refused : fixedOfJson .program v = .error .changeable := by
    simp only [fixedOfJson, found, ok_bind]
    rfl
  simp only [countDistinct, List.mapM_cons, refused]
  rfl

end Entity

open Entity

end CairoAsm
