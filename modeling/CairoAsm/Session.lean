import CairoAsm.Listing
import CairoAsm.Schema.Export
import CairoAsm.Schema.Import

/-!
Sessions: named programs and one set of listing settings, changed and asked for step by step. A
program refers to a list of instructions that an append changes in place, so two programs that
referred to one list would change together. A step that fails changes nothing.
-/
namespace CairoAsm

/-- The lists made so far, the place of each name's list among them, and the settings. -/
structure Session where
  lists : List (List Instruction)
  programs : List (String × Nat)
  settings : Settings

namespace Session

inductive Step where
  | new
  | load (data : Json)
  | copy (source : String)
  | update (showOffsets showSizes verbose : Option Bool)
  | append (data : Json) (times : Nat)
  | offsets
  | emit
  | emitPlain
  | listing
  | text
  | json
  | reload
  | equals (other : String)
  | equalsData (data : Json)

/-- What a step answers. A flag says whether programs are equal, or, after an append, whether it
returned the program that it changed. -/
inductive Reply where
  | done
  | settings (s : Settings)
  | flag (b : Bool)
  | offsets (offsets : List Nat)
  | lines (lines : List String)
  | text (s : String)
  | json (v : Json)

inductive Refusal where
  | fault (f : Fault)
  | oversized
  | noProgram (slot : String)

def address? (s : Session) (slot : String) : Option Nat := s.programs.lookup slot

def address (s : Session) (slot : String) : Except Refusal Nat :=
  match s.address? slot with
  | some address => .ok address
  | none => .error (.noProgram slot)

def programAt (s : Session) (address : Nat) : Program := ⟨s.lists.getD address []⟩

def program? (s : Session) (slot : String) : Option Program := (s.address? slot).map s.programAt

def program (s : Session) (slot : String) : Except Refusal Program :=
  (s.address slot).map s.programAt

/-- A new program under a name, with a list of its own. -/
def put (s : Session) (slot : String) (instructions : List Instruction) : Session :=
  { s with
    lists := s.lists ++ [instructions]
    programs := (slot, s.lists.length) :: s.programs.filter fun (name, _) => name ≠ slot }

def start (slot : String) : Session := put ⟨[], [], {}⟩ slot []

/-- Changes the list at an address, and returns the program that refers to it. -/
def append (s : Session) (address : Nat) (i : Instruction) (times : Nat) : Session × Nat :=
  ({ s with lists := s.lists.modify address fun is => (Program.append ⟨is⟩ i times).instructions },
    address)

def Refusal.ofFailure : Failure → Refusal
  | .fault f => .fault f
  | .oversized => .oversized

def imported (x : Traced Failure α) : Except Refusal α := x.result.mapError .ofFailure

def shown (x : Traced Oversized α) : Except Refusal α := x.result.mapError fun _ => .oversized

def perform (s : Session) (slot : String) : Step → Except Refusal (Session × Reply)
  | .new => .ok (s.put slot [], .done)
  | .load data => do
    let p ← imported (Program.ofJson data)
    return (s.put slot p.instructions, .done)
  | .copy source => do
    let p ← s.program source
    return (s.put slot p.instructions, .done)
  | .update showOffsets showSizes verbose =>
    let settings := s.settings.update showOffsets showSizes verbose
    .ok ({ s with settings }, .settings settings)
  | .append data times => do
    let address ← s.address slot
    let i ← imported (Instruction.ofJson data)
    let (next, returned) := s.append address i times
    return (next, .flag (returned = address))
  | .offsets => do
    let p ← s.program slot
    return (s, .offsets (← shown p.offsets))
  | .emit => do
    let p ← s.program slot
    return (s, .lines (← shown (p.emit s.settings)))
  | .emitPlain => do
    let p ← s.program slot
    return (s, .lines (← shown (p.emit {})))
  | .listing => do
    let p ← s.program slot
    return (s, .text (← shown (p.listing s.settings)))
  | .text => do
    let p ← s.program slot
    return (s, .text (← shown p.text))
  | .json => do
    let p ← s.program slot
    return (s, .json p.toJson)
  | .reload => do
    let p ← s.program slot
    let q ← imported (Program.ofJson p.toJson)
    return (s.put slot q.instructions, .flag (q.equals (some p)))
  | .equals other => do
    let p ← s.program slot
    let q ← s.program other
    return (s, .flag (p.equals (some q)))
  | .equalsData _ => do
    let p ← s.program slot
    return (s, .flag (p.equals none))

/-- The reply to a step, with the length and the size that the program of its slot then has. -/
structure Answer where
  reply : Except Refusal Reply
  measure : Option (Nat × Nat)

def measure (s : Session) (slot : String) : Option (Nat × Nat) :=
  (s.program? slot).map fun p => (p.length, p.size)

def step (s : Session) (slot : String) (work : Step) : Session × Answer :=
  match s.perform slot work with
  | .ok (next, reply) => (next, ⟨.ok reply, next.measure slot⟩)
  | .error refusal => (s, ⟨.error refusal, s.measure slot⟩)

def run (s : Session) : List (String × Step) → List Answer
  | [] => []
  | (slot, work) :: rest =>
    let (next, answer) := s.step slot work
    answer :: run next rest

def Refusal.message (unprintable : Char → Bool) : Refusal → Writing String
  | .fault f => f.message unprintable
  | .oversized => .error ⟨⟩
  | .noProgram slot => return Text.quoted unprintable slot

end Session
end CairoAsm
