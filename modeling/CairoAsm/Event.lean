/-!
What the library reports while it works, and computations that carry their reports along: a failed
one keeps those it made before.
-/
namespace CairoAsm

inductive Severity where
  | debug
  | info
  | error
  deriving DecidableEq

def Severity.name : Severity → String
  | .debug => "DEBUG"
  | .info => "INFO"
  | .error => "ERROR"

inductive Event where
  | loading (path : String)
  | created (body : String) (hints : Nat)
  | placed (offset : Nat) (body : String)
  | cannotLoad (file : String)
  | listed (file : String) (instructions words : Nat)
  deriving DecidableEq

namespace Event

def severity : Event → Severity
  | .loading _ | .created .. | .placed .. => .debug
  | .listed .. => .info
  | .cannotLoad _ => .error

def message : Event → String
  | .loading path => "Loading program from " ++ path
  | .created body hints =>
    "Created instruction " ++ body ++ " with " ++ hints.repr ++ " hint(s)"
  | .placed offset body => "Instruction at " ++ offset.repr ++ ": " ++ body
  | .cannotLoad file => "Cannot load " ++ file
  | .listed file instructions words =>
    file ++ ": " ++ instructions.repr ++ " instructions, " ++ words.repr ++ " words"

end Event

/-- The reports of a computation in order, and how it ended. -/
@[ext] structure Traced (ε α : Type) where
  log : List Event
  result : Except ε α

namespace Traced

def report (e : Event) : Traced ε Unit := ⟨[e], .ok ()⟩

/-- A computation without reports. -/
def lift (r : Except ε α) : Traced ε α := ⟨[], r⟩

/-- The second computation runs, and reports, only if the first succeeded. -/
def bind (x : Traced ε α) (f : α → Traced ε β) : Traced ε β :=
  match x.result with
  | .ok a =>
    let y := f a
    ⟨x.log ++ y.log, y.result⟩
  | .error e => ⟨x.log, .error e⟩

instance : Monad (Traced ε) where
  pure a := ⟨[], .ok a⟩
  bind := bind

theorem bind_of_ok {x : Traced ε α} {a : α} (h : x.result = .ok a) (f : α → Traced ε β) :
    x >>= f = ⟨x.log ++ (f a).log, (f a).result⟩ := by
  simp only [Bind.bind, bind, h]

theorem bind_of_error {x : Traced ε α} {e : ε} (h : x.result = .error e) (f : α → Traced ε β) :
    x >>= f = ⟨x.log, .error e⟩ := by
  simp only [Bind.bind, bind, h]

instance : LawfulMonad (Traced ε) := LawfulMonad.mk' (Traced ε)
  (by
    intro α x
    obtain ⟨log, result⟩ := x
    cases result <;> simp [Functor.map, bind])
  (by
    intro α β a f
    rfl)
  (by
    intro α β γ x f g
    obtain ⟨log, result⟩ := x
    cases result with
    | error e => rfl
    | ok a =>
      simp only [Bind.bind, bind]
      cases (f a).result <;> simp [List.append_assoc])

def map (f : α → β) (x : Traced ε α) : Traced ε β := ⟨x.log, x.result.map f⟩

def mapError (f : ε → δ) (x : Traced ε α) : Traced δ α := ⟨x.log, x.result.mapError f⟩

end Traced
end CairoAsm
