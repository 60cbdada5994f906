import CairoAsm.Command.Arguments
import CairoAsm.Command.Folder
import CairoAsm.Json.Reader
import CairoAsm.Schema.Import
import CairoAsm.Text.ControlSequence
import CairoAsm.Text.Lines
import CairoAsm.Text.Utf8

/-!
The command that lists a program file. The file is decoded, parsed and imported, and the first of
these stages that fails is what the command reports.
-/
namespace CairoAsm.Command

/-- What the command depends on besides its arguments and the files: how deep arrays and objects may
be nested to be read and shown, and which characters are quoted as escapes. Programs nest seven
deep. -/
structure Host where
  nesting : Nat
  roomy : 7 ≤ nesting
  unprintable : Char → Bool

inductive Abort where
  | oversizedInteger
  | nestedTooDeep
  | nullCharacter
  deriving DecidableEq

inductive LoadError where
  | notUtf8 (failure : Text.Utf8.Failure)
  | notJson (description : String)
  | fault (f : Fault)
  | abort (cause : Abort)

def LoadError.ofFailure : Failure → LoadError
  | .fault f => .fault f
  | .oversized => .abort .oversizedInteger

def parse (host : Host) (cs : List Char) : Except LoadError Json :=
  match Json.read ⟨some digitLimit, some host.nesting⟩ cs with
  | .ok v => .ok v
  | .error (.malformed problem position) => .error (.notJson (problem.describe cs position))
  | .error .oversizedInteger => .error (.abort .oversizedInteger)
  | .error .nestedTooDeep => .error (.abort .nestedTooDeep)

def loadData (host : Host) (bytes : List UInt8) : Except LoadError Json := do
  let cs ← (Text.Utf8.decode bytes).mapError .notUtf8
  parse host (Text.unifyBreaks cs)

def load (host : Host) (path : String) (bytes : List UInt8) : Traced LoadError Program := do
  .report (.loading (Path.tidy path))
  let v ← .lift (loadData host bytes)
  (Program.ofJson v).mapError .ofFailure

def LoadError.message (host : Host) (file : String) : LoadError → Except Abort String
  | .notUtf8 failure => .ok (file ++ " is not UTF-8 text: " ++ failure.message)
  | .notJson description => .ok (file ++ " is not valid JSON: " ++ description)
  | .fault f => (f.message host.unprintable).mapError fun _ => .oversizedInteger
  | .abort cause => .error cause

structure Report where
  log : List Event
  output : Option String
  problem : Option String

/-- How the command ends. What was logged before it broke off has been shown. A report is
`approximate` if the file has a text with half a surrogate pair: a replacement character stands for
it. -/
inductive Outcome where
  | usageError
  | help
  | aborted (cause : Abort) (log : List Event)
  | finished (report : Report)
  | approximate (report : Report)

def logLine (e : Event) : String := e.severity.name ++ ":root:" ++ e.message ++ "\n"

def logText (log : List Event) : String := String.join (log.map logLine)

namespace Report

def exitCode (r : Report) : Nat := if r.problem.isSome then 1 else 0

/-- A text on a line of its own, without terminal control sequences. -/
def printed (text : String) : String :=
  String.ofList (Text.stripControls text.toList) ++ "\n"

def stdout (r : Report) : String :=
  match r.output with
  | some text => printed text
  | none => ""

def stderr (r : Report) : String :=
  logText r.log ++
    match r.problem with
    | some message => printed ("Error: " ++ message)
    | none => ""

end Report

def hasHalfPair (bytes : List UInt8) : Bool :=
  match Text.Utf8.decode bytes with
  | .ok cs => Json.hasHalfPair (some digitLimit) (Text.unifyBreaks cs)
  | .error _ => false

/-- The events that are shown: all of them, or all but those for debugging. -/
def visible (s : Settings) (log : List Event) : List Event :=
  if s.verbose then log else log.filter fun e => e.severity ≠ .debug

def work (host : Host) (s : Settings) (path : String) (bytes : List UInt8) :
    Traced LoadError String := do
  let p ← load host path bytes
  let text ← (p.listing s).mapError fun _ => .abort .oversizedInteger
  .report (.listed (Path.base path) p.length p.size)
  return text

def conclude (host : Host) (s : Settings) (file : String) (worked : Traced LoadError String) :
    Except Abort Report :=
  match worked.result with
  | .ok text => .ok ⟨visible s worked.log, some text, none⟩
  | .error e => do
    let message ← e.message host file
    return ⟨visible s (worked.log ++ [.cannotLoad file]), none, some message⟩

def list (host : Host) (s : Settings) (path : String) (bytes : List UInt8) : Outcome :=
  let worked := work host s path bytes
  match conclude host s (Path.base path) worked with
  | .ok report => if hasHalfPair bytes then .approximate report else .finished report
  | .error cause => .aborted cause (visible s worked.log)

/-- The settings and the file that arguments ask for. A path with a null character, which no path
can hold, aborts the command even before it is found that there are too many. -/
def plan (args : List String) : Except Outcome (Settings × String) :=
  match Arguments.ofStrings? args with
  | none => .error .usageError
  | some a =>
    if .help ∈ a.flags then .error .help
    else
      match a.files with
      | [] => .error .usageError
      | path :: others =>
        if '\x00' ∈ path.toList then .error (.aborted .nullCharacter [])
        else if others = [] then .ok (a.settings, path)
        else .error .usageError

def execute (host : Host) (s : Settings) (path : String) : Entry → Outcome
  | .file bytes => list host s path bytes
  | .directory | .missing => .usageError

def run (host : Host) (disk : Disk) (args : List String) : Outcome :=
  match plan args with
  | .error outcome => outcome
  | .ok (s, path) => execute host s path (disk.entry path)

end CairoAsm.Command
