import CairoAsm.Command.Run
import CairoAsm.Text.Unprintable

namespace CairoAsm.Command

def usage : String := "Usage: casm-listing [-v | --verbose] [--offsets] [--sizes] INPUT"

def host : Host := ⟨900, by decide, Text.isUnprintable⟩

/-- What the file system holds at a path. Directories cannot be read and count as missing. -/
def entryAt (path : String) : IO Entry := do
  try
    let bytes ← IO.FS.readBinFile path
    return .file bytes.toList
  catch _ =>
    return .missing

def outcomeOf (args : List String) : IO Outcome := do
  match plan args with
  | .error outcome => return outcome
  | .ok (s, path) => return execute host s path (← entryAt path)

/-- Writes what a run leaves behind and gives its exit code. -/
def present : Outcome → IO UInt32
  | .usageError => do
    IO.eprintln usage
    return 2
  | .help => do
    IO.println usage
    return 0
  | .aborted _ log => do
    IO.eprint (logText log)
    IO.eprintln "The file cannot be read as a program"
    return 1
  | .finished report | .approximate report => do
    IO.print report.stdout
    IO.eprint report.stderr
    return report.exitCode.toUInt32

end CairoAsm.Command

def main (args : List String) : IO UInt32 := do
  CairoAsm.Command.present (← CairoAsm.Command.outcomeOf args)
