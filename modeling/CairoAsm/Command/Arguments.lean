import CairoAsm.Listing

/-!
Arguments of the command: flags, which may come anywhere and more than once, and one file. A double
dash ends the flags, and a single dash alone is a file name.
-/
namespace CairoAsm.Command

inductive Flag where
  | verbose
  | offsets
  | sizes
  | help
  deriving DecidableEq

def Flag.ofName? : String → Option Flag
  | "--verbose" => some .verbose
  | "--offsets" => some .offsets
  | "--sizes" => some .sizes
  | "--help" => some .help
  | _ => none

def Flag.ofLetter? : Char → Option Flag
  | 'v' => some .verbose
  | _ => none

inductive Argument where
  | flags (fs : List Flag)
  | file (path : String)
  | endOfFlags

/-- A long flag is written out; letters may be joined behind one dash. -/
def Argument.ofString? (s : String) : Option Argument :=
  match s.toList with
  | ['-', '-'] => some .endOfFlags
  | '-' :: '-' :: _ => (Flag.ofName? s).map fun f => .flags [f]
  | '-' :: letter :: letters => ((letter :: letters).mapM Flag.ofLetter?).map .flags
  | _ => some (.file s)

structure Arguments where
  flags : List Flag
  files : List String

namespace Arguments

def ofStrings? : List String → Option Arguments
  | [] => some ⟨[], []⟩
  | s :: rest => do
    match ← Argument.ofString? s with
    | .endOfFlags => return ⟨[], rest⟩
    | .flags fs =>
      let others ← ofStrings? rest
      return { others with flags := fs ++ others.flags }
    | .file path =>
      let others ← ofStrings? rest
      return { others with files := path :: others.files }

def settings (a : Arguments) : Settings :=
  ⟨.offsets ∈ a.flags, .sizes ∈ a.flags, .verbose ∈ a.flags⟩

end Arguments
end CairoAsm.Command
