/-!
Files by path. An absolute path leads from the root on, any other from the working directory. A
blank name or a dot is the directory it stands in, and the root is its own parent.
-/
namespace CairoAsm.Command

inductive Entry where
  | missing
  | directory
  | file (bytes : List UInt8)

namespace Path

def parts (path : String) : List String :=
  (path.toList.splitOn '/').map String.ofList

def names (path : String) : List String :=
  (parts path).filter fun name => name ≠ "" ∧ name ≠ "."

def base (path : String) : String := (names path).getLastD ""

/-- The slashes that make a path absolute: two are kept, more are as good as one. -/
def root (path : String) : String :=
  match path.toList with
  | '/' :: '/' :: '/' :: _ => "/"
  | '/' :: '/' :: _ => "//"
  | '/' :: _ => "/"
  | _ => ""

def tidy (path : String) : String :=
  let text := root path ++ "/".intercalate (names path)
  if text = "" then "." else text

end Path

/-- The directories and files under the root, each with the names that lead to it. -/
structure Folder where
  directories : List (List String)
  files : List (List String × List UInt8)

namespace Folder

def writeFrom (folder : Folder) (place : List String) (bytes : List UInt8) : List String → Folder
  | [] => folder
  | [name] => { folder with files := (place ++ [name], bytes) :: folder.files }
  | name :: rest =>
    if name = ".." then folder.writeFrom place.dropLast bytes rest
    else
      let inner := place ++ [name]
      writeFrom { folder with directories := inner :: folder.directories } inner bytes rest

def walk (folder : Folder) (names : List String) : List String → Entry
  | [] => .directory
  | name :: rest =>
    if name = "" ∨ name = "." then folder.walk names rest
    else if name = ".." then folder.walk names.dropLast rest
    else
      match folder.files.lookup (names ++ [name]) with
      | some bytes => if rest = [] then .file bytes else .missing
      | none =>
        if names ++ [name] ∈ folder.directories then folder.walk (names ++ [name]) rest
        else .missing

end Folder

/-- All directories and files, and the names that lead to the working directory. -/
structure Disk where
  folder : Folder
  home : List String

namespace Disk

def start (disk : Disk) (path : String) : List String :=
  if Path.root path = "" then disk.home else []

def write (disk : Disk) (path : String) (bytes : List UInt8) : Disk :=
  { disk with folder := disk.folder.writeFrom (disk.start path) bytes (Path.names path) }

/-- A working directory under the root, and files written one after another; of two at one place the
later one stays. -/
def ofFiles (home : String) (files : List (String × List UInt8)) : Disk :=
  files.foldl (fun disk (path, bytes) => disk.write path bytes) ⟨⟨[[home]], []⟩, [home]⟩

def entry (disk : Disk) (path : String) : Entry :=
  disk.folder.walk (disk.start path) (Path.parts path)

end Disk
end CairoAsm.Command
