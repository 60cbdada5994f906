import CairoAsm.Text.Lines

/-!
Indentation. Lines are moved to the left by what they are all indented by. A blank line has no say
in that and becomes empty.
-/
namespace CairoAsm.Text

def isIndent (c : Char) : Bool := c = ' ' || c = '\t'

def isBlankLine (l : String) : Bool := l.toList.all isIndent

def indentation (l : String) : List Char := l.toList.takeWhile isIndent

/-- What two texts have in common from the start on. -/
def commonStart : List Char → List Char → List Char
  | c :: cs, d :: ds => if c = d then c :: commonStart cs ds else []
  | _, _ => []

/-- What all lines but the blank ones are indented by. -/
def margin (ls : List String) : List Char :=
  match (ls.filter fun l => !isBlankLine l).map indentation with
  | [] => []
  | first :: others => others.foldl commonStart first

def dedentLine (width : Nat) (l : String) : String :=
  if isBlankLine l then "" else String.ofList (l.toList.drop width)

def dedent (s : String) : String :=
  let ls := lines s
  unlines (ls.map (dedentLine (margin ls).length))

def trimBreaks (s : String) : String :=
  let rest := s.toList.dropWhile (· = '\n')
  String.ofList (rest.reverse.dropWhile (· = '\n')).reverse

end CairoAsm.Text
