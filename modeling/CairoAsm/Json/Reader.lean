import CairoAsm.Json.Token

/-!
JSON values from tokens. What may come next depends on the arrays and objects that are open, so a
value is read in one pass over its tokens; the first token that may not come is the fault.
-/
namespace CairoAsm.Json

inductive ReadError where
  | malformed (problem : Problem) (position : Nat)
  | oversizedInteger
  | nestedTooDeep
  deriving DecidableEq

/-- An open array with its items so far, in reverse, or an open object with its fields so far and
the key whose value comes next. -/
inductive Frame where
  | array (items : List Json)
  | object (fields : Fields) (name : String)

/-- What comes next, inside the open frames. -/
inductive Reader where
  | value (stack : List Frame)
  | firstItem (stack : List Frame)
  | key (first : Bool) (fields : Fields) (stack : List Frame)
  | colon (fields : Fields) (name : String) (stack : List Frame)
  | afterItem (items : List Json) (stack : List Frame)
  | afterField (fields : Fields) (stack : List Frame)
  | done (v : Json)

namespace Reader

def fail (problem : Problem) (t : Token) : Except ReadError Reader :=
  .error (.malformed problem t.position)

def complete (v : Json) : List Frame → Reader
  | [] => .done v
  | .array items :: stack => .afterItem (v :: items) stack
  | .object fields name :: stack => .afterField (fields.put name v) stack

def beginValue (stack : List Frame) (t : Token) : Except ReadError Reader :=
  match t.lexeme with
  | .scalar v => .ok (complete v stack)
  | .text s _ => .ok (complete (.str s) stack)
  | .arrayOpen => .ok (.firstItem stack)
  | .objectOpen => .ok (.key true [] stack)
  | .brokenText problem position => .error (.malformed problem position)
  | .oversized => .error .oversizedInteger
  | _ => fail .noValue t

def step (r : Reader) (t : Token) : Except ReadError Reader :=
  match r with
  | .value stack => beginValue stack t
  | .firstItem stack =>
    match t.lexeme with
    | .arrayClose => .ok (complete (.arr []) stack)
    | _ => beginValue (.array [] :: stack) t
  | .key first fields stack =>
    match t.lexeme with
    | .text name _ => .ok (.colon fields name stack)
    | .brokenText problem position => .error (.malformed problem position)
    | .objectClose => if first then .ok (complete (.obj fields) stack) else fail .noKey t
    | _ => fail .noKey t
  | .colon fields name stack =>
    match t.lexeme with
    | .colon => .ok (.value (.object fields name :: stack))
    | _ => fail .noColon t
  | .afterItem items stack =>
    match t.lexeme with
    | .arrayClose => .ok (complete (.arr items.reverse) stack)
    | .comma => .ok (.value (.array items :: stack))
    | _ => fail .noComma t
  | .afterField fields stack =>
    match t.lexeme with
    | .objectClose => .ok (complete (.obj fields) stack)
    | .comma => .ok (.key false fields stack)
    | _ => fail .noComma t
  | .done _ => fail .extraData t

def depth : Reader → Nat
  | .value stack => stack.length
  | .firstItem stack | .key _ _ stack | .colon _ _ stack | .afterItem _ stack
  | .afterField _ stack => stack.length + 1
  | .done _ => 0

/-- A step that leaves no more than `nesting` arrays and objects open. -/
def stepWithin (nesting : Option Nat) (r : Reader) (t : Token) : Except ReadError Reader := do
  let next ← r.step t
  if nesting.any (· < next.depth) then throw .nestedTooDeep else return next

def finish (length : Nat) : Reader → Except ReadError Json
  | .done v => .ok v
  | .value _ | .firstItem _ => .error (.malformed .noValue length)
  | .key .. => .error (.malformed .noKey length)
  | .colon .. => .error (.malformed .noColon length)
  | .afterItem .. | .afterField .. => .error (.malformed .noComma length)

end Reader

structure Limits where
  digits : Option Nat
  nesting : Option Nat

def read (limits : Limits) (cs : List Char) : Except ReadError Json := do
  if cs.head? = some '\ufeff' then throw (.malformed .byteOrderMark 0)
  let last ← (Token.ofText limits.digits cs).foldlM (Reader.stepWithin limits.nesting) (.value [])
  last.finish cs.length

/-- Whether some quoted text is not whole: it has half of a surrogate pair in it. -/
def hasHalfPair (limit : Option Nat) (cs : List Char) : Bool :=
  (Token.ofText limit cs).any fun t => t.lexeme.isHalved

def Problem.message : Problem → String
  | .noValue => "Expecting value"
  | .noKey => "Expecting property name enclosed in double quotes"
  | .noColon => "Expecting ':' delimiter"
  | .noComma => "Expecting ',' delimiter"
  | .extraData => "Extra data"
  | .unterminated => "Unterminated string starting at"
  | .controlCharacter => "Invalid control character at"
  | .unknownEscape => "Invalid \\escape"
  | .badCodeUnit => "Invalid \\uXXXX escape"
  | .byteOrderMark => "Unexpected UTF-8 BOM (decode using utf-8-sig)"

def place (cs : List Char) (position : Nat) : Nat × Nat :=
  let before := cs.take position
  (before.count '\n' + 1, (before.reverse.takeWhile (· ≠ '\n')).length + 1)

def Problem.describe (problem : Problem) (cs : List Char) (position : Nat) : String :=
  let (line, column) := place cs position
  problem.message ++ ": line " ++ line.repr ++ " column " ++ column.repr ++ " (char "
    ++ position.repr ++ ")"

end CairoAsm.Json
