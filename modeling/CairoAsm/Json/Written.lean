import CairoAsm.Json.Display

/-!
The written form of a JSON value: one line of ASCII, a blank after each comma and colon, and every
other character as an escape of its UTF-16 units.
-/
namespace CairoAsm.Json

/-- The UTF-16 units of a character: itself, or a surrogate pair. -/
def units (c : Char) : List Nat :=
  if c.toNat < 0x10000 then [c.toNat]
  else [0xd800 + (c.toNat - 0x10000) / 0x400, 0xdc00 + (c.toNat - 0x10000) % 0x400]

def writtenChar (c : Char) : List Char :=
  if c = '"' ∨ c = '\\' then ['\\', c]
  else if c = '\n' then ['\\', 'n']
  else if c = '\r' then ['\\', 'r']
  else if c = '\t' then ['\\', 't']
  else if c = '\x0c' then ['\\', 'f']
  else if c = '\x08' then ['\\', 'b']
  else if ' ' ≤ c ∧ c ≤ '~' then [c]
  else (units c).flatMap fun u => '\\' :: 'u' :: Text.hex 4 u

def writtenText (s : String) : String :=
  String.ofList ('"' :: s.toList.flatMap writtenChar ++ ['"'])

def writtenFloat : Binary64 → String
  | .infinite negative => if negative then "-Infinity" else "Infinity"
  | .nan => "NaN"
  | x => floatText x

mutual

def written : Json → String
  | .null => "null"
  | .bool b => if b then "true" else "false"
  | .int n => n.repr
  | .float x => writtenFloat x
  | .str s => writtenText s
  | .arr items => "[" ++ ", ".intercalate (writtenItems items) ++ "]"
  | .obj fields => "\x7b" ++ ", ".intercalate (writtenFields fields) ++ "\x7d"

def writtenItems : List Json → List String
  | [] => []
  | v :: rest => written v :: writtenItems rest

def writtenFields : List (String × Json) → List String
  | [] => []
  | (k, v) :: rest => (writtenText k ++ ": " ++ written v) :: writtenFields rest

end
end CairoAsm.Json
