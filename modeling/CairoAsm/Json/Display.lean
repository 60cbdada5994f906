import CairoAsm.Decimal.Shortest
import CairoAsm.Json.Basic
import CairoAsm.Text.Number
import CairoAsm.Text.Quoted

namespace CairoAsm.Json

/-- How floating numbers are written: from which leading exponents on in positional form, and with
how many exponent digits otherwise. -/
structure FloatStyle where
  leastPositional : Int
  leastScientific : Int
  exponentDigits : Nat

def floatStyle : FloatStyle := ⟨-4, 16, 2⟩

/-- Digits with the point after `places` of them, zeros filling the gaps, and at least one digit on
either side. -/
def positional (digits : List Char) (places : Int) : List Char :=
  let whole := digits.take places.toNat ++ List.replicate (places.toNat - digits.length) '0'
  let rest := List.replicate (-places).toNat '0' ++ digits.drop places.toNat
  (if whole = [] then ['0'] else whole) ++ '.' :: if rest = [] then ['0'] else rest

def scientific (style : FloatStyle) (digits : List Char) (leading : Int) : List Char :=
  let mark := if digits.length ≤ 1 then digits else digits.take 1 ++ '.' :: digits.drop 1
  let sign := if leading < 0 then '-' else '+'
  mark ++ 'e' :: sign :: leading.natAbs.repr.toList.leftpad style.exponentDigits '0'

def magnitude (style : FloatStyle) (d : Decimal) : List Char :=
  let digits := d.digits.repr.toList
  let places := digits.length + d.exponent
  if style.leastPositional < places ∧ places ≤ style.leastScientific then positional digits places
  else scientific style digits (places - 1)

def floatText : Binary64 → String
  | .finite negative m q =>
    let d := if m = 0 then ⟨0, 0⟩ else Decimal.shortest m q
    (if negative then "-" else "") ++ String.ofList (magnitude floatStyle d)
  | .infinite negative => if negative then "-inf" else "inf"
  | .nan => "nan"

section
variable (unprintable : Char → Bool)

mutual

def shown : Json → Writing String
  | .null => return "None"
  | .bool b => return if b then "True" else "False"
  | .int n => decimal n
  | .float x => return floatText x
  | .str s => return Text.quoted unprintable s
  | .arr items => do return "[" ++ ", ".intercalate (← shownItems items) ++ "]"
  | .obj fields => do return "\x7b" ++ ", ".intercalate (← shownFields fields) ++ "\x7d"

def shownItems : List Json → Writing (List String)
  | [] => return []
  | v :: rest => do
    let first ← shown v
    return first :: (← shownItems rest)

def shownFields : List (String × Json) → Writing (List String)
  | [] => return []
  | (k, v) :: rest => do
    let value ← shown v
    return (Text.quoted unprintable k ++ ": " ++ value) :: (← shownFields rest)

end

def plain : Json → Writing String
  | .str s => return s
  | v => v.shown unprintable

end
end CairoAsm.Json
