import CairoAsm.Decimal.Binary64

namespace CairoAsm

inductive Json where
  | null
  | bool (b : Bool)
  | int (n : Int)
  | float (x : Binary64)
  | str (s : String)
  | arr (items : List Json)
  | obj (fields : List (String × Json))

namespace Json

abbrev Fields := List (String × Json)

/-- Sets a field: a new key goes to the end, a known one keeps its place. -/
def Fields.put (fields : Fields) (key : String) (v : Json) : Fields :=
  match fields with
  | [] => [(key, v)]
  | (k, old) :: rest => if k = key then (k, v) :: rest else (k, old) :: Fields.put rest key v

theorem Fields.lookup_put (fields : Fields) (key : String) (v : Json) (k : String) :
    (fields.put key v).lookup k = if k = key then some v else fields.lookup k := by
  induction fields with
  | nil => grind [put]
  | cons f rest ih =>
    obtain ⟨name, old⟩ := f
    by_cases hn : name = key <;> by_cases hk : k = name <;> grind [put]

/-- The value of a field of an object. -/
def field? (v : Json) (key : String) : Option Json :=
  match v with
  | .obj fields => fields.lookup key
  | _ => none

end Json
end CairoAsm
