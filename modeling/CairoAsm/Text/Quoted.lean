import CairoAsm.Text.Hex

/-!
Texts as messages quote them: in single quotes, or in double quotes where that saves an escape.
Which characters are written as escapes depends on the version of Unicode and is left open.
-/
namespace CairoAsm.Text

def codeEscape (c : Char) : List Char :=
  if c.toNat < 0x100 then '\\' :: 'x' :: hex 2 c.toNat
  else if c.toNat < 0x10000 then '\\' :: 'u' :: hex 4 c.toNat
  else '\\' :: 'U' :: hex 8 c.toNat

section
variable (unprintable : Char → Bool)

def quotedChar (quote c : Char) : List Char :=
  if c = quote ∨ c = '\\' then ['\\', c]
  else if c = '\n' then ['\\', 'n']
  else if c = '\r' then ['\\', 'r']
  else if c = '\t' then ['\\', 't']
  else if unprintable c then codeEscape c
  else [c]

/-- Double quotes only for a text that has single ones and no double ones. -/
def quoteOf (cs : List Char) : Char :=
  if '\'' ∈ cs ∧ '"' ∉ cs then '"' else '\''

def quoted (s : String) : String :=
  let quote := quoteOf s.toList
  String.ofList (quote :: s.toList.flatMap (quotedChar unprintable quote) ++ [quote])

end

end CairoAsm.Text
