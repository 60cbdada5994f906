import CairoAsm.Json.Basic
import CairoAsm.Text.Hex

/-!
Tokens of JSON text: brackets, colons, commas, quoted texts, numbers and words, each the longest its
own grammar allows. What is no token is kept as one of its own, so every text has its tokens.
-/
namespace CairoAsm.Json

inductive Problem where
  | noValue
  | noKey
  | noColon
  | noComma
  | extraData
  | unterminated
  | controlCharacter
  | unknownEscape
  | badCodeUnit
  | byteOrderMark
  deriving DecidableEq

inductive Lexeme where
  | arrayOpen
  | arrayClose
  | objectOpen
  | objectClose
  | colon
  | comma
  | scalar (v : Json)
  | text (s : String) (whole : Bool)
  | brokenText (problem : Problem) (position : Nat)
  | oversized
  | unknown

def Lexeme.isHalved : Lexeme → Bool
  | .text _ whole => !whole
  | _ => false

structure Token where
  lexeme : Lexeme
  position : Nat

namespace Token

/-! ### Quoted texts -/

def simpleEscape? : Char → Option Char
  | '"' => some '"'
  | '\\' => some '\\'
  | '/' => some '/'
  | 'b' => some '\x08'
  | 'f' => some '\x0c'
  | 'n' => some '\n'
  | 'r' => some '\r'
  | 't' => some '\t'
  | _ => none

/-- The four hexadecimal digits of a UTF-16 unit. Something must follow them. -/
def codeUnit? : List Char → Option Nat
  | a :: b :: c :: d :: _ :: _ => do
    let a ← Text.hexValue? a
    let b ← Text.hexValue? b
    let c ← Text.hexValue? c
    let d ← Text.hexValue? d
    return ((a * 16 + b) * 16 + c) * 16 + d
  | _ => none

def paired? (high : Nat) : List Char → Option Char
  | '\\' :: 'u' :: rest => do
    let low ← codeUnit? rest
    if 0xd800 ≤ high ∧ high < 0xdc00 ∧ 0xdc00 ≤ low ∧ low < 0xe000 then
      some (Char.ofNat (0x10000 + (high - 0xd800) * 0x400 + (low - 0xdc00)))
    else none
  | _ => none

inductive Escape where
  | char (c : Char) (width : Nat)
  | half (width : Nat)
  | unfinished
  | unknown
  | badCodeUnit

/-- What stands after a backslash, and how many characters it takes. Half of a surrogate pair is no
character. -/
def escape : List Char → Escape
  | [] => .unfinished
  | 'u' :: rest =>
    match codeUnit? rest with
    | none => .badCodeUnit
    | some u =>
      match paired? u (rest.drop 4) with
      | some c => .char c 11
      | none => if 0xd800 ≤ u ∧ u < 0xe000 then .half 5 else .char (Char.ofNat u) 5
  | c :: _ =>
    match simpleEscape? c with
    | some d => .char d 1
    | none => .unknown

/-- The text whose opening quote is at `start`, read from `position` on, and the number of
characters read. The next `skip` characters are known already; `done` is in reverse. A replacement
character stands for half a surrogate pair, and the text is not `whole` then. -/
def quotedText (start position skip : Nat) (whole : Bool) (done : List Char) :
    List Char → Lexeme × Nat
  | [] => (.brokenText .unterminated start, position - start - 1)
  | c :: rest =>
    match skip with
    | skip + 1 => quotedText start (position + 1) skip whole done rest
    | 0 =>
      if c = '"' then (.text (String.ofList done.reverse) whole, position - start)
      else if c = '\\' then
        match escape rest with
        | .char d width => quotedText start (position + 1) width whole (d :: done) rest
        | .half width => quotedText start (position + 1) width false ('\ufffd' :: done) rest
        | .unfinished => (.brokenText .unterminated start, position - start)
        | .unknown => (.brokenText .unknownEscape position, position - start)
        | .badCodeUnit => (.brokenText .badCodeUnit (position + 1), position - start)
      else if c.toNat < 0x20 then (.brokenText .controlCharacter position, position - start)
      else quotedText start (position + 1) 0 whole (c :: done) rest

/-! ### Numbers -/

/-- No digit follows a leading zero. -/
def wholeDigits : List Char → List Char
  | '0' :: _ => ['0']
  | cs => cs.takeWhile Char.isDigit

def fractionDigits : List Char → List Char
  | '.' :: cs => cs.takeWhile Char.isDigit
  | _ => []

def exponent? : List Char → Option (Bool × List Char × Nat)
  | e :: cs =>
    let (negative, signs, cs) := match cs with
      | '-' :: ds => (true, 1, ds)
      | '+' :: ds => (false, 1, ds)
      | ds => (false, 0, ds)
    let digits := cs.takeWhile Char.isDigit
    if (e = 'e' ∨ e = 'E') ∧ digits ≠ [] then some (negative, digits, 1 + signs + digits.length)
    else none
  | [] => none

def natOfDigits (digits : List Char) : Nat := Nat.ofDigitChars 10 digits 0

def signed (negative : Bool) (n : Nat) : Int := if negative then -n else n

def wholeNumber (limit : Option Nat) (negative : Bool) (digits : List Char) : Lexeme :=
  if limit.any (· < digits.length) then .oversized
  else .scalar (.int (signed negative (natOfDigits digits)))

def number? (limit : Option Nat) (negative : Bool) (cs : List Char) : Option (Lexeme × Nat) :=
  let whole := wholeDigits cs
  let fraction := fractionDigits (cs.drop whole.length)
  let length := whole.length + if fraction = [] then 0 else fraction.length + 1
  if whole = [] then none else
    match exponent? (cs.drop length) with
    | some (negativeExponent, digits, width) =>
      let exponent := signed negativeExponent (natOfDigits digits) - fraction.length
      some (.scalar (.float (.ofDecimal negative (natOfDigits (whole ++ fraction)) exponent)),
        length + width)
    | none =>
      if fraction = [] then some (wholeNumber limit negative whole, length)
      else some (.scalar (.float (.ofDecimal negative (natOfDigits (whole ++ fraction))
        (-fraction.length))), length)

/-! ### Tokens -/

def words : List (String × Json) := [
  ("null", .null),
  ("true", .bool true),
  ("false", .bool false),
  ("NaN", .float .nan),
  ("Infinity", .float (.infinite false)),
  ("-Infinity", .float (.infinite true))]

def scalar? (limit : Option Nat) (cs : List Char) : Option (Lexeme × Nat) :=
  match words.find? fun (word, _) => word.toList.isPrefixOf cs with
  | some (word, v) => some (.scalar v, word.length)
  | none =>
    match cs with
    | '-' :: rest => (number? limit true rest).map fun (l, length) => (l, length + 1)
    | _ => number? limit false cs

def lexemeAt (limit : Option Nat) (position : Nat) (c : Char) (rest : List Char) : Lexeme × Nat :=
  match c with
  | '[' => (.arrayOpen, 0)
  | ']' => (.arrayClose, 0)
  | '\x7b' => (.objectOpen, 0)
  | '\x7d' => (.objectClose, 0)
  | ':' => (.colon, 0)
  | ',' => (.comma, 0)
  | '"' => quotedText position (position + 1) 0 true [] rest
  | c =>
    match scalar? limit (c :: rest) with
    | some (l, length) => (l, length - 1)
    | none => (.unknown, 0)

def isBlank (c : Char) : Bool := c = ' ' || c = '\t' || c = '\n' || c = '\r'

/-- The tokens from `position` on, after `skip` characters that belong to the last one; `done` is in
reverse. -/
def scan (limit : Option Nat) (position skip : Nat) (done : List Token) : List Char → List Token
  | [] => done.reverse
  | c :: rest =>
    match skip with
    | skip + 1 => scan limit (position + 1) skip done rest
    | 0 =>
      if isBlank c then scan limit (position + 1) 0 done rest
      else
        let (l, length) := lexemeAt limit position c rest
        scan limit (position + 1) length (⟨l, position⟩ :: done) rest

def ofText (limit : Option Nat) (cs : List Char) : List Token := scan limit 0 0 [] cs

end Token
end CairoAsm.Json
