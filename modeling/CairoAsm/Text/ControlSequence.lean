/-!
Control sequences of terminals: an escape character, a bracket, parameters and a letter. They style
a text on a screen and are left out of a text that goes elsewhere.
-/
namespace CairoAsm.Text

def isParameter (c : Char) : Bool := c.isDigit || c = ';' || c = '?'

/-- The length, less one, of the control sequence that a text begins with. -/
def controlSequence? : List Char → Option Nat
  | '\x1b' :: '[' :: rest =>
    let parameters := rest.takeWhile isParameter
    match rest.drop parameters.length with
    | c :: _ => if c.isAlpha then some (parameters.length + 2) else none
    | [] => none
  | _ => none

/-- Drops control sequences; the next `skip` characters belong to one, and `done` is in reverse. -/
def stripControlsOnto (done : List Char) (skip : Nat) : List Char → List Char
  | [] => done.reverse
  | c :: rest =>
    match skip with
    | skip + 1 => stripControlsOnto done skip rest
    | 0 =>
      match controlSequence? (c :: rest) with
      | some length => stripControlsOnto done length rest
      | none => stripControlsOnto (c :: done) 0 rest

def stripControls (cs : List Char) : List Char := stripControlsOnto [] 0 cs

theorem stripControlsOnto_append (done before : List Char) (skip : Nat) (cs : List Char) :
    stripControlsOnto (done ++ before) skip cs =
      before.reverse ++ stripControlsOnto done skip cs := by
  fun_induction stripControlsOnto done skip cs with
  | case1 => simp [stripControlsOnto]
  | case2 done c rest skip ih => simpa [stripControlsOnto] using ih
  | case3 done c rest length found ih => simpa [stripControlsOnto, found] using ih
  | case4 done c rest plain ih => simpa [stripControlsOnto, plain] using ih

end CairoAsm.Text
