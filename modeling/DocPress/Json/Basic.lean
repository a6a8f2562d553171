/-!
# JSON values

Numbers keep whether they were written as integers. The fields of an object stay in the order
they were written.
-/

namespace DocPress

set_option autoImplicit false

inductive Json where
  | null
  | bool (b : Bool)
  | int (n : Int)
  | float (x : Float)
  | str (s : String)
  | arr (items : List Json)
  | obj (fields : List (String × Json))
  deriving Inhabited

namespace Json

def field? (name : String) : Json → Option Json
  | obj fields => fields.lookup name
  | _ => none

mutual

/-- How many values lie inside one another. -/
def depth : Json → Nat
  | arr items => depthOfItems items + 1
  | obj fields => depthOfFields fields + 1
  | _ => 1

def depthOfItems : List Json → Nat
  | [] => 0
  | v :: vs => max (depth v) (depthOfItems vs)

def depthOfFields : List (String × Json) → Nat
  | [] => 0
  | (_, v) :: fs => max (depth v) (depthOfFields fs)

end

def ofText? : Option String → Json
  | some s => str s
  | none => null

def ofTexts (texts : List String) : Json := arr (texts.map str)

def ofNat (n : Nat) : Json := int n

/-- A number, or null when it is not finite. -/
def ofFloat (x : Float) : Json := if x.isFinite then float x else null

end Json

end DocPress
