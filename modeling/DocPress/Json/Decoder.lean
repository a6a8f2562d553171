import DocPress.Json.Basic
import DocPress.SortedMap

/-!
# Decoders

A decoder reads a value of some type from a JSON value, or refuses it. A record is read by the
names of its fields; unknown names are passed over, and a field that is missing has its default.
A record may also be written as the array of its fields in their order, and a word as an object
with that one field, null.
-/

namespace DocPress.Json

set_option autoImplicit false

universe u

abbrev Decoder (α : Type u) := Json → Option α

namespace Decoder

variable {α : Type u}

def bool : Decoder Bool
  | .bool b => some b
  | _ => none

def string : Decoder String
  | .str s => some s
  | _ => none

/-- A natural number below `bound`; it must be written as an integer. -/
def natBelow (bound : Nat) : Decoder Nat
  | .int n => if 0 ≤ n && n.toNat < bound then some n.toNat else none
  | _ => none

def word64 : Decoder UInt64 := fun j => (natBelow UInt64.size j).map UInt64.ofNat

def word32 : Decoder UInt32 := fun j => (natBelow UInt32.size j).map UInt32.ofNat

/-- A double, which may be written as an integer. -/
def double : Decoder Float
  | .float x => some x
  | .int n => some (Float.ofInt n)
  | _ => none

def optional (d : Decoder α) : Decoder (Option α)
  | .null => some none
  | j => (d j).map some

def list (d : Decoder α) : Decoder (List α)
  | .arr items => items.mapM d
  | _ => none

def map (d : Decoder α) : Decoder (SortedMap α)
  | .obj fields => (fields.mapM fun f => (d f.2).map fun v => (f.1, v)).map SortedMap.ofList
  | _ => none

/-- One of a set of words. -/
def word (ofName? : String → Option α) : Decoder α
  | .str s => ofName? s
  | .obj [(s, .null)] => ofName? s
  | _ => none

def names : Decoder NameSet := fun j => (list string j).map NameSet.ofNames

end Decoder

abbrev Fields := List (String × Json)

namespace Fields

variable {α : Type u}

/-- The fields of a record all of which may be missing. -/
def ofPartial (names : List String) : Json → Option Fields
  | .obj fields => some fields
  | .arr items => if items.length ≤ names.length then some (names.zip items) else none
  | _ => none

/-- The fields of a record some of which must be there; an array has to give them all. -/
def ofWhole (names : List String) : Json → Option Fields
  | .obj fields => some fields
  | .arr items => if items.length = names.length then some (names.zip items) else none
  | _ => none

def get (fs : Fields) (name : String) (d : Decoder α) (default : α) : Option α :=
  match fs.lookup name with
  | some j => d j
  | none => some default

def need (fs : Fields) (name : String) (d : Decoder α) : Option α := (fs.lookup name).bind d

def get? (fs : Fields) (name : String) (d : Decoder α) : Option (Option α) :=
  fs.get name d.optional none

end Fields

end DocPress.Json
