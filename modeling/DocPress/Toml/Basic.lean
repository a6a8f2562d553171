import DocPress.Toml.Moment
import DocPress.Toml.Number

/-!
# TOML values

The values of a TOML text. A table keeps its keys in the order they were written.
-/

namespace DocPress

set_option autoImplicit false

inductive Toml where
  | str (s : String)
  | bool (b : Bool)
  | number (n : Toml.Number)
  | moment (m : Moment)
  | arr (items : List Toml)
  | table (entries : List (String × Toml))
  deriving Inhabited

namespace Toml

mutual

/-- Whether all numbers in the value can be held, so that it may be looked at. -/
def isHeld : Toml → Bool
  | .number n => n.isHeld
  | .arr items => allHeld items
  | .table entries => entriesHeld entries
  | _ => true

def allHeld : List Toml → Bool
  | [] => true
  | v :: rest => v.isHeld && allHeld rest

def entriesHeld : List (String × Toml) → Bool
  | [] => true
  | (_, v) :: rest => v.isHeld && entriesHeld rest

end

end Toml

end DocPress
