import DocPress.Toml.Basic

/-!
# Tables of TOML

How headers and keys build the tables of a text. A table may be opened by one header only, keys
with dots may not reach into a table that a header opened, and nothing is set twice.
-/

namespace DocPress.Toml

set_option autoImplicit false

/-- How a table came to be: on the way to another one, by a key with dots, or by its header. -/
inductive Origin where
  | passing | dotted | header
  deriving DecidableEq

/-- What stands under a key while the text is read. The tables of a header list stand with the
last one first. -/
inductive Item where
  | value (v : Toml)
  | table (origin : Origin) (entries : List (String × Item))
  | tables (rows : List (List (String × Item)))

abbrev Entries := List (String × Item)

namespace Entries

/-- Sets the item of a key, at its place if it is there. -/
def put (key : String) (item : Item) : Entries → Entries
  | [] => [(key, item)]
  | (k, i) :: rest => if k = key then (k, item) :: rest else (k, i) :: put key item rest

/-- Changes the table under a path of headers; tables on the way are made. -/
def within (change : Entries → Option Entries) : List String → Entries → Option Entries
  | [], entries => change entries
  | key :: path, entries =>
    match entries.lookup key with
    | none => (within change path []).map fun t => put key (.table .passing t) entries
    | some (.table origin t) =>
      (within change path t).map fun t => put key (.table origin t) entries
    | some (.tables (t :: rows)) =>
      (within change path t).map fun t => put key (.tables (t :: rows)) entries
    | some (.tables []) => none
    | some (.value _) => none

/-- Sets a value under a key with dots, given as the names before the last and the last. A table
that such a key has gone through takes no header any more; the last table of a header list may be
gone through, but the value itself goes into a table below it. -/
def setDotted (name : String) (v : Toml) : List String → Entries → Option Entries
  | [], entries =>
    match entries.lookup name with
    | none => some (entries ++ [(name, .value v)])
    | some _ => none
  | key :: path, entries =>
    match entries.lookup key with
    | none => (setDotted name v path []).map fun t => put key (.table .dotted t) entries
    | some (.table .header _) => none
    | some (.table _ t) =>
      (setDotted name v path t).map fun t => put key (.table .dotted t) entries
    | some (.tables (t :: rows)) =>
      if path.isEmpty then none
      else (setDotted name v path t).map fun t => put key (.tables (t :: rows)) entries
    | some _ => none

def openTable (key : String) (entries : Entries) : Option Entries :=
  match entries.lookup key with
  | none => some (put key (.table .header []) entries)
  | some (.table .passing t) => some (put key (.table .header t) entries)
  | some _ => none

def addTable (key : String) (entries : Entries) : Option Entries :=
  match entries.lookup key with
  | none => some (put key (.tables [[]]) entries)
  | some (.tables rows) => some (put key (.tables ([] :: rows)) entries)
  | some _ => none

end Entries

mutual

/-- The value that an item has come to. -/
def Item.toToml : Item → Toml
  | .value v => v
  | .table _ entries => .table (entriesToToml entries)
  | .tables rows => .arr (rowsToToml rows).reverse

def entriesToToml : List (String × Item) → List (String × Toml)
  | [] => []
  | (k, i) :: rest => (k, i.toToml) :: entriesToToml rest

def rowsToToml : List (List (String × Item)) → List Toml
  | [] => []
  | row :: rows => .table (entriesToToml row) :: rowsToToml rows

end

end DocPress.Toml
