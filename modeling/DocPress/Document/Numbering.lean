import DocPress.Node.Basic

/-!
# Section numbers

Numbered sections get a number such as `1.` or `1.2.`. A part (level 0) has none, and its chapters
continue the count of the scope around it; a numbered section opens a scope of its own.
-/

namespace DocPress

set_option autoImplicit false

def sectionNumber (scope : String) (k : Nat) : String := scope ++ toString k ++ "."

mutual

/-- Numbers a section after `count` others of its scope; answers the new count. -/
def numberSection (scope : String) : Node → Nat → Node × Nat
  | ⟨data, title, text, items, entries, blocks, table⟩, count =>
    if data.kind ≠ .section then (⟨data, title, text, items, entries, blocks, table⟩, count)
    else if data.level = 0 then
      let (blocks, count) := numberSections scope blocks count
      (⟨{ data with sectnum := none }, title, text, items, entries, blocks, table⟩, count)
    else if data.numbered then
      let number := sectionNumber scope (count + 1)
      let (blocks, _) := numberSections number blocks 0
      (⟨{ data with sectnum := some number }, title, text, items, entries, blocks, table⟩,
        count + 1)
    else (⟨{ data with sectnum := none }, title, text, items, entries, blocks, table⟩, count)

/-- Numbers the sections among blocks; other blocks are left as they are. -/
def numberSections (scope : String) : List Node → Nat → List Node × Nat
  | [], count => ([], count)
  | n :: ns, count =>
    let (n, count) := numberSection scope n count
    let (ns, count) := numberSections scope ns count
    (n :: ns, count)

end

end DocPress
