import DocPress.Markup.Basic

/-!
# Class lists

The tokens of a `class` attribute in the order they were added; empty tokens are dropped.
-/

namespace DocPress

set_option autoImplicit false

structure ClassList where
  tokens : List String

namespace ClassList

def empty : ClassList := ⟨[]⟩

def push (list : ClassList) (token : String) : ClassList :=
  if token.isEmpty then list else ⟨list.tokens ++ [token]⟩

def push? (list : ClassList) : Option String → ClassList
  | none => list
  | some token => list.push token

/-- The list that starts with the fixed class of an element. -/
def base (token : String) : ClassList := empty.push token

def isEmpty (list : ClassList) : Bool := list.tokens.isEmpty

def joined (list : ClassList) : String := " ".intercalate list.tokens

/-- The `class` attribute, or none when there are no tokens. -/
def attrs (list : ClassList) : List Attr := if list.isEmpty then [] else [attr .classes list.joined]

@[simp] theorem push_blank (list : ClassList) : list.push "" = list := rfl

end ClassList

end DocPress
