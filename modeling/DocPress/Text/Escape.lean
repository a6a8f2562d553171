/-!
# Escaping

Character data and attribute values are written with entities, one character at a time.
-/

namespace DocPress.Text

set_option autoImplicit false

def textEntity : Char → List Char
  | '&' => ['&', 'a', 'm', 'p', ';']
  | '<' => ['&', 'l', 't', ';']
  | '>' => ['&', 'g', 't', ';']
  | c => [c]

def attributeEntity : Char → List Char
  | '"' => ['&', 'q', 'u', 'o', 't', ';']
  | '\'' => ['&', '#', 'x', '2', '7', ';']
  | c => textEntity c

def escapedText (cs : List Char) : List Char := cs.flatMap textEntity

def escapedAttribute (cs : List Char) : List Char := cs.flatMap attributeEntity

/-- Character data with `&`, `<` and `>` written as entities. -/
def escapeText (s : String) : String := String.ofList (escapedText s.toList)

/-- An attribute value with both quotes written as entities too. -/
def escapeAttribute (s : String) : String := String.ofList (escapedAttribute s.toList)

@[simp] theorem escapedText_nil : escapedText [] = [] := rfl

@[simp] theorem escapedText_cons (c : Char) (cs : List Char) :
    escapedText (c :: cs) = textEntity c ++ escapedText cs := rfl

@[simp] theorem escapedText_append (a b : List Char) :
    escapedText (a ++ b) = escapedText a ++ escapedText b :=
  List.flatMap_append

@[simp] theorem escapedAttribute_nil : escapedAttribute [] = [] := rfl

@[simp] theorem escapedAttribute_cons (c : Char) (cs : List Char) :
    escapedAttribute (c :: cs) = attributeEntity c ++ escapedAttribute cs := rfl

@[simp] theorem escapedAttribute_append (a b : List Char) :
    escapedAttribute (a ++ b) = escapedAttribute a ++ escapedAttribute b :=
  List.flatMap_append

end DocPress.Text
