import DocPress.Markup.Basic

/-!
# Equations

A block of AsciiMath is split into equations where a line ends in a backslash or lines are left
blank. Each split closes the equation before it and opens the one after it.
-/

namespace DocPress.Equation

set_option autoImplicit false

universe u

structure Delimiters where
  before : String
  after : String

def ascii : Delimiters := ⟨"\\$", "\\$"⟩

def latex : Delimiters := ⟨"\\[", "\\]"⟩

section

variable {α : Type u} (glyph? : α → Option Char)

def shows (c : Char) (a : α) : Bool := glyph? a == some c

/-- Further line ends of a break, each perhaps behind a backslash: items taken and line ends. -/
def furtherBreaks : List α → Nat × Nat
  | [] => (0, 0)
  | [a] => if shows glyph? '\n' a then (1, 1) else (0, 0)
  | a :: b :: rest =>
    if shows glyph? '\n' a then
      let (taken, ends) := furtherBreaks (b :: rest)
      (taken + 1, ends + 1)
    else if shows glyph? '\\' a && shows glyph? '\n' b then
      let (taken, ends) := furtherBreaks rest
      (taken + 2, ends + 1)
    else (0, 0)

def blankLines? (items : List α) : Option (Nat × Nat) :=
  let ends := (items.takeWhile (shows glyph? '\n')).length
  if 2 ≤ ends then some (ends, ends) else none

/-- A break that begins here: how many items it takes, and how many line ends are in it. -/
def break? (items : List α) : Option (Nat × Nat) :=
  let spaces := (items.takeWhile (shows glyph? ' ')).length
  match items.drop spaces with
  | a :: b :: rest =>
    if shows glyph? '\\' a && shows glyph? '\n' b then
      let (taken, ends) := furtherBreaks glyph? rest
      some (spaces + 2 + taken, ends + 1)
    else blankLines? glyph? items
  | _ => none

/-- Puts `joint` of the line ends in the place of each break; `skip` items are passed over. -/
def splitAt (joint : Nat → List α) : Nat → List α → List α
  | _, [] => []
  | skip + 1, _ :: rest => splitAt joint skip rest
  | 0, a :: rest =>
    match break? glyph? (a :: rest) with
    | some (taken, ends) => joint ends ++ splitAt joint (taken - 1) rest
    | none => a :: splitAt joint 0 rest

end

def onlyChar? (s : String) : Option Char :=
  match s.toList with
  | [c] => some c
  | _ => none

def Html.glyph? : Html → Option Char
  | .text s => onlyChar? s
  | .attrText s => onlyChar? s
  | .raw s => onlyChar? s
  | _ => none

def Piece.glyph? : Piece → Option Char
  | .escaped s => onlyChar? s
  | .raw s => onlyChar? s

/-- The close of an equation, line breaks for all line ends but one, and the next open. -/
def joint (d : Delimiters) (ends : Nat) : Markup :=
  .text d.after :: ((List.replicate (ends - 1) ([.text "\n", .void .br []] : Markup)).flatten ++
    [.text "\n", .text d.before])

def jointPiece (d : Delimiters) (ends : Nat) : List Piece :=
  [.raw (String.ofList (joint d ends).chars)]

def splitPiece : Piece → List Piece
  | .escaped s => s.toList.map fun c => .escaped c.toString
  | .raw s => s.toList.map fun c => .raw c.toString

def splitAttr (d : Delimiters) : Attr → Attr
  | .flag name => .flag name
  | .value name pieces =>
    .value name (splitAt Piece.glyph? (jointPiece d) 0 (pieces.flatMap splitPiece))

mutual

/-- A node as glyphs, with its content and attributes split. -/
def glyphs (d : Delimiters) : Html → List Html
  | .text s => s.toList.map fun c => .text c.toString
  | .attrText s => s.toList.map fun c => .attrText c.toString
  | .raw s => s.toList.map fun c => .raw c.toString
  | .element tag attrs content =>
    [.element tag (attrs.map (splitAttr d)) (splitAt Html.glyph? (joint d) 0 (glyphsOf d content))]
  | .void tag attrs => [.void tag (attrs.map (splitAttr d))]
  | .charRef code => [.charRef code]
  | .doctype => [.doctype]

def glyphsOf (d : Delimiters) : List Html → List Html
  | [] => []
  | h :: hs => glyphs d h ++ glyphsOf d hs

end

/-- The markup with every break replaced by a joint. -/
def split (d : Delimiters) (m : Markup) : Markup := splitAt Html.glyph? (joint d) 0 (glyphsOf d m)

def isDelimited (d : Delimiters) (m : Markup) : Bool :=
  d.before.toList.isPrefixOf m.chars && d.after.toList.isSuffixOf m.chars

/-- The markup between delimiters, unless it is blank or has them already. -/
def delimit (d : Delimiters) (m : Markup) : Markup :=
  if m.isBlank || isDelimited d m then m else .text d.before :: (m ++ [.text d.after])

end DocPress.Equation
