import DocPress.Rendered
import DocPress.Scene

/-!
# Inline SVG

An SVG file is inserted from its root element on. When the image gives a width or a height, the
root's own dimensions and style are dropped and the given ones put in.
-/

namespace DocPress.Svg

set_option autoImplicit false

open Text (isBlank)

def rootStart : List Char := "<svg".toList

/-- Whether the text begins with the root element: its name ends there. -/
def startsRoot (cs : List Char) : Bool :=
  rootStart.isPrefixOf cs &&
    match cs.drop 4 with
    | c :: _ => isBlank c || c == '>'
    | [] => false

/-- The part of the text from the first root element on. -/
def fromRoot? : List Char → Option (List Char)
  | [] => none
  | c :: rest => if startsRoot (c :: rest) then some (c :: rest) else fromRoot? rest

/-- The text without what precedes its root element. -/
def dropPreamble (cs : List Char) : List Char :=
  if rootStart.isPrefixOf cs then cs else (fromRoot? cs).getD cs

/-- The start tag of the root element and what follows it. -/
def splitStartTag? (cs : List Char) : Option (List Char × List Char) :=
  if startsRoot cs then
    (Text.cut '>' cs).map fun p => (p.1 ++ ['>'], p.2)
  else none

/-- How many characters a quoted value takes, if one begins here. -/
def quotedLength? : List Char → Option Nat
  | q :: rest =>
    if q == '"' || q == '\'' then
      (Text.cut q rest).map fun p => p.1.length + 2
    else none
  | [] => none

/-- How many characters a dimension with its blank takes, if one begins here. -/
def dimensionLength? : List Char → Option Nat
  | c :: rest =>
    if isBlank c then
      ["width=", "height=", "style="].findSome? fun name =>
        if name.toList.isPrefixOf rest then
          (quotedLength? (rest.drop name.length)).map fun n => 1 + name.length + n
        else none
    else none
  | [] => none

/-- The tag without its dimensions; `skip` characters are still to be passed over. -/
def dropDimensions : Nat → List Char → List Char
  | _, [] => []
  | skip + 1, _ :: rest => dropDimensions skip rest
  | 0, c :: rest =>
    match dimensionLength? (c :: rest) with
    | some n => dropDimensions (n - 1) rest
    | none => c :: dropDimensions 0 rest

/-- The text from its root on, with the given dimensions in place of its own. -/
def resize (svg : String) (width height : Option String) : String :=
  let cs := dropPreamble svg.toList
  let given := optAttr .width width ++ optAttr .height height
  if given.isEmpty then String.ofList cs
  else
    match splitStartTag? cs with
    | some (tag, rest) =>
      String.ofList ((dropDimensions 0 tag).dropLast ++ attrChars given ++ '>' :: rest)
    | none => String.ofList cs

def pathOf (s : Scene) (target : String) : String :=
  match s.attr? "imagesdir" with
  | some dir =>
    if dir.isEmpty || Asset.isUri dir then s.basePath target
    else Path.join (s.basePath dir) target
  | none => s.basePath target

/-- The SVG of an image, or none with a warning when there is no file to read. -/
def read (s : Scene) (d : NodeData) (target : String) : Rendered (Option String) :=
  if Asset.isUri target then .warn (.remoteSvg target) none
  else
    let path := pathOf s target
    match s.files.read path with
    | .error cause => .warn (.unreadableSvg path cause) none
    | .ok svg =>
      if svg.isEmpty then .warn (.emptySvg path) none
      else pure (some (resize svg (d.attr? "width") (d.attr? "height")))

def isSvg (d : NodeData) (target : String) : Bool :=
  d.attr? "format" == some "svg" || Text.contains target ".svg"

end DocPress.Svg
