import DocPress.Markup.Basic
import DocPress.Text.Blank
import DocPress.Text.Letter

/-!
# Anchors

Markup can be borrowed for a place inside a link once it holds no anchors of its own. Anchors are
taken out of the tree; only where unescaped text might hold tags itself are the tags taken out of
the written form.
-/

namespace DocPress

set_option autoImplicit false

def Piece.raw? : Piece → Option String
  | .escaped _ => none
  | .raw s => some s

def AttrName.custom? : AttrName → Option String
  | .custom s => some s
  | _ => none

/-- The texts of an attribute that are written as they are given. -/
def Attr.raws : Attr → List String
  | .flag name => name.custom?.toList
  | .value name pieces => name.custom?.toList ++ pieces.filterMap Piece.raw?

mutual

/-- The texts of a node that are written as they are given. -/
def Html.raws : Html → List String
  | .doctype => []
  | .text _ => []
  | .attrText _ => []
  | .raw s => [s]
  | .charRef _ => []
  | .void _ attrs => attrs.flatMap Attr.raws
  | .element _ attrs content => attrs.flatMap Attr.raws ++ rawsOf content

def rawsOf : List Html → List String
  | [] => []
  | h :: hs => h.raws ++ rawsOf hs

end

/-- Whether a text holds no part of a tag. -/
def isTagFree (s : String) : Bool := s.toList.all fun c => c != '<' && c != '>'

mutual

/-- The node with the content of each anchor in the place of the anchor. -/
def Html.unwrapAnchors : Html → List Html
  | .element .a _ content => unwrapAnchorsOf content
  | .element tag attrs content => [.element tag attrs (unwrapAnchorsOf content)]
  | .doctype => [.doctype]
  | .text s => [.text s]
  | .attrText s => [.attrText s]
  | .raw s => [.raw s]
  | .charRef code => [.charRef code]
  | .void tag attrs => [.void tag attrs]

def unwrapAnchorsOf : List Html → List Html
  | [] => []
  | h :: hs => h.unwrapAnchors ++ unwrapAnchorsOf hs

end

/-- How many characters an anchor tag takes, if one begins here; its name ends at a word's end. -/
def anchorTagLength? : List Char → Option Nat
  | '<' :: '/' :: 'a' :: '>' :: _ => some 4
  | '<' :: 'a' :: c :: rest =>
    if Text.isWordChar c then none else (Text.cut '>' (c :: rest)).map fun p => p.1.length + 3
  | _ => none

/-- The characters without anchor tags; `skip` of them are still to be passed over. -/
def dropAnchorTags : Nat → List Char → List Char
  | _, [] => []
  | skip + 1, _ :: rest => dropAnchorTags skip rest
  | 0, c :: rest =>
    match anchorTagLength? (c :: rest) with
    | some n => dropAnchorTags (n - 1) rest
    | none => c :: dropAnchorTags 0 rest

/-- The written form without anchor tags, if any tag in it might open an anchor. -/
def dropAnchors (cs : List Char) : List Char :=
  if Text.occursIn "<a".toList cs then dropAnchorTags 0 cs else cs

def Markup.withoutAnchors (m : Markup) : Markup :=
  if (rawsOf m).all isTagFree then unwrapAnchorsOf m
  else [.raw (String.ofList (dropAnchors m.chars))]

end DocPress
