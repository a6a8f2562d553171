import DocPress.Inline
import DocPress.Markup.Anchors

/-!
# Words of references

A reference without a text borrows the words of its target: its reference text, else its title
with a number or a caption as the style asks. A title may hold references of its own; those show
their id in brackets, so that borrowing goes one level deep and always ends.
-/

namespace DocPress.Reference

set_option autoImplicit false

/-- What an id stands for: an entry of the catalog, or the document itself for the empty id. -/
def target? (s : Scene) (id : String) : Option RefTarget :=
  match s.doc.catalog.ref? id with
  | some target => some target
  | none => if id.isEmpty then some s.doc.rootTarget else none

/-- The words of last resort: the id in brackets. -/
def bracketed (s : Scene) (id : String) : Markup :=
  if id.isEmpty && (s.doc.catalog.ref? id).isNone then [.text "[^top]"]
  else [.text ("[" ++ id ++ "]")]

/-- References inside borrowed words. -/
def plainWording (s : Scene) : Wording := fun _ id => pure (bracketed s id)

/-- The sign before the number of a section. -/
def defaultSign? : String → Option String
  | "section" => some "Section"
  | "chapter" => some "Chapter"
  | "appendix" => some "Appendix"
  | "part" => some "Part"
  | _ => none

def isEmphasized (sectname : String) : Bool := sectname == "chapter" || sectname == "appendix"

/-- The title of a section, emphasized for chapters and appendices. -/
def basic (sectname : String) (title : Markup) : Markup :=
  if isEmphasized sectname then [.element .em [] title] else title

/-- The title in quotes, or emphasized for chapters and appendices. -/
def quotedTitle (sectname : String) (title : Markup) : Markup :=
  if isEmphasized sectname then [.element .em [] title]
  else .charRef 8220 :: (title ++ [.charRef 8221])

/-- The number of a section behind its sign. -/
def signed (s : Scene) (sectname sectnum : String) : Markup :=
  let number : Html := .raw (Text.trimEnd '.' sectnum)
  let sign := s.attr? (sectname ++ "-refsig") <|> defaultSign? sectname
  match sign.filter (· ≠ "") with
  | some sign => [.raw sign, .text " ", number]
  | none => [number]

/-- The words for a section with the given title. -/
def sectionWords (s : Scene) (t : RefTarget) (style : Option String) (title : Option Markup) :
    Option Markup :=
  let sectname := t.sectname.getD "section"
  match style, (if t.numbered then t.sectnum else none) with
  | none, _ => title
  | some _, none => title.map (basic sectname)
  | some "full", some sectnum =>
    some (signed s sectname sectnum ++ .text ", " :: quotedTitle sectname (title.getD []))
  | some "short", some sectnum => some (signed s sectname sectnum)
  | some _, some _ => title.map (basic sectname)

/-- The words for any other target with the given title. -/
def captionWords (t : RefTarget) (style : Option String) (title : Option Markup) : Option Markup :=
  match style, t.caption.filter (· ≠ ""), title with
  | some "full", some caption, some title =>
    some (.text (Text.dropTail ". " caption ++ ", ") :: .charRef 8220 ::
      (title ++ [.charRef 8221]))
  | some "short", some caption, some _ => some [.text (Text.dropTail ". " caption)]
  | _, _, title => title

/-- The words that a target offers, if any. -/
def offered (s : Scene) (t : RefTarget) (style : Option String) : Rendered (Option Markup) :=
  match t.reftext.filter (· ≠ "") with
  | some reftext => pure (some [.text reftext])
  | none => do
    let title ← match t.title with
      | some title => (some ·) <$> inlines s (plainWording s) title
      | none => pure none
    return if t.kind = .section then sectionWords s t style title else captionWords t style title

/-- The words of a reference to an id in the given style. -/
def wordsFor (s : Scene) (style : Option String) (id : String) : Rendered Markup :=
  match target? s id with
  | none => pure (bracketed s id)
  | some target => do
    match ← offered s target style with
    | some words => return if words.isBlank then bracketed s id else words.withoutAnchors
    | none => return bracketed s id

/-- The words of a reference; the node that refers may set the style. -/
def wording (s : Scene) : Wording := fun d id =>
  wordsFor s (s.nodeAttr? d "xrefstyle" "xrefstyle") id

/-- The text shown for an id, unless a text is given. -/
def resolve (s : Scene) (id : String) (text : Option String) : String :=
  match text with
  | some text => text
  | none => (wordsFor s (s.attr? "xrefstyle") id).value.render

end DocPress.Reference

namespace DocPress

/-- Running text whose references are worded in full. -/
def runningText (s : Scene) (ns : Inlines) : Rendered Markup := inlines s (Reference.wording s) ns

end DocPress
