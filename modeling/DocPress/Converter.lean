import DocPress.Document.Prepare
import DocPress.Page.Basic

/-!
# Converters

Options and a highlighter that turn documents, or single nodes by the name of a transform, into
HTML. A converter keeps nothing from one document to the next.
-/

namespace DocPress

set_option autoImplicit false

structure Conversion where
  html : String
  warnings : List Warning

def Rendered.conversion (r : Rendered Markup) : Conversion := ⟨r.value.render, r.warnings⟩

/-- What can be asked for by name: a whole document, or the rules of a kind. -/
inductive Transform where
  | document
  | embedded
  | node (kind : Kind)
  deriving DecidableEq, Repr

namespace Transform

def name : Transform → String
  | .document => "document"
  | .embedded => "embedded"
  | .node kind => kind.name

def ofName? (name : String) : Option Transform :=
  if name = "document" then some .document
  else if name = "embedded" then some .embedded
  else (Kind.ofName? name).map .node

end Transform

inductive ConvertError where
  | unknownTransform (name : String)
  | notABlock (kind : Kind)
  deriving DecidableEq, Repr

def ConvertError.message : ConvertError → String
  | .unknownTransform name => "Unknown transform: " ++ name
  | .notABlock kind => "Node kind " ++ kind.name ++ " cannot be rendered as a block"

structure Converter where
  options : Options
  highlighter : Option Highlighter
  files : Files

namespace Converter

def scene (c : Converter) (d : Document) : Scene := ⟨d, c.options, c.files, c.highlighter⟩

/-- Prepares a document with the global attributes as defaults. -/
def prepare (c : Converter) (d : Document) : Document := d.prepareWith c.options.attributes

def standalone (c : Converter) (d : Document) : Conversion :=
  (Page.standalone (c.scene d)).conversion

def embedded (c : Converter) (d : Document) : Conversion := (Page.embedded (c.scene d)).conversion

/-- A whole page or the content alone, as the options say. -/
def convert (c : Converter) (d : Document) : Conversion :=
  if c.options.standalone then c.standalone d else c.embedded d

/-- Applies a transform; those of a whole document pass over the node. -/
def apply (c : Converter) (t : Transform) (d : Document) (n : Node) : Conversion :=
  match t with
  | .document => c.standalone d
  | .embedded => c.embedded d
  | .node kind =>
    let s := c.scene d
    if kind.isInline then (inlineAs s (Reference.wording s) kind n).conversion
    else (blockAs s kind none n).conversion

def convertNamed (c : Converter) (name : String) (d : Document) (n : Node) :
    Except ConvertError Conversion :=
  match Transform.ofName? name with
  | some t => .ok (c.apply t d n)
  | none => .error (.unknownTransform name)

/-- The fragment of one block, as if it stood at the top of the document. -/
def convertBlock (c : Converter) (d : Document) (n : Node) : Except ConvertError Conversion :=
  if n.isInline then .error (.notABlock n.kind) else .ok (c.apply (.node n.kind) d n)

def resolve (c : Converter) (d : Document) (id : String) (text : Option String) : String :=
  Reference.resolve (c.scene d) id text

end Converter

end DocPress
