import DocPress.Document.Basic
import DocPress.Json.Decoder

/-!
# Documents from JSON

The readers of the JSON form. Every field of a node, a table, a header and a document may be
missing; a reference target and a footnote need what identifies them. Nodes hold nodes, so their
reader goes as deep as the JSON value does.
-/

namespace DocPress

set_option autoImplicit false

open Json (Decoder Fields)
open Json.Decoder (bool string word word32 word64 list optional)

def AttrValue.decoder : Decoder AttrValue
  | .str s => some (.text s)
  | j => (Json.Decoder.list string j).map .list

def Attributes.decoder : Decoder Attributes := Json.Decoder.map AttrValue.decoder

def Column.decoder : Decoder Column := fun j => do
  let fs ← Fields.ofPartial ["pcwidth", "autowidth"] j
  let pcwidth ← fs.get? "pcwidth" Json.Decoder.double
  let autowidth ← fs.get "autowidth" bool false
  return ⟨pcwidth, autowidth⟩

section

variable {α : Type}

def Entry.decoder (node : Decoder α) : Decoder (Entry α) := fun j => do
  let fs ← Fields.ofPartial ["terms", "description"] j
  let terms ← fs.get "terms" (list node) []
  let description ← fs.get? "description" node
  return ⟨terms, description⟩

def Cell.fieldNames : List String :=
  ["style", "paragraphs", "blocks", "source", "colspan", "rowspan", "halign", "valign"]

def Cell.decoder (node : Decoder α) : Decoder (Cell α) := fun j => do
  let fs ← Fields.ofPartial Cell.fieldNames j
  let style ← fs.get "style" (word CellStyle.ofName?) .default
  let paragraphs ← fs.get "paragraphs" (list (list node)) []
  let blocks ← fs.get "blocks" (list node) []
  let source ← fs.get? "source" string
  let colspan ← fs.get? "colspan" word32
  let rowspan ← fs.get? "rowspan" word32
  let halign ← fs.get "halign" (word HAlign.ofName?) .left
  let valign ← fs.get "valign" (word VAlign.ofName?) .top
  return ⟨style, paragraphs, blocks, source, colspan, rowspan, halign, valign⟩

def Table.decoder (node : Decoder α) : Decoder (Table α) := fun j => do
  let fs ← Fields.ofPartial ["columns", "head", "body", "foot"] j
  let rows := list (list (Cell.decoder node))
  let columns ← fs.get "columns" (list Column.decoder) []
  let head ← fs.get "head" rows []
  let body ← fs.get "body" rows []
  let foot ← fs.get "foot" rows []
  return ⟨columns, head, body, foot⟩

end

namespace NodeData

def ofFields (fs : Fields) : Option NodeData := do
  let kind ← fs.get "kind" (word Kind.ofName?) .paragraph
  let id ← fs.get? "id" string
  let style ← fs.get? "style" string
  let roles ← fs.get "roles" (list string) []
  let caption ← fs.get? "caption" string
  let level ← fs.get "level" word64 0
  let numbered ← fs.get "numbered" bool false
  let sectnum ← fs.get? "sectnum" string
  let sectname ← fs.get? "sectname" string
  let variant ← fs.get? "node_type" string
  let target ← fs.get? "target" string
  let source ← fs.get? "source" string
  let attributes ← fs.get "attributes" Attributes.decoder ∅
  let options ← fs.get "options" Json.Decoder.names ∅
  return { kind, id, style, roles, caption, level, numbered, sectnum, sectname, variant, target,
           source, attributes, options }

end NodeData

namespace Node

def fieldNames : List String :=
  ["kind", "id", "style", "roles", "title", "caption", "level", "numbered", "sectnum", "sectname",
    "node_type", "target", "text", "source", "blocks", "items", "entries", "table", "attributes",
    "options"]

/-- A node from its fields, with a reader for the nodes below it. -/
def ofFields (node : Decoder Node) (fs : Fields) : Option Node := do
  let data ← NodeData.ofFields fs
  let title ← fs.get? "title" (list node)
  let text ← fs.get? "text" (list node)
  let blocks ← fs.get "blocks" (list node) []
  let items ← fs.get "items" (list node) []
  let entries ← fs.get "entries" (list (Entry.decoder node)) []
  let table ← fs.get? "table" (Table.decoder node)
  return ⟨data, title, text, items, entries, blocks, table⟩

/-- Reads nodes at most `depth` values deep. -/
def decoderTo : Nat → Decoder Node
  | 0 => fun _ => none
  | depth + 1 => fun j => (Fields.ofPartial fieldNames j).bind (ofFields (decoderTo depth))

/-- Reads a node as deep as its value goes. -/
def decoder : Decoder Node := fun j => decoderTo (j.depth + 1) j

end Node

def Inlines.decoder : Decoder Inlines := list Node.decoder

def Author.decoder : Decoder Author := fun j => do
  let fs ← Fields.ofPartial ["name", "email"] j
  let name ← fs.get "name" string ""
  let email ← fs.get? "email" string
  return ⟨name, email⟩

def Header.decoder : Decoder Header := fun j => do
  let fs ← Fields.ofPartial ["title", "subtitle", "authors"] j
  let title ← fs.get "title" Inlines.decoder []
  let subtitle ← fs.get? "subtitle" Inlines.decoder
  let authors ← fs.get "authors" (list Author.decoder) []
  return ⟨title, subtitle, authors⟩

def RefTarget.fieldNames : List String :=
  ["kind", "id", "title", "reftext", "caption", "sectname", "sectnum", "numbered", "level"]

def RefTarget.decoder : Decoder RefTarget := fun j => do
  let fs ← Fields.ofWhole RefTarget.fieldNames j
  let kind ← fs.need "kind" (word Kind.ofName?)
  let id ← fs.need "id" string
  let title ← fs.get? "title" Inlines.decoder
  let reftext ← fs.get? "reftext" string
  let caption ← fs.get? "caption" string
  let sectname ← fs.get? "sectname" string
  let sectnum ← fs.get? "sectnum" string
  let numbered ← fs.need "numbered" bool
  let level ← fs.need "level" word64
  return ⟨kind, id, title, reftext, caption, sectname, sectnum, numbered, level⟩

def Footnote.decoder : Decoder Footnote := fun j => do
  let fs ← Fields.ofWhole ["index", "id", "text"] j
  let index ← fs.need "index" (Json.Decoder.natBelow UInt64.size)
  let id ← fs.get? "id" string
  let text ← fs.need "text" Inlines.decoder
  return ⟨index, id, text⟩

def Catalog.decoder : Decoder Catalog := fun j => do
  let fs ← Fields.ofPartial ["refs", "footnotes"] j
  let refs ← fs.get "refs" (Json.Decoder.map RefTarget.decoder) ∅
  let footnotes ← fs.get "footnotes" (list Footnote.decoder) []
  return ⟨refs, footnotes⟩

def Document.decoder : Decoder Document := fun j => do
  let fs ← Fields.ofPartial ["root", "header", "attributes", "catalog", "nested"] j
  let root ← fs.get "root" Node.decoder (.ofKind .document)
  let header ← fs.get? "header" Header.decoder
  let attributes ← fs.get "attributes" Attributes.decoder ∅
  let catalog ← fs.get "catalog" Catalog.decoder .blank
  let nested ← fs.get "nested" bool false
  return ⟨root, header, attributes, catalog, nested⟩

end DocPress
