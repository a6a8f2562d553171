import DocPress.Document.Basic
import DocPress.Json.Basic

/-!
# Documents as JSON

The JSON form of a document: every field of every record under its name, null for what is not
there, and the words of the closed sets by their names.
-/

namespace DocPress

set_option autoImplicit false

namespace Json

def ofOption {α : Type} (encode : α → Json) : Option α → Json
  | some a => encode a
  | none => null

def ofList {α : Type} (encode : α → Json) (items : List α) : Json := arr (items.map encode)

def ofMap {α : Type} (encode : α → Json) (m : SortedMap α) : Json :=
  obj (m.entries.map fun e => (e.1, encode e.2))

end Json

open Json (ofText? ofTexts)

def AttrValue.encode : AttrValue → Json
  | .text s => .str s
  | .list items => ofTexts items

def Attributes.encode (a : Attributes) : Json := Json.ofMap AttrValue.encode a

def NameSet.encode (s : NameSet) : Json := ofTexts s.keys

def encodeSpan (n : Option UInt32) : Json := Json.ofOption (fun n => .ofNat n.toNat) n

def Column.encode (c : Column) : Json :=
  .obj [("pcwidth", Json.ofOption Json.ofFloat c.pcwidth), ("autowidth", .bool c.autowidth)]

def NodeData.encodeWith (d : NodeData) (title text blocks items entries table : Json) : Json :=
  .obj [
    ("kind", .str d.kind.name),
    ("id", ofText? d.id),
    ("style", ofText? d.style),
    ("roles", ofTexts d.roles),
    ("title", title),
    ("caption", ofText? d.caption),
    ("level", .ofNat d.level.toNat),
    ("numbered", .bool d.numbered),
    ("sectnum", ofText? d.sectnum),
    ("sectname", ofText? d.sectname),
    ("node_type", ofText? d.variant),
    ("target", ofText? d.target),
    ("text", text),
    ("source", ofText? d.source),
    ("blocks", blocks),
    ("items", items),
    ("entries", entries),
    ("table", table),
    ("attributes", d.attributes.encode),
    ("options", d.options.encode)]

namespace Node

mutual

def encode : Node → Json
  | ⟨data, title, text, items, entries, blocks, table⟩ =>
    data.encodeWith (encodeOpt title) (encodeOpt text) (.arr (encodeAll blocks))
      (.arr (encodeAll items)) (.arr (encodeEntries entries)) (encodeTable table)

def encodeAll : List Node → List Json
  | [] => []
  | n :: ns => encode n :: encodeAll ns

def encodeOpt : Option (List Node) → Json
  | none => .null
  | some ns => .arr (encodeAll ns)

def encodeEntries : List (Entry Node) → List Json
  | [] => []
  | ⟨terms, none⟩ :: es =>
    .obj [("terms", .arr (encodeAll terms)), ("description", .null)] :: encodeEntries es
  | ⟨terms, some d⟩ :: es =>
    .obj [("terms", .arr (encodeAll terms)), ("description", encode d)] :: encodeEntries es

def encodeTable : Option (Table Node) → Json
  | none => .null
  | some ⟨columns, head, body, foot⟩ =>
    .obj [
      ("columns", .arr (columns.map Column.encode)),
      ("head", .arr (encodeRows head)),
      ("body", .arr (encodeRows body)),
      ("foot", .arr (encodeRows foot))]

def encodeRows : List (List (Cell Node)) → List Json
  | [] => []
  | r :: rs => .arr (encodeRow r) :: encodeRows rs

def encodeRow : List (Cell Node) → List Json
  | [] => []
  | ⟨style, paragraphs, blocks, source, colspan, rowspan, halign, valign⟩ :: cs =>
    .obj [
      ("style", .str style.name),
      ("paragraphs", .arr (encodeParagraphs paragraphs)),
      ("blocks", .arr (encodeAll blocks)),
      ("source", ofText? source),
      ("colspan", encodeSpan colspan),
      ("rowspan", encodeSpan rowspan),
      ("halign", .str halign.name),
      ("valign", .str valign.name)] :: encodeRow cs

def encodeParagraphs : List (List Node) → List Json
  | [] => []
  | p :: ps => .arr (encodeAll p) :: encodeParagraphs ps

end

end Node

def Inlines.encode (ns : Inlines) : Json := .arr (Node.encodeAll ns)

def Table.encode (t : Table Node) : Json := Node.encodeTable (some t)

def Cell.encode (c : Cell Node) : Json := (Node.encodeRow [c]).headD .null

def Author.encode (a : Author) : Json := .obj [("name", .str a.name), ("email", ofText? a.email)]

def Header.encode (h : Header) : Json :=
  .obj [
    ("title", Inlines.encode h.title),
    ("subtitle", Json.ofOption Inlines.encode h.subtitle),
    ("authors", Json.ofList Author.encode h.authors)]

def RefTarget.encode (t : RefTarget) : Json :=
  .obj [
    ("kind", .str t.kind.name),
    ("id", .str t.id),
    ("title", Json.ofOption Inlines.encode t.title),
    ("reftext", ofText? t.reftext),
    ("caption", ofText? t.caption),
    ("sectname", ofText? t.sectname),
    ("sectnum", ofText? t.sectnum),
    ("numbered", .bool t.numbered),
    ("level", .ofNat t.level.toNat)]

def Footnote.encode (f : Footnote) : Json :=
  .obj [("index", .ofNat f.index), ("id", ofText? f.id), ("text", Inlines.encode f.text)]

def Catalog.encode (c : Catalog) : Json :=
  .obj [
    ("refs", Json.ofMap RefTarget.encode c.refs),
    ("footnotes", Json.ofList Footnote.encode c.footnotes)]

def Document.encode (d : Document) : Json :=
  .obj [
    ("root", d.root.encode),
    ("header", Json.ofOption Header.encode d.header),
    ("attributes", d.attributes.encode),
    ("catalog", d.catalog.encode),
    ("nested", .bool d.nested)]

end DocPress
