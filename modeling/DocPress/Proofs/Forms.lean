import Mathlib.Data.List.Forall2
import DocPress.Document.Decode
import DocPress.Document.Encode

/-! The JSON values that stand for a document. A record may be written without the fields that have
the default of their record, and with fields of names that it does not know; words, texts, numbers
and the names of maps are written in one way. -/

namespace DocPress

set_option autoImplicit false

namespace Json

/-- Which JSON values stand for a value of a type. -/
abbrev Form (α : Type) := α → Json → Prop

section

variable {α : Type}

/-- Only the encoding stands for a value. -/
def Exact (encode : α → Json) : Form α := fun a j => j = encode a

inductive OptionForm (R : Form α) : Form (Option α)
  | none : OptionForm R none null
  | some {a : α} {j : Json} (h : R a j) : OptionForm R (some a) j

inductive ListForm (R : Form α) : Form (List α)
  | arr {as : List α} {js : List Json} (h : List.Forall₂ R as js) : ListForm R as (arr js)

/-- A map is written as all its entries under their names. -/
inductive MapForm (R : Form α) : Form (SortedMap α)
  | obj {m : SortedMap α} {fs : Fields}
      (h : List.Forall₂ (fun e f => f.1 = e.1 ∧ R e.2 f.2) m.entries fs) : MapForm R m (obj fs)

/-- What is found under the name of a field of a record: a form of its value, or nothing if the
value is the default. -/
inductive Field (R : Form α) : Option Json → α → α → Prop
  | present {j : Json} {a default : α} (h : R a j) : Field R (some j) a default
  | absent {default : α} : Field R none default default

/-- What is found under the name of a field that has to be there. -/
inductive Needed (R : Form α) : Option Json → α → Prop
  | present {j : Json} {a : α} (h : R a j) : Needed R (some j) a

theorem Field.of_eq {R : Form α} {found : Option Json} {j : Json} {a default : α}
    (hj : found = some j) (h : R a j) : Field R found a default := by
  rw [hj]
  exact .present h

theorem Needed.of_eq {R : Form α} {found : Option Json} {j : Json} {a : α}
    (hj : found = some j) (h : R a j) : Needed R found a := by
  rw [hj]
  exact .present h

theorem optionForm_ofOption {R : Form α} {encode : α → Json} (o : Option α)
    (h : ∀ a ∈ o, R a (encode a)) : OptionForm R o (ofOption encode o) := by
  cases o with
  | none => exact .none
  | some a => exact .some (h a rfl)

theorem forall₂_map {R : Form α} {encode : α → Json} (as : List α) (h : ∀ a ∈ as, R a (encode a)) :
    List.Forall₂ R as (as.map encode) := by
  rw [List.forall₂_map_right_iff, List.forall₂_same]
  exact h

theorem mapForm_ofMap {R : Form α} {encode : α → Json} (m : SortedMap α)
    (h : ∀ e ∈ m.entries, R e.2 (encode e.2)) : MapForm R m (ofMap encode m) := by
  refine .obj ?_
  rw [List.forall₂_map_right_iff, List.forall₂_same]
  exact fun e he => ⟨rfl, h e he⟩

end

abbrev Text : Form String := Exact str
abbrev Text? : Form (Option String) := OptionForm Text
abbrev Texts : Form (List String) := Exact ofTexts
abbrev Flag : Form Bool := Exact bool
abbrev Word {α : Type} (name : α → String) : Form α := Exact fun a => str (name a)
abbrev Word64 : Form UInt64 := Exact fun n => ofNat n.toNat
abbrev Word32 : Form UInt32 := Exact fun n => ofNat n.toNat

theorem text?_ofText? (o : Option String) : Text? o (ofText? o) := by
  cases o with
  | none => exact .none
  | some s => exact .some rfl

end Json

open Json

/-! ### Records -/

inductive Column.Form : Json.Form Column
  | obj {c : Column} {fs : Fields}
      (pcwidth : Field (Exact (ofOption ofFloat)) (fs.lookup "pcwidth") c.pcwidth none)
      (autowidth : Field Flag (fs.lookup "autowidth") c.autowidth false) : Form c (.obj fs)

section

variable {α : Type} (R : Json.Form α)

inductive Entry.Form : Json.Form (Entry α)
  | obj {e : Entry α} {fs : Fields}
      (terms : Field (ListForm R) (fs.lookup "terms") e.terms [])
      (description : Field (OptionForm R) (fs.lookup "description") e.description none) :
      Form e (.obj fs)

inductive Cell.Form : Json.Form (Cell α)
  | obj {c : Cell α} {fs : Fields}
      (style : Field (Word CellStyle.name) (fs.lookup "style") c.style CellStyle.default)
      (paragraphs : Field (ListForm (ListForm R)) (fs.lookup "paragraphs") c.paragraphs [])
      (blocks : Field (ListForm R) (fs.lookup "blocks") c.blocks [])
      (source : Field Text? (fs.lookup "source") c.source none)
      (colspan : Field (OptionForm Word32) (fs.lookup "colspan") c.colspan none)
      (rowspan : Field (OptionForm Word32) (fs.lookup "rowspan") c.rowspan none)
      (halign : Field (Word HAlign.name) (fs.lookup "halign") c.halign HAlign.left)
      (valign : Field (Word VAlign.name) (fs.lookup "valign") c.valign VAlign.top) :
      Form c (.obj fs)

inductive Table.Form : Json.Form (Table α)
  | obj {t : Table α} {fs : Fields}
      (columns : Field (ListForm Column.Form) (fs.lookup "columns") t.columns [])
      (head : Field (ListForm (ListForm (Cell.Form R))) (fs.lookup "head") t.head [])
      (body : Field (ListForm (ListForm (Cell.Form R))) (fs.lookup "body") t.body [])
      (foot : Field (ListForm (ListForm (Cell.Form R))) (fs.lookup "foot") t.foot []) :
      Form t (.obj fs)

end

def Attributes.Form : Json.Form Attributes := Exact Attributes.encode

/-- The fields of a node that hold no nodes. -/
structure NodeData.Form (d : NodeData) (fs : Fields) : Prop where
  kind : Field (Word Kind.name) (fs.lookup "kind") d.kind Kind.paragraph
  id : Field Text? (fs.lookup "id") d.id none
  style : Field Text? (fs.lookup "style") d.style none
  roles : Field Texts (fs.lookup "roles") d.roles []
  caption : Field Text? (fs.lookup "caption") d.caption none
  level : Field Word64 (fs.lookup "level") d.level 0
  numbered : Field Flag (fs.lookup "numbered") d.numbered false
  sectnum : Field Text? (fs.lookup "sectnum") d.sectnum none
  sectname : Field Text? (fs.lookup "sectname") d.sectname none
  variant : Field Text? (fs.lookup "node_type") d.variant none
  target : Field Text? (fs.lookup "target") d.target none
  source : Field Text? (fs.lookup "source") d.source none
  attributes : Field Attributes.Form (fs.lookup "attributes") d.attributes ∅
  options : Field (Exact NameSet.encode) (fs.lookup "options") d.options ∅

inductive Node.Form : Json.Form Node
  | obj {n : Node} {fs : Fields}
      (data : n.data.Form fs)
      (title : Field (OptionForm (ListForm Form)) (fs.lookup "title") n.title none)
      (text : Field (OptionForm (ListForm Form)) (fs.lookup "text") n.text none)
      (blocks : Field (ListForm Form) (fs.lookup "blocks") n.blocks [])
      (items : Field (ListForm Form) (fs.lookup "items") n.items [])
      (entries : Field (ListForm (Entry.Form Form)) (fs.lookup "entries") n.entries [])
      (table : Field (OptionForm (Table.Form Form)) (fs.lookup "table") n.table none) :
      Form n (.obj fs)

def Inlines.Form : Json.Form Inlines := ListForm Node.Form

inductive Author.Form : Json.Form Author
  | obj {a : Author} {fs : Fields}
      (name : Field Text (fs.lookup "name") a.name "")
      (email : Field Text? (fs.lookup "email") a.email none) : Form a (.obj fs)

inductive Header.Form : Json.Form Header
  | obj {h : Header} {fs : Fields}
      (title : Field Inlines.Form (fs.lookup "title") h.title [])
      (subtitle : Field (OptionForm Inlines.Form) (fs.lookup "subtitle") h.subtitle none)
      (authors : Field (ListForm Author.Form) (fs.lookup "authors") h.authors []) :
      Form h (.obj fs)

inductive RefTarget.Form : Json.Form RefTarget
  | obj {t : RefTarget} {fs : Fields}
      (kind : Needed (Word Kind.name) (fs.lookup "kind") t.kind)
      (id : Needed Text (fs.lookup "id") t.id)
      (title : Field (OptionForm Inlines.Form) (fs.lookup "title") t.title none)
      (reftext : Field Text? (fs.lookup "reftext") t.reftext none)
      (caption : Field Text? (fs.lookup "caption") t.caption none)
      (sectname : Field Text? (fs.lookup "sectname") t.sectname none)
      (sectnum : Field Text? (fs.lookup "sectnum") t.sectnum none)
      (numbered : Needed Flag (fs.lookup "numbered") t.numbered)
      (level : Needed Word64 (fs.lookup "level") t.level) : Form t (.obj fs)

inductive Footnote.Form : Json.Form Footnote
  | obj {f : Footnote} {fs : Fields}
      (index : Needed (Exact ofNat) (fs.lookup "index") f.index)
      (id : Field Text? (fs.lookup "id") f.id none)
      (text : Needed Inlines.Form (fs.lookup "text") f.text) : Form f (.obj fs)

inductive Catalog.Form : Json.Form Catalog
  | obj {c : Catalog} {fs : Fields}
      (refs : Field (MapForm RefTarget.Form) (fs.lookup "refs") c.refs ∅)
      (footnotes : Field (ListForm Footnote.Form) (fs.lookup "footnotes") c.footnotes []) :
      Form c (.obj fs)

/-- The JSON values that stand for a document. -/
inductive Document.Form : Json.Form Document
  | obj {d : Document} {fs : Fields}
      (root : Field Node.Form (fs.lookup "root") d.root (.ofKind .document))
      (header : Field (OptionForm Header.Form) (fs.lookup "header") d.header none)
      (attributes : Field Attributes.Form (fs.lookup "attributes") d.attributes ∅)
      (catalog : Field Catalog.Form (fs.lookup "catalog") d.catalog .blank)
      (nested : Field Flag (fs.lookup "nested") d.nested false) : Form d (.obj fs)

/-! ### The encoding is a form -/

theorem Column.form_encode (c : Column) : c.Form c.encode :=
  .obj (.of_eq rfl rfl) (.of_eq rfl rfl)

theorem NodeData.form_encode (d : NodeData) (title text blocks items entries table : Json) :
    ∃ fs, d.encodeWith title text blocks items entries table = .obj fs ∧ d.Form fs ∧
      fs.lookup "title" = some title ∧ fs.lookup "text" = some text ∧
      fs.lookup "blocks" = some blocks ∧ fs.lookup "items" = some items ∧
      fs.lookup "entries" = some entries ∧ fs.lookup "table" = some table := by
  refine ⟨_, rfl, ?_, rfl, rfl, rfl, rfl, rfl, rfl⟩
  exact {
    kind := .of_eq rfl rfl
    id := .of_eq rfl (text?_ofText? d.id)
    style := .of_eq rfl (text?_ofText? d.style)
    roles := .of_eq rfl rfl
    caption := .of_eq rfl (text?_ofText? d.caption)
    level := .of_eq rfl rfl
    numbered := .of_eq rfl rfl
    sectnum := .of_eq rfl (text?_ofText? d.sectnum)
    sectname := .of_eq rfl (text?_ofText? d.sectname)
    variant := .of_eq rfl (text?_ofText? d.variant)
    target := .of_eq rfl (text?_ofText? d.target)
    source := .of_eq rfl (text?_ofText? d.source)
    attributes := .of_eq rfl rfl
    options := .of_eq rfl rfl }

namespace Node

mutual

theorem form_encode : ∀ n : Node, n.Form n.encode
  | ⟨data, title, text, items, entries, blocks, table⟩ => by
    obtain ⟨fs, henc, hdata, htitle, htext, hblocks, hitems, hentries, htable⟩ :=
      data.form_encode (encodeOpt title) (encodeOpt text) (.arr (encodeAll blocks))
        (.arr (encodeAll items)) (.arr (encodeEntries entries)) (encodeTable table)
    rw [encode, henc]
    exact .obj hdata (.of_eq htitle (form_encodeOpt title)) (.of_eq htext (form_encodeOpt text))
      (.of_eq hblocks (.arr (form_encodeAll blocks))) (.of_eq hitems (.arr (form_encodeAll items)))
      (.of_eq hentries (.arr (form_encodeEntries entries))) (.of_eq htable (form_encodeTable table))

theorem form_encodeAll : ∀ ns : List Node, List.Forall₂ Form ns (encodeAll ns)
  | [] => .nil
  | n :: ns => .cons (form_encode n) (form_encodeAll ns)

theorem form_encodeOpt : ∀ ns : Option (List Node), OptionForm (ListForm Form) ns (encodeOpt ns)
  | none => .none
  | some ns => .some (.arr (form_encodeAll ns))

theorem form_encodeEntries :
    ∀ es : List (Entry Node), List.Forall₂ (Entry.Form Form) es (encodeEntries es)
  | [] => .nil
  | ⟨terms, none⟩ :: es =>
    .cons (.obj (.of_eq rfl (.arr (form_encodeAll terms))) (.of_eq rfl .none))
      (form_encodeEntries es)
  | ⟨terms, some d⟩ :: es =>
    .cons (.obj (.of_eq rfl (.arr (form_encodeAll terms))) (.of_eq rfl (.some (form_encode d))))
      (form_encodeEntries es)

theorem form_encodeTable :
    ∀ t : Option (Table Node), OptionForm (Table.Form Form) t (encodeTable t)
  | none => .none
  | some ⟨columns, head, body, foot⟩ =>
    .some (.obj (.of_eq rfl (.arr (forall₂_map columns fun c _ => c.form_encode)))
      (.of_eq rfl (.arr (form_encodeRows head))) (.of_eq rfl (.arr (form_encodeRows body)))
      (.of_eq rfl (.arr (form_encodeRows foot))))

theorem form_encodeRows : ∀ rs : List (List (Cell Node)),
    List.Forall₂ (ListForm (Cell.Form Form)) rs (encodeRows rs)
  | [] => .nil
  | r :: rs => .cons (.arr (form_encodeRow r)) (form_encodeRows rs)

theorem form_encodeRow : ∀ cs : List (Cell Node), List.Forall₂ (Cell.Form Form) cs (encodeRow cs)
  | [] => .nil
  | ⟨_, paragraphs, blocks, source, colspan, rowspan, _, _⟩ :: cs =>
    .cons (.obj (.of_eq rfl rfl) (.of_eq rfl (.arr (form_encodeParagraphs paragraphs)))
      (.of_eq rfl (.arr (form_encodeAll blocks))) (.of_eq rfl (text?_ofText? source))
      (.of_eq rfl (optionForm_ofOption colspan fun _ _ => rfl))
      (.of_eq rfl (optionForm_ofOption rowspan fun _ _ => rfl)) (.of_eq rfl rfl) (.of_eq rfl rfl))
      (form_encodeRow cs)

theorem form_encodeParagraphs :
    ∀ ps : List (List Node), List.Forall₂ (ListForm Form) ps (encodeParagraphs ps)
  | [] => .nil
  | p :: ps => .cons (.arr (form_encodeAll p)) (form_encodeParagraphs ps)

end

end Node

theorem Inlines.form_encode (ns : Inlines) : ns.Form ns.encode := .arr (Node.form_encodeAll ns)

theorem Author.form_encode (a : Author) : a.Form a.encode :=
  .obj (.of_eq rfl rfl) (.of_eq rfl (text?_ofText? a.email))

theorem Header.form_encode (h : Header) : h.Form h.encode :=
  .obj (.of_eq rfl (Inlines.form_encode h.title))
    (.of_eq rfl (optionForm_ofOption h.subtitle fun ns _ => Inlines.form_encode ns))
    (.of_eq rfl (.arr (forall₂_map h.authors fun a _ => a.form_encode)))

theorem RefTarget.form_encode (t : RefTarget) : t.Form t.encode :=
  .obj (.of_eq rfl rfl) (.of_eq rfl rfl)
    (.of_eq rfl (optionForm_ofOption t.title fun ns _ => Inlines.form_encode ns))
    (.of_eq rfl (text?_ofText? t.reftext)) (.of_eq rfl (text?_ofText? t.caption))
    (.of_eq rfl (text?_ofText? t.sectname)) (.of_eq rfl (text?_ofText? t.sectnum))
    (.of_eq rfl rfl) (.of_eq rfl rfl)

theorem Footnote.form_encode (f : Footnote) : f.Form f.encode :=
  .obj (.of_eq rfl rfl) (.of_eq rfl (text?_ofText? f.id)) (.of_eq rfl (Inlines.form_encode f.text))

theorem Catalog.form_encode (c : Catalog) : c.Form c.encode :=
  .obj (.of_eq rfl (mapForm_ofMap c.refs fun e _ => e.2.form_encode))
    (.of_eq rfl (.arr (forall₂_map c.footnotes fun f _ => f.form_encode)))

theorem Document.form_encode (d : Document) : d.Form d.encode :=
  .obj (.of_eq rfl d.root.form_encode)
    (.of_eq rfl (optionForm_ofOption d.header fun h _ => h.form_encode)) (.of_eq rfl rfl)
    (.of_eq rfl d.catalog.form_encode) (.of_eq rfl rfl)

end DocPress
