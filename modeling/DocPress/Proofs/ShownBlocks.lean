import DocPress.Proofs.Numerals
import DocPress.Proofs.Sights

/-! The inline nodes that blocks show are those in the texts that the page shows of them, and the
marks of footnotes in the blocks of a page come from these nodes. -/

namespace DocPress

set_option autoImplicit false

open Block

/-! ### Shown nodes of blocks -/

namespace Node

def shownParagraphs (paragraphs : List (List Node)) : List NodeData := paragraphs.flatMap shownAll

def shownTerms (terms : List Node) : List NodeData := terms.flatMap fun t => shownOpt t.text

mutual

/-- The inline nodes that a block shows by the rules of its kind, in the order of the page. -/
def shownBlock (book : Bool) (parent : Option Parent) : Node → List NodeData
  | ⟨d, title, text, items, entries, blocks, table⟩ =>
    match d.kind with
    | .document | .preamble => shownContent book d text blocks
    | .section | .paragraph | .admonition | .exampleBlock | .quote | .sidebar =>
      shownOpt title ++ shownContent book d text blocks
    | .openBlock =>
      if d.isLeftOut book parent then [] else shownOpt title ++ shownContent book d text blocks
    | .pass =>
      if d.source.isSome && blocks.isEmpty then [] else shownContent book d text blocks
    | .listing | .literal | .stem | .verse => shownOpt title ++ shownOpt text
    | .audio | .floatingTitle | .image | .video => shownOpt title
    | .colist | .olist | .ulist => shownOpt title ++ shownItems book items
    | .dlist => shownOpt title ++ shownEntries book entries
    | .table => shownOpt title ++ shownTable book d.asParent table
    | .listItem => shownOpt text ++ shownBlocks book (some d.asParent) blocks
    | _ => []

def shownBlocks (book : Bool) (parent : Option Parent) : List Node → List NodeData
  | [] => []
  | n :: ns => shownBlock book parent n ++ shownBlocks book parent ns

/-- Blocks are shown in the place of a text. -/
def shownContent (book : Bool) (d : NodeData) (text : Option (List Node)) :
    List Node → List NodeData
  | [] => shownOpt text
  | b :: bs => shownBlock book (some d.asParent) b ++ shownBlocks book (some d.asParent) bs

/-- An item shows its text and its blocks. -/
def shownItems (book : Bool) : List Node → List NodeData
  | [] => []
  | ⟨d, _, text, _, _, blocks, _⟩ :: rest =>
    shownOpt text ++ shownBlocks book (some d.asParent) blocks ++ shownItems book rest

def shownEntries (book : Bool) : List (Entry Node) → List NodeData
  | [] => []
  | ⟨terms, none⟩ :: rest => shownTerms terms ++ shownEntries book rest
  | ⟨terms, some ⟨d, _, text, _, _, blocks, _⟩⟩ :: rest =>
    shownTerms terms ++ (shownOpt text ++ shownBlocks book (some d.asParent) blocks) ++
      shownEntries book rest

def shownTable (book : Bool) (parent : Parent) : Option (Table Node) → List NodeData
  | none => []
  | some ⟨_, head, body, foot⟩ => shownRows book parent true head ++
      shownRows book parent false body ++ shownRows book parent false foot

def shownRows (book : Bool) (parent : Parent) (head : Bool) :
    List (List (Cell Node)) → List NodeData
  | [] => []
  | r :: rs => shownRow book parent head r ++ shownRows book parent head rs

/-- A cell shows its blocks or its paragraphs, and a literal one its source if it has one. -/
def shownRow (book : Bool) (parent : Parent) (head : Bool) : List (Cell Node) → List NodeData
  | [] => []
  | ⟨style, paragraphs, blocks, source, _, _, _, _⟩ :: cs =>
    (match head, style, source with
      | false, .asciidoc, _ => shownBlocks book (some parent) blocks
      | false, .literal, some _ => []
      | _, _, _ => shownParagraphs paragraphs) ++ shownRow book parent head cs

end

end Node

/-! ### Shown texts -/

/-- The inline nodes that a text on the page shows. -/
def Sight.shown : Sight → List NodeData
  | .text ns => Node.shownOpt ns
  | .equation n => Node.shownOpt n.text
  | .listing n => Node.shownOpt n.text
  | _ => []

namespace Sight

@[simp] theorem shown_text (ns : Option Inlines) : (text ns).shown = Node.shownOpt ns := rfl

@[simp] theorem shown_equation (n : Node) : (equation n).shown = Node.shownOpt n.text := rfl

@[simp] theorem shown_listing (n : Node) : (listing n).shown = Node.shownOpt n.text := rfl

@[simp] theorem shown_block (parent : Option Parent) (n : Node) : (block parent n).shown = [] := rfl

@[simp] theorem shown_term (n : Node) : (term n).shown = [] := rfl

@[simp] theorem shown_description (n : Node) : (description n).shown = [] := rfl

end Sight

namespace Node

def shownIn (xs : List Sight) : List NodeData := xs.flatMap Sight.shown

@[simp] theorem shownIn_nil : shownIn [] = [] := rfl

@[simp] theorem shownIn_cons (x : Sight) (xs : List Sight) :
    shownIn (x :: xs) = x.shown ++ shownIn xs := rfl

@[simp] theorem shownIn_append (a b : List Sight) : shownIn (a ++ b) = shownIn a ++ shownIn b :=
  List.flatMap_append

theorem shownIn_terms (terms : List Node) : shownIn (sightsOfTerms terms) = shownTerms terms := by
  rw [shownIn, sightsOfTerms, List.flatMap_assoc]
  simp [shownTerms]

theorem shownIn_paragraphs (paragraphs : List Inlines) :
    shownIn (paragraphs.map fun p => .text (some p)) = shownParagraphs paragraphs := by
  rw [shownIn, List.flatMap_map]
  rfl

mutual

theorem shownIn_sights (book : Bool) : ∀ (n : Node) (parent : Option Parent),
    shownIn (n.sights book parent) = n.shownBlock book parent
  | ⟨d, title, text, items, entries, blocks, table⟩, parent => by
    have hcontent := shownIn_content book d text blocks
    have hitems := shownIn_items book (fun n => (rfl : (Sight.item n).shown = [])) items
    have hcallouts := shownIn_items book (fun n => (rfl : (Sight.calloutItem n).shown = [])) items
    have hentries := shownIn_entries book entries
    have htable := shownIn_table book d.asParent table
    have hblocks := shownIn_blocks book (some d.asParent) blocks
    cases hk : d.kind
    all_goals
      simp only [sights, shownBlock, hk]
      try split
      all_goals simp_all

theorem shownIn_blocks (book : Bool) (parent : Option Parent) : ∀ ns : List Node,
    shownIn (sightsOf book parent ns) = shownBlocks book parent ns
  | [] => rfl
  | n :: ns => by
    simp only [sightsOf, shownBlocks, shownIn_append, shownIn_sights book n parent,
      shownIn_blocks book parent ns]

theorem shownIn_content (book : Bool) (d : NodeData) (text : Option (List Node)) :
    ∀ blocks : List Node,
      shownIn (sightsOfContent book d text blocks) = shownContent book d text blocks
  | [] => List.append_nil _
  | b :: bs => by
    have hb := shownIn_sights book b (some d.asParent)
    have hbs := shownIn_blocks book (some d.asParent) bs
    simp only [sightsOfContent, shownContent, shownIn_append, hb, hbs]

theorem shownIn_items (book : Bool) {place : Node → Sight} (hplace : ∀ n, (place n).shown = []) :
    ∀ items : List Node, shownIn (sightsOfItems book place items) = shownItems book items
  | [] => rfl
  | ⟨d, _, text, _, _, blocks, _⟩ :: rest => by
    have hblocks := shownIn_blocks book (some d.asParent) blocks
    have hrest := shownIn_items book hplace rest
    simp only [sightsOfItems, shownItems, shownIn_cons, shownIn_append, hplace, Sight.shown_text,
      List.nil_append, List.append_assoc, hblocks, hrest]

theorem shownIn_entries (book : Bool) : ∀ entries : List (Entry Node),
    shownIn (sightsOfEntries book entries) = shownEntries book entries
  | [] => rfl
  | ⟨terms, none⟩ :: rest => by
    simp only [sightsOfEntries, shownEntries, shownIn_append, shownIn_terms,
      shownIn_entries book rest]
  | ⟨terms, some ⟨d, _, text, _, _, blocks, _⟩⟩ :: rest => by
    have hblocks := shownIn_blocks book (some d.asParent) blocks
    have hrest := shownIn_entries book rest
    simp only [sightsOfEntries, shownEntries, shownIn_append, shownIn_cons, shownIn_terms,
      Sight.shown_text, Sight.shown_description, List.nil_append, List.append_assoc, hblocks, hrest]

theorem shownIn_table (book : Bool) (parent : Parent) : ∀ table : Option (Table Node),
    shownIn (sightsOfTable book parent table) = shownTable book parent table
  | none => rfl
  | some ⟨_, head, body, foot⟩ => by
    simp only [sightsOfTable, shownTable, shownIn_append, shownIn_rows book parent true head,
      shownIn_rows book parent false body, shownIn_rows book parent false foot]

theorem shownIn_rows (book : Bool) (parent : Parent) (head : Bool) :
    ∀ rows : List (List (Cell Node)),
      shownIn (sightsOfRows book parent head rows) = shownRows book parent head rows
  | [] => rfl
  | r :: rs => by
    simp only [sightsOfRows, shownRows, shownIn_append, shownIn_row book parent head r,
      shownIn_rows book parent head rs]

theorem shownIn_row (book : Bool) (parent : Parent) (head : Bool) : ∀ row : List (Cell Node),
    shownIn (sightsOfRow book parent head row) = shownRow book parent head row
  | [] => rfl
  | ⟨style, paragraphs, blocks, source, _, _, _, _⟩ :: cs => by
    have hblocks := shownIn_blocks book (some parent) blocks
    have hrest := shownIn_row book parent head cs
    cases head <;> cases style <;> cases source <;>
      simp [sightsOfRow, shownRow, shownIn_append, shownIn_paragraphs, hblocks, hrest]

end

end Node

/-! ### Marks in pages -/

/-- A highlighter that keeps the marks of footnotes in the listings it is given. -/
def Highlighter.KeepsMarks (h : Highlighter) : Prop :=
  ∀ (n : Node) (lang : Option String) (content : Markup) (style : ListingStyle),
    numeralsIn (h.format n lang content style) = numeralsIn content

theorem CodeTags.numeralsIn_wrap (tags : CodeTags) (content : Markup) :
    numeralsIn (tags.wrap content) = numeralsIn content := by
  rw [← read_numerals, ← read_numerals]
  simp [wrap]

theorem HighlightJs.keepsMarks : highlighter.KeepsMarks := fun _ _ _ _ =>
  CodeTags.numeralsIn_wrap _ _

def Scene.KeepsMarks (s : Scene) : Prop := ∀ h, s.highlighter = some h → h.KeepsMarks

variable {s : Scene}

/-- References borrow no marks: words are borrowed without their anchors. -/
theorem wording_silent (ns : List Node) :
    Wording.Silent .numerals (Reference.wording s) ns := by
  intro n _ _
  refine List.eq_nil_iff_forall_not_mem.2 fun x hx => ?_
  obtain ⟨t, _, hx⟩ := Reference.mem_wordsFor hx
  obtain ⟨d, _, hx⟩ := List.mem_flatMap.1 hx
  rw [NodeData.read_lent_numerals] at hx
  exact absurd hx List.not_mem_nil

theorem numerals_text (ns : Option Inlines) :
    IdReading.numerals.text s ns = numeralsOf (Node.shownOpt ns) := by
  rw [IdReading.text, runningText, read_shownText (wording_silent _), numeralsOf,
    show NodeData.read .numerals = NodeData.numerals from funext NodeData.read_numerals]

theorem Sight.read_shown (hs : s.KeepsMarks) (x : Sight) :
    x.read .numerals s = numeralsOf x.shown := by
  cases x with
  | text ns => exact numerals_text ns
  | equation n =>
    have hsplit : ∀ style m, IdReading.numerals.read (equations style m) =
        IdReading.numerals.read m := by
      intro style m
      simp only [equations, IdReading.read_delimit]
      split
      · rename_i h
        subst h
        exact IdReading.read_split _ keepsSplit_numerals m
      · rfl
    rw [Sight.read_equation, IdReading.equation, hsplit, Block.read_verbatim]
    exact numerals_text n.text
  | listing n =>
    have hbody : ∀ content, IdReading.numerals.read (listingBody s n content) =
        IdReading.numerals.read content := by
      intro content
      simp only [listingBody]
      split
      · split
        · rename_i h hh
          rw [read_numerals, read_numerals]
          exact hs h hh n _ content _
        · simp [plainSource]
      · simp [preformatted]
    rw [Sight.read_listing, IdReading.listing, hbody, Block.read_verbatim]
    exact numerals_text n.text
  | block parent n =>
    rw [Sight.read_block]
    split <;> rfl
  | _ => rfl

/-- The marks in the body of a page are those of the inline nodes shown there. -/
theorem Page.numeralsIn_pageBody (hs : s.KeepsMarks) : numeralsIn (Page.body s).value =
    numeralsOf (Node.shownBlocks (isBook s) (some s.doc.root.data.asParent) s.doc.root.blocks) := by
  have hread : Sight.read .numerals s = fun x => numeralsOf x.shown := funext (Sight.read_shown hs)
  rw [← read_numerals, read_body, readSights, hread, ← Node.shownIn_blocks, numeralsOf,
    Node.shownIn, List.flatMap_assoc]
  rfl

end DocPress
