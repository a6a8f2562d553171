import DocPress.Page.Basic
import DocPress.Proofs.IdsBlocks
import DocPress.Proofs.Walk

/-! What a page shows of a tree: the places that blocks, items, terms and descriptions take, and the
texts between them, in the order of the page. What is read off the ids of a page is read off these
sights one after the other, and each sight stands for nodes of the tree in document order. -/

namespace DocPress

set_option autoImplicit false

open Block

/-- A place on a page, with the node that takes it, or a text that is shown there. -/
inductive Sight where
  | block (parent : Option Parent) (n : Node)
  | item (n : Node)
  | calloutItem (n : Node)
  | term (n : Node)
  | description (n : Node)
  | text (ns : Option Inlines)
  | equation (n : Node)
  | listing (n : Node)

/-- Whether the kind of a block has a place for its id. An abstract or the introduction of a part
has none where it is left out. -/
def NodeData.showsId (book : Bool) (parent : Option Parent) (d : NodeData) : Bool :=
  match d.kind with
  | .document | .preamble | .pass | .pageBreak | .thematicBreak | .listItem => false
  | .openBlock => !d.isLeftOut book parent
  | kind => !kind.isInline

namespace Sight

/-- The node that takes the place. -/
def node? : Sight → Option Node
  | .block _ n => some n
  | .item n => some n
  | .calloutItem n => some n
  | .term n => some n
  | .description n => some n
  | _ => none

/-- Whether there is a place for an id: blocks have it by their kind, items by that of their
list. -/
def showsId (book : Bool) : Sight → Bool
  | .block parent n => n.data.showsId book parent
  | .item _ => true
  | _ => false

/-- The node whose id stands at this place. -/
def landing? (book : Bool) (x : Sight) : Option Node := if x.showsId book then x.node? else none

/-- What is read off a place or a text. -/
def read {α : Type} (r : IdReading α) (s : Scene) : Sight → List α
  | .text ns => r.text s ns
  | .equation n => r.equation s n
  | .listing n => r.listing s n
  | x => ((x.landing? (isBook s)).map fun n => r.ofIds n.data.idValues).getD []

/-- The nodes of the tree that a sight stands for, with all below a text. -/
def nodes : Sight → List Node
  | .block _ n => [n]
  | .item n => [n]
  | .calloutItem n => [n]
  | .term n => [n]
  | .description n => [n]
  | .text ns => Node.walkOpt ns
  | .equation n => Node.walkOpt n.text
  | .listing n => Node.walkOpt n.text

end Sight

namespace Node

def sightsOfTerms (terms : List Node) : List Sight := terms.flatMap fun t => [.term t, .text t.text]

mutual

/-- What a page shows of a block by the rules of its kind. -/
def sights (book : Bool) (parent : Option Parent) : Node → List Sight
  | ⟨d, title, text, items, entries, blocks, table⟩ =>
    let n : Node := ⟨d, title, text, items, entries, blocks, table⟩
    .block parent n ::
      match d.kind with
      | .document | .preamble => sightsOfContent book d text blocks
      | .section | .paragraph | .admonition | .exampleBlock | .quote | .sidebar =>
        .text title :: sightsOfContent book d text blocks
      | .openBlock =>
        if d.isLeftOut book parent then [] else .text title :: sightsOfContent book d text blocks
      | .pass =>
        if d.source.isSome && blocks.isEmpty then [] else sightsOfContent book d text blocks
      | .literal | .verse => [.text title, .text text]
      | .listing => [.text title, .listing n]
      | .stem => [.text title, .equation n]
      | .audio | .floatingTitle | .image | .video => [.text title]
      | .colist => .text title :: sightsOfItems book .calloutItem items
      | .olist | .ulist => .text title :: sightsOfItems book .item items
      | .dlist => .text title :: sightsOfEntries book entries
      | .table => .text title :: sightsOfTable book d.asParent table
      | .listItem => .text text :: sightsOf book (some d.asParent) blocks
      | _ => []

def sightsOf (book : Bool) (parent : Option Parent) : List Node → List Sight
  | [] => []
  | n :: ns => sights book parent n ++ sightsOf book parent ns

/-- Blocks are shown in the place of a text. -/
def sightsOfContent (book : Bool) (d : NodeData) (text : Option (List Node)) :
    List Node → List Sight
  | [] => [.text text]
  | b :: bs => sights book (some d.asParent) b ++ sightsOf book (some d.asParent) bs

/-- Each item takes a place of the kind of its list. -/
def sightsOfItems (book : Bool) (place : Node → Sight) : List Node → List Sight
  | [] => []
  | ⟨d, title, text, items, entries, blocks, table⟩ :: rest =>
    place ⟨d, title, text, items, entries, blocks, table⟩ :: .text text ::
      (sightsOf book (some d.asParent) blocks ++ sightsOfItems book place rest)

def sightsOfEntries (book : Bool) : List (Entry Node) → List Sight
  | [] => []
  | ⟨terms, none⟩ :: rest => sightsOfTerms terms ++ sightsOfEntries book rest
  | ⟨terms, some ⟨d, title, text, items, entries, blocks, table⟩⟩ :: rest =>
    sightsOfTerms terms ++ .description ⟨d, title, text, items, entries, blocks, table⟩ ::
      .text text :: (sightsOf book (some d.asParent) blocks ++ sightsOfEntries book rest)

def sightsOfTable (book : Bool) (parent : Parent) : Option (Table Node) → List Sight
  | none => []
  | some ⟨_, head, body, foot⟩ => sightsOfRows book parent true head ++
      sightsOfRows book parent false body ++ sightsOfRows book parent false foot

def sightsOfRows (book : Bool) (parent : Parent) (head : Bool) :
    List (List (Cell Node)) → List Sight
  | [] => []
  | r :: rs => sightsOfRow book parent head r ++ sightsOfRows book parent head rs

/-- A cell shows its blocks or its paragraphs, and a literal one its source if it has one. -/
def sightsOfRow (book : Bool) (parent : Parent) (head : Bool) : List (Cell Node) → List Sight
  | [] => []
  | ⟨style, paragraphs, blocks, source, _, _, _, _⟩ :: cs =>
    (match head, style, source with
      | false, .asciidoc, _ => sightsOf book (some parent) blocks
      | false, .literal, some _ => []
      | _, _, _ => paragraphs.map fun p => .text (some p)) ++ sightsOfRow book parent head cs

end

end Node

/-! ### Readings of blocks -/

section

variable {α : Type} (r : IdReading α) {s : Scene}

def readSights (s : Scene) (xs : List Sight) : List α := xs.flatMap (Sight.read r s)

@[simp] theorem readSights_nil : readSights r s [] = [] := rfl

@[simp] theorem readSights_cons (x : Sight) (xs : List Sight) :
    readSights r s (x :: xs) = x.read r s ++ readSights r s xs := rfl

@[simp] theorem readSights_append (a b : List Sight) :
    readSights r s (a ++ b) = readSights r s a ++ readSights r s b := List.flatMap_append

namespace Sight

@[simp] theorem read_item (n : Node) : (item n).read r s = r.ofIds n.data.idValues := rfl

@[simp] theorem read_calloutItem (n : Node) : (calloutItem n).read r s = [] := rfl

@[simp] theorem read_term (n : Node) : (term n).read r s = [] := rfl

@[simp] theorem read_description (n : Node) : (description n).read r s = [] := rfl

@[simp] theorem read_text (ns : Option Inlines) : (text ns).read r s = r.text s ns := rfl

@[simp] theorem read_equation (n : Node) : (equation n).read r s = r.equation s n := rfl

@[simp] theorem read_listing (n : Node) : (listing n).read r s = r.listing s n := rfl

theorem read_block (parent : Option Parent) (n : Node) : (block parent n).read r s =
    if n.data.showsId (isBook s) parent then r.ofIds n.data.idValues else [] := by
  cases h : n.data.showsId (isBook s) parent <;> simp [read, landing?, showsId, node?, h]

end Sight

theorem readSights_terms (terms : List Node) :
    readSights r s (Node.sightsOfTerms terms) = terms.flatMap fun t => r.text s t.text := by
  rw [readSights, Node.sightsOfTerms, List.flatMap_assoc]
  simp

theorem readSights_paragraphs (paragraphs : List Inlines) :
    readSights r s (paragraphs.map fun p => .text (some p)) =
      paragraphs.flatMap fun p => r.text s (some p) := by
  rw [readSights, List.flatMap_map]
  rfl

/-- What is read off a node by the rules of its kind, once that of its parts is known. -/
theorem read_block_of (parent : Option Parent) {n : Node}
    (hcontent : r.read (content s n.data n.text n.blocks).value =
      readSights r s (Node.sightsOfContent (isBook s) n.data n.text n.blocks))
    (hitems : ((itemsOf s n.items).flatMap fun i => r.ofIds i.data.idValues ++ i.read r s) =
      readSights r s (Node.sightsOfItems (isBook s) .item n.items))
    (hcallouts : (itemsOf s n.items).flatMap (Item.read r s) =
      readSights r s (Node.sightsOfItems (isBook s) .calloutItem n.items))
    (hgroups : (groupsOf s n.entries).flatMap (Group.read r s) =
      readSights r s (Node.sightsOfEntries (isBook s) n.entries))
    (hgrid : ((gridOf s n.data.asParent n.table).map (Grid.read r s)).getD [] =
      readSights r s (Node.sightsOfTable (isBook s) n.data.asParent n.table))
    (hblocks : ((blocksOf? s n.data.asParent n.blocks).map fun b => r.read b.value).getD [] =
      readSights r s (Node.sightsOf (isBook s) (some n.data.asParent) n.blocks)) :
    r.read (blockAs s n.data.kind parent n).value =
      readSights r s (n.sights (isBook s) parent) := by
  obtain ⟨d, title, text, items, entries, blocks, table⟩ := n
  simp only at hcontent hitems hcallouts hgroups hgrid hblocks
  change r.read (blockAs s d.kind parent _).value = _
  cases hk : d.kind
  -- These three look at more than the kind: a source, the place of a block, and two parts at once.
  case pass =>
    unfold blockAs
    simp only [Node.sights, hk, readSights_cons, Sight.read_block, NodeData.showsId,
      Bool.false_eq_true, if_false, List.nil_append]
    split
    · rename_i hsource
      simp [hsource]
    · rename_i hother
      rw [hcontent, if_neg]
      intro hsource
      obtain ⟨⟨source, hs⟩, hb⟩ := by simpa [Option.isSome_iff_exists] using hsource
      exact hother source hs hb
  case listItem =>
    simp only [blockAs, Node.sights, hk, Rendered.value_bind, Rendered.value_pure,
      IdReading.read_lines, read_body, Item.read, hblocks, readSights_cons, Sight.read_block,
      NodeData.showsId, Sight.read_text]
    rfl
  case openBlock =>
    simp only [blockAs, Node.sights, hk, read_openBlock, readSights_cons, Sight.read_block,
      NodeData.showsId]
    cases hout : d.isLeftOut (isBook s) parent <;> simp [hcontent]
  all_goals
    simp [blockAs, Node.sights, hk, hcontent, hitems, hcallouts, hgroups, hgrid, Rendered.warn,
      Sight.read_block, NodeData.showsId, Kind.isInline, read_sectionBlock, read_paragraph,
      read_admonition, read_audio, read_calloutList, read_descriptionList, read_exampleBlock,
      read_floatingTitle, read_image, read_listing, read_literalBlock, read_stem,
      read_orderedList, read_quote, read_sidebar, read_table, read_unorderedList, read_verse,
      read_video]

mutual

theorem read_block : ∀ (n : Node) (parent : Option Parent),
    r.read (blockAs s n.data.kind parent n).value = readSights r s (n.sights (isBook s) parent)
  | ⟨d, _, text, items, entries, blocks, table⟩, parent =>
    -- The recursion is that of the renderer, with a theorem for each kind of nesting.
    read_block_of r parent (read_content d text blocks)
      (read_itemsOf (fun d => r.ofIds d.idValues) (fun _ => rfl) items)
      (read_itemsOf (fun _ => []) (fun _ => rfl) items) (read_groupsOf entries)
      (read_gridOf d.asParent table) (read_blocksOf? d.asParent blocks)

theorem read_siblings (parent : Option Parent) : ∀ ns : List Node,
    (siblings s parent ns).value.flatMap r.read =
      readSights r s (Node.sightsOf (isBook s) parent ns)
  | [] => rfl
  | n :: ns => by
    simp only [siblings, Rendered.value_bind, Rendered.value_pure, List.flatMap_cons,
      Node.sightsOf, readSights_append, read_block n parent, read_siblings parent ns]

theorem read_content (d : NodeData) (text : Option (List Node)) : ∀ blocks : List Node,
    r.read (content s d text blocks).value =
      readSights r s (Node.sightsOfContent (isBook s) d text blocks)
  | [] => by
    cases text with
    | none =>
      simp [content, inlineContent, Node.sightsOfContent, IdReading.text, runningText, inlines]
    | some ns => simp [content, inlineContent, Node.sightsOfContent, IdReading.text, runningText]
  | b :: bs => by
    simp only [content, Rendered.value_bind, Rendered.value_pure, r.read_lines,
      List.flatMap_cons, Node.sightsOfContent, readSights_append,
      read_block b (some d.asParent), read_siblings (some d.asParent) bs]

theorem read_blocksOf? (parent : Parent) : ∀ blocks : List Node,
    ((blocksOf? s parent blocks).map fun b => r.read b.value).getD [] =
      readSights r s (Node.sightsOf (isBook s) (some parent) blocks)
  | [] => rfl
  | b :: bs => by
    simp only [blocksOf?, Option.map_some, Option.getD_some, Rendered.value_bind,
      Rendered.value_pure, r.read_lines, List.flatMap_cons, Node.sightsOf,
      readSights_append, read_block b (some parent), read_siblings (some parent) bs]

/-- What is read off items, in lists where it is `own` at their places. -/
theorem read_itemsOf (own : NodeData → List α) {place : Node → Sight}
    (hplace : ∀ n, (place n).read r s = own n.data) : ∀ items : List Node,
    ((itemsOf s items).flatMap fun i => own i.data ++ i.read r s) =
      readSights r s (Node.sightsOfItems (isBook s) place items)
  | [] => rfl
  | ⟨d, _, text, _, _, blocks, _⟩ :: rest => by
    simp only [itemsOf, List.flatMap_cons, Item.read, Node.sightsOfItems, readSights_cons,
      readSights_append, hplace, Sight.read_text, List.append_assoc,
      read_blocksOf? d.asParent blocks, ← read_itemsOf own hplace rest]

theorem read_groupsOf : ∀ entries : List (Entry Node),
    (groupsOf s entries).flatMap (Group.read r s) =
      readSights r s (Node.sightsOfEntries (isBook s) entries)
  | [] => rfl
  | ⟨terms, none⟩ :: rest => by
    simp only [groupsOf, List.flatMap_cons, Group.read, Option.map_none, Option.getD_none,
      List.append_nil, Node.sightsOfEntries, readSights_append, readSights_terms,
      read_groupsOf rest]
  | ⟨terms, some ⟨d, _, text, _, _, blocks, _⟩⟩ :: rest => by
    simp only [groupsOf, List.flatMap_cons, Group.read, Option.map_some, Option.getD_some,
      Item.read, Node.sightsOfEntries, readSights_append, readSights_cons, readSights_terms,
      Sight.read_description, Sight.read_text, List.nil_append, List.append_assoc,
      read_blocksOf? d.asParent blocks, read_groupsOf rest]

theorem read_gridOf (parent : Parent) : ∀ table : Option (Table Node),
    ((gridOf s parent table).map (Grid.read r s)).getD [] =
      readSights r s (Node.sightsOfTable (isBook s) parent table)
  | none => rfl
  | some ⟨_, head, body, foot⟩ => by
    simp only [gridOf, Option.map_some, Option.getD_some, Grid.read, Node.sightsOfTable,
      readSights_append, read_rowsOf parent true head, read_rowsOf parent false body,
      read_rowsOf parent false foot]

theorem read_rowsOf (parent : Parent) (head : Bool) : ∀ rows : List (List (Cell Node)),
    rowsRead r s head (rowsOf s parent rows) =
      readSights r s (Node.sightsOfRows (isBook s) parent head rows)
  | [] => rfl
  | r :: rs => by
    have hrest := read_rowsOf parent head rs
    simp only [rowsRead] at hrest
    simp only [rowsOf, rowsRead, List.flatMap_cons, Node.sightsOfRows, readSights_append,
      read_rowOf parent head r, hrest]

theorem read_rowOf (parent : Parent) (head : Bool) : ∀ row : List (Cell Node),
    (rowOf s parent row).flatMap (RenderedCell.read r s head) =
      readSights r s (Node.sightsOfRow (isBook s) parent head row)
  | [] => rfl
  | ⟨style, paragraphs, blocks, source, _, _, _, _⟩ :: cs => by
    have hblocks := read_siblings (some parent) blocks
    have hrest := read_rowOf parent head cs
    -- Which part is shown is up to the row group, the style and the source, as in the renderer.
    cases head <;> cases style <;> cases source <;>
      simp [rowOf, RenderedCell.read, Node.sightsOfRow, hblocks, hrest, readSights_paragraphs]

end

end

/-! ### The nodes of sights -/

def sightNodes (xs : List Sight) : List Node := xs.flatMap Sight.nodes

/-- Whether sights stand for some of the nodes, in their order, and a listing for a listing. -/
structure Covered (xs : List Sight) (ns : List Node) : Prop where
  nodes : (sightNodes xs).Sublist ns
  listing : ∀ n, .listing n ∈ xs → n.kind = .listing ∧ n ∈ ns

namespace Covered

variable {xs ys : List Sight} {ms ns : List Node}

theorem nil (ns : List Node) : Covered [] ns := ⟨List.nil_sublist ns, nofun⟩

theorem append (hx : Covered xs ms) (hy : Covered ys ns) : Covered (xs ++ ys) (ms ++ ns) where
  nodes := by
    rw [sightNodes, List.flatMap_append]
    exact hx.nodes.append hy.nodes
  listing n hn := by
    rcases List.mem_append.1 hn with hn | hn
    · exact (hx.listing n hn).imp_right (List.mem_append_left _)
    · exact (hy.listing n hn).imp_right (List.mem_append_right _)

theorem within (hx : Covered xs ms) (h : ms.Sublist ns) : Covered xs ns where
  nodes := hx.nodes.trans h
  listing n hn := (hx.listing n hn).imp_right fun hm => h.subset hm

theorem text (ns : Option Inlines) : Covered [.text ns] (Node.walkOpt ns) where
  nodes := by simp [sightNodes, Sight.nodes]
  listing n hn := by simp at hn

theorem own {x : Sight} {n : Node} (h : x.node? = some n) : Covered [x] [n] := by
  cases x with
  | text _ => cases h
  | equation _ => cases h
  | listing _ => cases h
  | _ =>
    obtain rfl := Option.some.inj h
    exact ⟨List.Sublist.refl _, fun m hm => by simp at hm⟩

theorem paragraphs (ps : List Inlines) :
    Covered (ps.map fun p => .text (some p)) (Node.walkParagraphs ps) := by
  induction ps with
  | nil => exact nil _
  | cons p ps ih => exact (text (some p)).append ih

/-- The place of a node before those of its parts. -/
theorem parts {x : Sight} {n : Node} (h : x.node? = some n) {a b c d e f : List Sight}
    (ha : Covered a (Node.walkOpt n.title)) (hb : Covered b (Node.walkOpt n.text))
    (hc : Covered c (Node.walkAll n.items)) (hd : Covered d (Node.walkEntries n.entries))
    (he : Covered e (Node.walkAll n.blocks)) (hf : Covered f (Node.walkTable n.table)) :
    Covered (x :: (a ++ (b ++ (c ++ (d ++ (e ++ f)))))) n.walk := by
  have hall := (own h).append (ha.append (hb.append (hc.append (hd.append (he.append hf)))))
  rw [Node.walk_eq]
  simpa using hall

/-- The place of an item, a term or a description, its text, and its blocks. -/
theorem item {x : Sight} {n : Node} (h : x.node? = some n) {e : List Sight}
    (he : Covered e (Node.walkAll n.blocks)) : Covered (x :: .text n.text :: e) n.walk := by
  have hall := parts h (nil _) (text n.text) (nil _) (nil _) he (nil _)
  simpa using hall

end Covered

namespace Node

theorem terms_covered (terms : List Node) : Covered (sightsOfTerms terms) (walkAll terms) := by
  induction terms with
  | nil => exact .nil _
  | cons t ts ih =>
    have ht : Covered [.term t, .text t.text] t.walk := .item rfl (.nil _)
    exact ht.append ih

/-- A node is covered by the rules of its kind, once its parts are. -/
theorem sights_covered_of {book : Bool} (parent : Option Parent) {n : Node}
    (hcontent : ∃ a b, sightsOfContent book n.data n.text n.blocks = a ++ b ∧
      Covered a (walkOpt n.text) ∧ Covered b (walkAll n.blocks))
    (hitems : Covered (sightsOfItems book .item n.items) (walkAll n.items))
    (hcallouts : Covered (sightsOfItems book .calloutItem n.items) (walkAll n.items))
    (hentries : Covered (sightsOfEntries book n.entries) (walkEntries n.entries))
    (htable : Covered (sightsOfTable book n.data.asParent n.table) (walkTable n.table))
    (hblocks : Covered (sightsOf book (some n.data.asParent) n.blocks) (walkAll n.blocks)) :
    Covered (n.sights book parent) n.walk := by
  obtain ⟨a, b, hab, ha, hb⟩ := hcontent
  have hself : (Sight.block parent n).node? = some n := rfl
  have title := Covered.text n.title
  have text := Covered.text n.text
  have alone := Covered.parts hself (.nil _) (.nil _) (.nil _) (.nil _) (.nil _) (.nil _)
  have titled := Covered.parts hself title (.nil _) (.nil _) (.nil _) (.nil _) (.nil _)
  have content := Covered.parts hself (.nil _) ha (.nil _) (.nil _) hb (.nil _)
  have titledContent := Covered.parts hself title ha (.nil _) (.nil _) hb (.nil _)
  have titledText := Covered.parts hself title text (.nil _) (.nil _) (.nil _) (.nil _)
  have items := Covered.parts hself title (.nil _) hitems (.nil _) (.nil _) (.nil _)
  have callouts := Covered.parts hself title (.nil _) hcallouts (.nil _) (.nil _) (.nil _)
  have entries := Covered.parts hself title (.nil _) (.nil _) hentries (.nil _) (.nil _)
  have table := Covered.parts hself title (.nil _) (.nil _) (.nil _) (.nil _) htable
  have item := Covered.parts hself (.nil _) text (.nil _) (.nil _) hblocks (.nil _)
  -- What stands in place of the text of a listing or an equation is covered by that text.
  have equation : Covered [.block parent n, .text n.title, .equation n] n.walk :=
    ⟨by simpa [sightNodes, Sight.nodes] using titledText.nodes, fun m hm => by simp at hm⟩
  have listing : n.kind = .listing →
      Covered [.block parent n, .text n.title, .listing n] n.walk := by
    intro hk
    refine ⟨by simpa [sightNodes, Sight.nodes] using titledText.nodes, fun m hm => ?_⟩
    obtain rfl : m = n := by simpa using hm
    exact ⟨hk, mem_walk_self m⟩
  obtain ⟨d, _, _, _, _, blocks, _⟩ := n
  change d.kind = .listing → _ at listing
  cases hk : d.kind
  case pass =>
    simp only [sights, hk]
    split <;> simp_all
  case openBlock =>
    simp only [sights, hk]
    split <;> simp_all
  all_goals
    simp_all [sights]

mutual

theorem sights_covered {book : Bool} : ∀ (n : Node) (parent : Option Parent),
    Covered (n.sights book parent) n.walk
  | ⟨d, _, text, items, entries, blocks, table⟩, parent =>
    sights_covered_of parent (content_covered d text blocks) (items_covered (fun _ => rfl) items)
      (items_covered (fun _ => rfl) items) (entries_covered entries)
      (table_covered d.asParent table) (sightsOf_covered (some d.asParent) blocks)

theorem sightsOf_covered {book : Bool} (parent : Option Parent) : ∀ ns : List Node,
    Covered (sightsOf book parent ns) (walkAll ns)
  | [] => .nil _
  | n :: ns => (sights_covered n parent).append (sightsOf_covered parent ns)

theorem content_covered {book : Bool} (d : NodeData) (text : Option (List Node)) :
    ∀ blocks : List Node, ∃ a b, sightsOfContent book d text blocks = a ++ b ∧
      Covered a (walkOpt text) ∧ Covered b (walkAll blocks)
  | [] => ⟨[.text text], [], rfl, .text text, .nil _⟩
  | b :: bs => ⟨[], _, rfl, .nil _,
      (sights_covered b (some d.asParent)).append (sightsOf_covered (some d.asParent) bs)⟩

theorem items_covered {book : Bool} {place : Node → Sight}
    (hplace : ∀ n, (place n).node? = some n) : ∀ items : List Node,
    Covered (sightsOfItems book place items) (walkAll items)
  | [] => .nil _
  | ⟨d, title, text, items, entries, blocks, table⟩ :: rest => by
    have hitem := Covered.item (hplace ⟨d, title, text, items, entries, blocks, table⟩)
      (@sightsOf_covered book (some d.asParent) blocks)
    exact hitem.append (items_covered hplace rest)

theorem entries_covered {book : Bool} : ∀ entries : List (Entry Node),
    Covered (sightsOfEntries book entries) (walkEntries entries)
  | [] => .nil _
  | ⟨terms, none⟩ :: rest => (terms_covered terms).append (entries_covered rest)
  | ⟨terms, some ⟨d, title, text, items, entries, blocks, table⟩⟩ :: rest => by
    let description : Node := ⟨d, title, text, items, entries, blocks, table⟩
    have hdescription := Covered.item (x := .description description) (n := description) rfl
      (@sightsOf_covered book (some d.asParent) blocks)
    rw [walkEntries, List.append_assoc]
    exact (terms_covered terms).append (hdescription.append (entries_covered rest))

theorem table_covered {book : Bool} (parent : Parent) : ∀ table : Option (Table Node),
    Covered (sightsOfTable book parent table) (walkTable table)
  | none => .nil _
  | some ⟨_, head, body, foot⟩ =>
    ((rows_covered parent true head).append (rows_covered parent false body)).append
      (rows_covered parent false foot)

theorem rows_covered {book : Bool} (parent : Parent) (head : Bool) :
    ∀ rows : List (List (Cell Node)), Covered (sightsOfRows book parent head rows) (walkRows rows)
  | [] => .nil _
  | r :: rs => (row_covered parent head r).append (rows_covered parent head rs)

theorem row_covered {book : Bool} (parent : Parent) (head : Bool) : ∀ row : List (Cell Node),
    Covered (sightsOfRow book parent head row) (walkRow row)
  | [] => .nil _
  | ⟨style, paragraphs, blocks, source, _, _, _, _⟩ :: cs => by
    have hrest := @row_covered book parent head cs
    have hshown := fun (shown : List Sight)
      (h : Covered shown (walkParagraphs paragraphs ++ walkAll blocks)) => h.append hrest
    have hasciidoc := hshown _ ((@sightsOf_covered book (some parent) blocks).within
      (List.sublist_append_right _ _))
    have hplain := hshown _ ((Covered.paragraphs paragraphs).within (List.sublist_append_left _ _))
    have hliteral := hshown [] (.nil _)
    cases head <;> cases style <;> cases source <;> simp_all [sightsOfRow, walkRow]

end

end Node

/-! ### Pages -/

/-- What a page shows of the blocks of a document. -/
def Document.sights (d : Document) : List Sight :=
  Node.sightsOf (d.doctype == "book") (some d.root.data.asParent) d.root.blocks

theorem Document.sights_covered (d : Document) : Covered d.sights (Node.walkAll d.root.blocks) :=
  Node.sightsOf_covered _ _

theorem Sight.mem_nodes {x : Sight} {n : Node} (h : x.node? = some n) : n ∈ x.nodes := by
  cases x with
  | text _ => cases h
  | equation _ => cases h
  | listing _ => cases h
  | _ =>
    obtain rfl := Option.some.inj h
    exact List.mem_singleton_self _

theorem Sight.node?_of_landing? {book : Bool} {x : Sight} {n : Node}
    (h : x.landing? book = some n) : x.node? = some n := by
  unfold landing? at h
  split at h
  · exact h
  · cases h

theorem Document.mem_walk_of_sight {d : Document} {x : Sight} (hx : x ∈ d.sights) {n : Node}
    (h : x.node? = some n) : n ∈ d.root.walk := by
  have hblocks : n ∈ Node.walkAll d.root.blocks :=
    d.sights_covered.nodes.subset (List.mem_flatMap.2 ⟨x, hx, Sight.mem_nodes h⟩)
  rw [Node.walk_eq]
  simp [hblocks]

namespace Page

variable {α : Type} (r : IdReading α) (s : Scene)

theorem read_body : r.read (body s).value = readSights r s s.doc.sights := by
  simp only [body, blocksIn, Rendered.value_bind, Rendered.value_pure, r.read_lines,
    read_siblings]
  rfl

/-- What is read off the title that stands above the content of a page, if it is shown. -/
def readTitle : List α :=
  match s.doc.title? with
  | some title =>
    if s.hasAttr "showtitle" && !s.hasAttr "notitle" then
      r.ofIds s.doc.root.data.idValues ++ r.text s (some title)
    else []
  | none => []

/-- What is read off a page is read off its title and off what it shows of the blocks. -/
theorem read_embedded :
    r.read (embedded s).value = readTitle r s ++ readSights r s s.doc.sights := by
  cases ht : s.doc.title? with
  | none => simp [embedded, readTitle, ht, read_body]
  | some title =>
    by_cases hshown : (s.hasAttr "showtitle" && !s.hasAttr "notitle") = true <;>
      simp [embedded, readTitle, ht, hshown, read_body, IdReading.text]

end Page

end DocPress
