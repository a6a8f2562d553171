import DocPress.Proofs.Sights
import DocPress.Proofs.Tally

/-! The count of a page is the sum over what it shows. A block adds something of its own only where
it is left out, is an image, stands where no block should, or is a section whose heading is made a
link. -/

namespace DocPress

set_option autoImplicit false

open Block

variable (t : Tally) {s : Scene}

/-- What the rules of its kind add for a block itself. -/
def Tally.own (s : Scene) (parent : Option Parent) (n : Node) : Nat :=
  match n.data.kind with
  | .section => t.inner * wrapped s n
  | .openBlock =>
    if n.data.isLeftOut (isBook s) parent then (t.counted (leftOutWarning n.data)).toNat else 0
  | .image => (Inline.picture s n.data (dimensions n.data)).warnings.countP t.counted
  | kind => if kind.isInline then (t.counted (.inlineAmongBlocks kind)).toNat else 0

namespace Sight

/-- The count of a place or a text. -/
def tally (s : Scene) : Sight → Nat
  | .block parent n => t.own s parent n
  | .text ns => t.text s ns
  | .equation n => t.text s n.text
  | .listing n => t.listing s n
  | _ => 0

@[simp] theorem tally_block (parent : Option Parent) (n : Node) :
    (block parent n).tally t s = t.own s parent n := rfl

@[simp] theorem tally_text (ns : Option Inlines) : (text ns).tally t s = t.text s ns := rfl

@[simp] theorem tally_equation (n : Node) : (equation n).tally t s = t.text s n.text := rfl

@[simp] theorem tally_listing (n : Node) : (listing n).tally t s = t.listing s n := rfl

@[simp] theorem tally_term (n : Node) : (term n).tally t s = 0 := rfl

@[simp] theorem tally_description (n : Node) : (description n).tally t s = 0 := rfl

end Sight

def sightsTally (s : Scene) (xs : List Sight) : Nat := (xs.map (Sight.tally t s)).sum

@[simp] theorem sightsTally_nil : sightsTally t s [] = 0 := rfl

@[simp] theorem sightsTally_cons (x : Sight) (xs : List Sight) :
    sightsTally t s (x :: xs) = x.tally t s + sightsTally t s xs := by
  simp [sightsTally]

@[simp] theorem sightsTally_append (a b : List Sight) :
    sightsTally t s (a ++ b) = sightsTally t s a + sightsTally t s b := by
  simp [sightsTally]

theorem sightsTally_terms (terms : List Node) :
    sightsTally t s (Node.sightsOfTerms terms) =
      (terms.map fun term => t.text s term.text).sum := by
  induction terms with
  | nil => rfl
  | cons term terms ih =>
    have hcons : Node.sightsOfTerms (term :: terms) =
        .term term :: .text term.text :: Node.sightsOfTerms terms := rfl
    simp [hcons, ih]

theorem sightsTally_paragraphs (paragraphs : List Inlines) :
    sightsTally t s (paragraphs.map fun p => .text (some p)) =
      (paragraphs.map fun p => t.text s (some p)).sum := by
  rw [sightsTally, List.map_map]
  rfl

/-- The count of a node by the rules of its kind, once that of its parts is known. -/
theorem tally_block_of (parent : Option Parent) {n : Node}
    (hcontent : t.of (content s n.data n.text n.blocks) =
      sightsTally t s (Node.sightsOfContent (isBook s) n.data n.text n.blocks))
    (hitems : ∀ place : Node → Sight, (∀ m, (place m).tally t s = 0) →
      ((itemsOf s n.items).map (Item.tally t s)).sum =
        sightsTally t s (Node.sightsOfItems (isBook s) place n.items))
    (hgroups : ((groupsOf s n.entries).map (Group.tally t s)).sum =
      sightsTally t s (Node.sightsOfEntries (isBook s) n.entries))
    (hgrid : ((gridOf s n.data.asParent n.table).map (Grid.tally t s)).getD 0 =
      sightsTally t s (Node.sightsOfTable (isBook s) n.data.asParent n.table))
    (hblocks : ((blocksOf? s n.data.asParent n.blocks).map t.of).getD 0 =
      sightsTally t s (Node.sightsOf (isBook s) (some n.data.asParent) n.blocks)) :
    t.of (blockAs s n.data.kind parent n) = sightsTally t s (n.sights (isBook s) parent) := by
  have hordered := hitems .item fun _ => rfl
  have hcallouts := hitems .calloutItem fun _ => rfl
  obtain ⟨d, title, text, items, entries, blocks, table⟩ := n
  simp only at hcontent hordered hcallouts hgroups hgrid hblocks
  change t.of (blockAs s d.kind parent _) = _
  cases hk : d.kind
  -- These three look at more than the kind: a source, the place of a block, and two parts at once.
  case pass =>
    unfold blockAs
    simp only [Node.sights, hk, sightsTally_cons, Sight.tally_block, Tally.own, Kind.isInline,
      Bool.false_eq_true, if_false, Nat.zero_add]
    split
    · rename_i hsource
      simp [hsource, Tally.of]
    · rename_i hother
      rw [hcontent, if_neg]
      intro hsource
      obtain ⟨⟨source, hs⟩, hb⟩ := by simpa [Option.isSome_iff_exists] using hsource
      exact hother source hs hb
  case listItem =>
    have hbody := tally_body (s := s) t ⟨d, text, blocksOf? s d.asParent blocks⟩
    simp only [Tally.lines, Item.tally, hblocks] at hbody
    simp [blockAs, Node.sights, hk, Tally.own, Kind.isInline, Tally.of, hbody]
  case openBlock =>
    simp only [blockAs, Node.sights, hk, tally_openBlock, sightsTally_cons, Sight.tally_block,
      Tally.own]
    cases hout : d.isLeftOut (isBook s) parent <;> simp [hcontent]
  all_goals
    simp [blockAs, Node.sights, hk, Tally.own, Kind.isInline, hcontent, ← hordered, ← hcallouts,
      hgroups, hgrid, tally_sectionBlock, tally_paragraph, tally_admonition, tally_audio,
      tally_calloutList, tally_descriptionList, tally_exampleBlock, tally_floatingTitle,
      tally_image, tally_listing, tally_literalBlock, tally_stem, tally_orderedList, tally_quote,
      tally_sidebar, tally_table, tally_unorderedList, tally_verse, tally_video]

mutual

theorem tally_block : ∀ (n : Node) (parent : Option Parent),
    t.of (blockAs s n.data.kind parent n) = sightsTally t s (n.sights (isBook s) parent)
  | ⟨d, _, text, items, entries, blocks, table⟩, parent =>
    tally_block_of t parent (tally_content d text blocks) (fun _ h => tally_itemsOf h items)
      (tally_groupsOf entries) (tally_gridOf d.asParent table) (tally_blocksOf? d.asParent blocks)

theorem tally_siblings (parent : Option Parent) : ∀ ns : List Node,
    t.lines (siblings s parent ns) = sightsTally t s (Node.sightsOf (isBook s) parent ns)
  | [] => rfl
  | n :: ns => by
    rw [siblings, Tally.lines_cons, tally_block n parent, tally_siblings parent ns, Node.sightsOf,
      sightsTally_append]

theorem tally_content (d : NodeData) (text : Option (List Node)) : ∀ blocks : List Node,
    t.of (content s d text blocks) =
      sightsTally t s (Node.sightsOfContent (isBook s) d text blocks)
  | [] => by
    cases text with
    | none =>
      simp [content, inlineContent, Node.sightsOfContent, Tally.text, Tally.of, runningText,
        inlines]
    | some ns => simp [content, inlineContent, Node.sightsOfContent, Tally.text, runningText]
  | b :: bs => by
    rw [content, Tally.of_lines_cons, tally_block b (some d.asParent),
      tally_siblings (some d.asParent) bs, Node.sightsOfContent, sightsTally_append]

theorem tally_blocksOf? (parent : Parent) : ∀ blocks : List Node,
    ((blocksOf? s parent blocks).map t.of).getD 0 =
      sightsTally t s (Node.sightsOf (isBook s) (some parent) blocks)
  | [] => rfl
  | b :: bs => by
    rw [blocksOf?, Option.map_some, Option.getD_some, Tally.of_lines_cons,
      tally_block b (some parent), tally_siblings (some parent) bs, Node.sightsOf,
      sightsTally_append]

theorem tally_itemsOf {place : Node → Sight} (hplace : ∀ m, (place m).tally t s = 0) :
    ∀ items : List Node, ((itemsOf s items).map (Item.tally t s)).sum =
      sightsTally t s (Node.sightsOfItems (isBook s) place items)
  | [] => rfl
  | ⟨d, _, text, _, _, blocks, _⟩ :: rest => by
    have hblocks := tally_blocksOf? d.asParent blocks
    have hrest := tally_itemsOf hplace rest
    simp only [itemsOf, List.map_cons, List.sum_cons, Item.tally, Node.sightsOfItems,
      sightsTally_cons, sightsTally_append, hplace, Sight.tally_text, hblocks, hrest]
    omega

theorem tally_groupsOf : ∀ entries : List (Entry Node),
    ((groupsOf s entries).map (Group.tally t s)).sum =
      sightsTally t s (Node.sightsOfEntries (isBook s) entries)
  | [] => rfl
  | ⟨terms, none⟩ :: rest => by
    have hrest := tally_groupsOf rest
    simp [groupsOf, Group.tally, Node.sightsOfEntries, sightsTally_terms, hrest]
  | ⟨terms, some ⟨d, _, text, _, _, blocks, _⟩⟩ :: rest => by
    have hblocks := tally_blocksOf? d.asParent blocks
    have hrest := tally_groupsOf rest
    simp only [groupsOf, List.map_cons, List.sum_cons, Group.tally, Option.map_some,
      Option.getD_some, Item.tally, Node.sightsOfEntries, sightsTally_append, sightsTally_cons,
      sightsTally_terms, Sight.tally_description, Sight.tally_text, hblocks, hrest]
    omega

theorem tally_gridOf (parent : Parent) : ∀ table : Option (Table Node),
    ((gridOf s parent table).map (Grid.tally t s)).getD 0 =
      sightsTally t s (Node.sightsOfTable (isBook s) parent table)
  | none => rfl
  | some ⟨_, head, body, foot⟩ => by
    simp only [gridOf, Option.map_some, Option.getD_some, Grid.tally, Node.sightsOfTable,
      sightsTally_append, tally_rowsOf parent true head, tally_rowsOf parent false body,
      tally_rowsOf parent false foot]

theorem tally_rowsOf (parent : Parent) (head : Bool) : ∀ rows : List (List (Cell Node)),
    rowsTally t s head (rowsOf s parent rows) =
      sightsTally t s (Node.sightsOfRows (isBook s) parent head rows)
  | [] => rfl
  | r :: rs => by
    have hrest := tally_rowsOf parent head rs
    simp only [rowsTally] at hrest
    simp only [rowsOf, rowsTally, List.map_cons, List.sum_cons, Node.sightsOfRows,
      sightsTally_append, tally_rowOf parent head r, hrest]

theorem tally_rowOf (parent : Parent) (head : Bool) : ∀ row : List (Cell Node),
    ((rowOf s parent row).map (RenderedCell.tally t s head)).sum =
      sightsTally t s (Node.sightsOfRow (isBook s) parent head row)
  | [] => rfl
  | ⟨style, paragraphs, blocks, source, _, _, _, _⟩ :: cs => by
    have hblocks := tally_siblings (some parent) blocks
    have hrest := tally_rowOf parent head cs
    have hlines : t.of (do return .lines (← siblings s (some parent) blocks)) =
        t.lines (siblings s (some parent) blocks) := by
      simp [Tally.of, Tally.lines]
    -- Which part is shown is up to the row group, the style and the source, as in the renderer.
    cases head <;> cases style <;> cases source <;>
      simp_all [rowOf, RenderedCell.tally, Node.sightsOfRow, sightsTally_paragraphs]

end

end DocPress
