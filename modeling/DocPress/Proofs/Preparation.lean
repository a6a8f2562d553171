import DocPress.Document.Prepare
import DocPress.Proofs.Numbering

/-! Preparing a prepared document. The tree, its numbers and the targets of references are settled
after one run; the catalog is settled after two, since it takes the text of a footnote before the
footnotes inside that text have their numbers. -/

namespace DocPress

set_option autoImplicit false

namespace Document

/-- Whether preparation numbers the sections of the document. -/
def asksNumbers (d : Document) (defaults : SortedMap String) : Bool :=
  d.hasAttr "sectnums" || defaults.contains "sectnums"

variable (defaults : SortedMap String) (d : Document)

theorem prepareWith_root :
    (d.prepareWith defaults).root =
      (indexFootnotes (numberIf (d.asksNumbers defaults) d.root)).1 := rfl

theorem prepareWith_footnotes :
    (d.prepareWith defaults).catalog.footnotes =
      (indexFootnotes (numberIf (d.asksNumbers defaults) d.root)).2 := rfl

theorem asksNumbers_prepareWith :
    (d.prepareWith defaults).asksNumbers defaults = d.asksNumbers defaults := rfl

/-- The references of a prepared document are those of its own tree and header. -/
theorem prepareWith_refs :
    (d.prepareWith defaults).catalog.refs =
      (d.prepareWith defaults).registered.foldl registerRef ∅ := rfl

theorem footnoteTexts_numberIf (number : Bool) (root : Node) :
    (numberIf number root).footnoteTexts = root.footnoteTexts := by
  obtain ⟨data, title, text, items, entries, blocks, table⟩ := root
  unfold numberIf
  split
  · have hb := numberSections_filter section_not_definition "" blocks 0
    have hself : (⟨data, title, text, items, entries, (numberSections "" blocks 0).1, table⟩ :
        Node).definesFootnote =
        (⟨data, title, text, items, entries, blocks, table⟩ : Node).definesFootnote := rfl
    simp only [Node.footnoteTexts, Node.walk, List.filter_cons, List.filter_append, hb, hself]
    split <;> rfl
  · rfl

theorem showUnresolved_blocks (n : Node) : (showUnresolved n).blocks = n.blocks := by
  rcases showUnresolved_cases n with h | ⟨_, id, h⟩ <;> rw [h]

/-- Indexing leaves the blocks of a node indexed, whatever it does to the node itself. -/
theorem indexFootnotes_blocks (root : Node) :
    ∃ footnotes, (indexFootnotes root).1.blocks =
      Node.mapAll showUnresolved (Node.visitAll indexFootnote root.blocks footnotes).1 := by
  obtain ⟨data, title, text, items, entries, blocks, table⟩ := root
  exact ⟨_, showUnresolved_blocks _⟩

theorem numberIf_settled (number : Bool) (root : Node) :
    numberIf number (indexFootnotes (numberIf number root)).1 =
      (indexFootnotes (numberIf number root)).1 := by
  cases number with
  | false => rfl
  | true =>
    obtain ⟨footnotes, hb⟩ := indexFootnotes_blocks (numberIf true root)
    have hn :
        (numberSections "" (numberIf true root).blocks 0).1 = (numberIf true root).blocks := by
      simp only [numberIf, if_true, numberSections_again]
    have hs := numberSections_indexed "" _ 0 footnotes hn
    rw [← hb] at hs
    revert hs
    generalize (indexFootnotes (numberIf true root)).1 = settled
    intro hs
    obtain ⟨data, title, text, items, entries, blocks, table⟩ := settled
    simp only [numberIf, if_true]
    exact congrArg (fun bs => (⟨data, title, text, items, entries, bs, table⟩ : Node)) hs

/-- A tree whose footnotes are indexed is left as it is by indexing it again. -/
theorem indexFootnotes_again (root : Node) :
    (indexFootnotes (indexFootnotes root).1).1 = (indexFootnotes root).1 ∧
      keysOf (indexFootnotes (indexFootnotes root).1).2 = keysOf (indexFootnotes root).2 := by
  obtain ⟨hv, hk⟩ := Node.visit_settles root [] [] rfl
  refine ⟨?_, hk⟩
  change Node.map showUnresolved (Node.visit indexFootnote (Node.map showUnresolved
    (root.visit indexFootnote []).1) []).1 = Node.map showUnresolved _
  rw [hv, Node.map_map finishes_showUnresolved]

theorem indexFootnotes_texts (root : Node) :
    (indexFootnotes root).2.map Footnote.text = root.footnoteTexts := visit_texts root

theorem prepareWith_texts :
    (d.prepareWith defaults).catalog.footnotes.map Footnote.text = d.root.footnoteTexts := by
  rw [prepareWith_footnotes, indexFootnotes_texts, footnoteTexts_numberIf]

theorem prepareWith_root_again :
    ((d.prepareWith defaults).prepareWith defaults).root = (d.prepareWith defaults).root := by
  rw [prepareWith_root, asksNumbers_prepareWith, prepareWith_root, numberIf_settled]
  exact (indexFootnotes_again _).1

theorem prepareWith_keys_again :
    keysOf ((d.prepareWith defaults).prepareWith defaults).catalog.footnotes =
      keysOf (d.prepareWith defaults).catalog.footnotes := by
  rw [prepareWith_footnotes, asksNumbers_prepareWith, prepareWith_root, numberIf_settled,
    prepareWith_footnotes]
  exact (indexFootnotes_again _).2

theorem prepareWith_registered_again :
    ((d.prepareWith defaults).prepareWith defaults).registered =
      (d.prepareWith defaults).registered := by
  unfold registered
  rw [prepareWith_root_again]
  rfl

theorem prepareWith_refs_again :
    ((d.prepareWith defaults).prepareWith defaults).catalog.refs =
      (d.prepareWith defaults).catalog.refs := by
  rw [prepareWith_refs, prepareWith_registered_again, ← prepareWith_refs]

theorem footnotes_eq_of_keys_of_texts : ∀ {a b : List Footnote}, keysOf a = keysOf b →
    a.map Footnote.text = b.map Footnote.text → a = b
  | [], [], _, _ => rfl
  | [], _ :: _, h, _ => by simp at h
  | _ :: _, [], h, _ => by simp at h
  | ⟨i, id, text⟩ :: a, ⟨j, id', text'⟩ :: b, hk, ht => by
    simp only [keysOf, List.map_cons, List.cons.injEq, Footnote.key, Prod.mk.injEq] at hk ht
    obtain ⟨⟨rfl, rfl⟩, hk⟩ := hk
    obtain ⟨rfl, ht⟩ := ht
    rw [footnotes_eq_of_keys_of_texts hk ht]

theorem eq_of_parts {a b : Document} (hroot : a.root = b.root) (hheader : a.header = b.header)
    (hattributes : a.attributes = b.attributes) (hrefs : a.catalog.refs = b.catalog.refs)
    (hfootnotes : a.catalog.footnotes = b.catalog.footnotes) (hnested : a.nested = b.nested) :
    a = b := by
  obtain ⟨root, header, attributes, ⟨refs, footnotes⟩, nested⟩ := a
  obtain ⟨root', header', attributes', ⟨refs', footnotes'⟩, nested'⟩ := b
  subst hroot hheader hattributes hnested
  change refs = refs' at hrefs
  change footnotes = footnotes' at hfootnotes
  rw [hrefs, hfootnotes]

/-- A second preparation changes nothing exactly when the first one left the texts of the footnote
definitions as they were. -/
theorem prepareWith_again_iff :
    (d.prepareWith defaults).prepareWith defaults = d.prepareWith defaults ↔
      (d.prepareWith defaults).root.footnoteTexts = d.root.footnoteTexts := by
  constructor
  · intro h
    have ht := prepareWith_texts defaults (d.prepareWith defaults)
    rw [h, prepareWith_texts] at ht
    exact ht.symm
  · intro h
    refine eq_of_parts (prepareWith_root_again defaults d) rfl rfl
      (prepareWith_refs_again defaults d) ?_ rfl
    refine footnotes_eq_of_keys_of_texts (prepareWith_keys_again defaults d) ?_
    rw [prepareWith_texts, prepareWith_texts, h]

/-- No footnote of the tree stands in the text of another one. -/
def FootnotesFlat (d : Document) : Prop :=
  ∀ text ∈ d.root.footnoteTexts, ∀ m ∈ Node.walkAll text, m.isFootnote = false

theorem footnoteTexts_of_flat (h : d.FootnotesFlat) :
    (d.prepareWith defaults).root.footnoteTexts = d.root.footnoteTexts := by
  have hn := footnoteTexts_numberIf (d.asksNumbers defaults) d.root
  unfold FootnotesFlat at h
  rw [← hn] at h ⊢
  exact Node.visit_texts_flat _ h []

/-- Preparing twice leaves what preparing once leaves, but for texts of footnotes in which other
footnotes stand; the second run is exact, and every further one changes nothing. -/
theorem prepareWith_prepareWith (defaults : SortedMap String) (d : Document) :
    let p := d.prepareWith defaults
    let q := p.prepareWith defaults
    q.root = p.root ∧ q.header = p.header ∧ q.attributes = p.attributes ∧ q.nested = p.nested ∧
      q.catalog.refs = p.catalog.refs ∧
      keysOf q.catalog.footnotes = keysOf p.catalog.footnotes ∧
      (q = p ↔ p.root.footnoteTexts = d.root.footnoteTexts) ∧
      (d.FootnotesFlat → q = p) ∧
      q.prepareWith defaults = q := by
  refine ⟨prepareWith_root_again defaults d, rfl, rfl, rfl, prepareWith_refs_again defaults d,
    prepareWith_keys_again defaults d, prepareWith_again_iff defaults d, ?_, ?_⟩
  · intro h
    exact (prepareWith_again_iff defaults d).2 (footnoteTexts_of_flat defaults d h)
  · rw [prepareWith_again_iff, prepareWith_root_again]

/-- A paragraph with a footnote in whose text another footnote stands. -/
def noteInNote : Document :=
  let inner : Node := { Node.ofKind .inlineFootnote with text := some [.plain "inner"] }
  let outer : Node := { Node.ofKind .inlineFootnote with text := some [inner] }
  { blank with root := { Node.ofKind .document with
      blocks := [{ Node.ofKind .paragraph with text := some [outer] }] } }

/-- The catalog takes the inner footnote without its number first, and with it the second time. -/
theorem prepareWith_noteInNote :
    (noteInNote.prepareWith ∅).prepareWith ∅ ≠ noteInNote.prepareWith ∅ := by
  intro h
  have hn := congrArg (fun d => d.catalog.footnotes.map fun f =>
    f.text.map fun n => n.hasAttr indexName) h
  exact absurd hn (by decide)

end Document

end DocPress
