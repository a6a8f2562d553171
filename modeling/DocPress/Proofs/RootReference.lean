import DocPress.Proofs.Registry
import DocPress.Proofs.VisibleReferences

/-! References to the document itself. The empty id is looked up among the targets first, so it
stands for the document only where no node takes it. Then the words are those of the header and of
the root, and what the body holds does not show in them. -/

namespace DocPress

set_option autoImplicit false

/-! ### A tree with another body -/

/-- A node with other blocks and another table. -/
def Node.withEnding (n : Node) (blocks : List Node) (table : Option (Table Node)) : Node :=
  { n with blocks := blocks, table := table }

theorem showUnresolved_withEnding (n : Node) (blocks : List Node) (table : Option (Table Node)) :
    showUnresolved (n.withEnding blocks table) = (showUnresolved n).withEnding blocks table := by
  have href : (n.withEnding blocks table).isFootnoteRef = n.isFootnoteRef := rfl
  have hattr : (n.withEnding blocks table).hasAttr indexName = n.hasAttr indexName := rfl
  have htext : (n.withEnding blocks table).hasText = n.hasText := rfl
  have hid : (n.withEnding blocks table).footnoteRefId = n.footnoteRefId := rfl
  unfold showUnresolved
  rw [href, hattr, htext, hid]
  split
  · cases n.footnoteRefId <;> rfl
  · rfl

theorem indexFootnotes_withEnding (root : Node) (blocks : List Node)
    (table : Option (Table Node)) : ∃ a b,
    (indexFootnotes (root.withEnding blocks table)).1 = (indexFootnotes root).1.withEnding
      (Node.mapAll showUnresolved (Node.visitAll indexFootnote blocks a).1)
      (Node.mapTable showUnresolved (Node.visitTable indexFootnote table b).1) := by
  obtain ⟨data, title, text, items, entries, blocks', table'⟩ := root
  let n : Node := ⟨data, title, text, items, entries, blocks', table'⟩
  let r : Node := (Node.visit indexFootnote n []).1
  let m : Node := ⟨r.data, Node.mapOpt showUnresolved r.title, Node.mapOpt showUnresolved r.text,
      Node.mapAll showUnresolved r.items, Node.mapEntries showUnresolved r.entries,
      Node.mapAll showUnresolved r.blocks, Node.mapTable showUnresolved r.table⟩
  exact ⟨_, _, showUnresolved_withEnding m _ _⟩

/-- Once indexed, a node without its blocks keeps all that stands ahead of them. -/
theorem indexFootnotes_withoutBlocks (root : Node) :
    let settled := (indexFootnotes root).1
    ∃ b, (indexFootnotes (settled.withEnding [] settled.table)).1 = settled.withEnding []
      (Node.mapTable showUnresolved (Node.visitTable indexFootnote settled.table b).1) := by
  intro settled
  let bare : Node := settled.withEnding [] none
  obtain ⟨_, _, hbare⟩ := indexFootnotes_withEnding root [] none
  have hagain : (indexFootnotes bare).1 = bare := by
    have h := (Document.indexFootnotes_again (root.withEnding [] none)).1
    rw [hbare] at h
    exact h
  obtain ⟨_, b, h⟩ := indexFootnotes_withEnding bare [] settled.table
  rw [hagain] at h
  exact ⟨b, h⟩

/-! ### What stands for an id -/

/-- The id that a node with the data stands for, if any. -/
def NodeData.idStoodFor? (d : NodeData) : Option String :=
  if (Node.leaf d).isRegistrable then d.id else none

theorem standsFor_iff_idStoodFor (n : Node) (id : String) :
    n.StandsFor id ↔ n.data.idStoodFor? = some id := by
  have hsame : (Node.leaf n.data).isRegistrable = n.isRegistrable := rfl
  rw [n.standsFor_iff, NodeData.idStoodFor?, hsame]
  split
  case isTrue h => exact and_iff_left h
  case isFalse h => exact iff_of_false (fun hn => h hn.2) nofun

theorem mem_idsStoodFor {ns : List Node} {id : String} :
    id ∈ Node.readAll NodeData.idStoodFor? ns ↔ ∃ n ∈ ns, n.StandsFor id := by
  simp only [Node.readAll, List.filterMap_map, List.mem_filterMap, Function.comp_apply,
    standsFor_iff_idStoodFor]

/-- What stands for an id in a table stands for it when the table is indexed, and nothing else. -/
theorem standsFor_indexedTable (table : Option (Table Node)) (footnotes : List Footnote)
    (id : String) :
    (∃ n ∈ Node.walkTable (Node.mapTable showUnresolved
      (Node.visitTable indexFootnote table footnotes).1), n.StandsFor id) ↔
      ∃ n ∈ Node.walkTable table, n.StandsFor id := by
  have hplain (x : String) : (Node.plain x).data.idStoodFor? = none := rfl
  have htrace : (Node.walkTable (Node.visitTable indexFootnote table footnotes).1).map Node.data =
      (Node.scan indexFootnote (Node.walkTable table) footnotes).1 :=
    congrArg Prod.fst (Node.visitTable_trace indexFootnote table footnotes)
  have hread : Node.readAll NodeData.idStoodFor?
      (Node.walkTable (Node.visitTable indexFootnote table footnotes).1) =
        Node.readAll NodeData.idStoodFor? (Node.walkTable table) := by
    rw [Node.readAll, htrace]
    exact readAll_scan (fun _ _ => rfl) _ footnotes
  rw [← mem_idsStoodFor, ← mem_idsStoodFor,
    Node.mapTable_readAll (Node.showUnresolved_readAll hplain), hread]

/-- The catalog entry of an id that nodes make. -/
def entryOf (id : String) (ns : List Node) : Option RefTarget :=
  (ns.find? fun n => decide (n.StandsFor id)).map (.ofNode id)

theorem entryOf_append (id : String) (a b : List Node) :
    entryOf id (a ++ b) = (entryOf id a <|> entryOf id b) := by
  unfold entryOf
  rw [List.find?_append]
  cases a.find? fun n => decide (n.StandsFor id) <;> rfl

theorem entryOf_eq_none {id : String} {ns : List Node} :
    entryOf id ns = none ↔ ∀ n ∈ ns, ¬ n.StandsFor id := by
  rw [entryOf, Option.map_eq_none_iff, List.find?_eq_none]
  simp only [decide_eq_true_eq]

namespace Document

/-- What stands ahead of the body of a document: its header title and the root with all that it
has but blocks and a table. -/
def aheadOfBody (d : Document) : List Node :=
  Node.walkAll ((d.header.map Header.title).getD []) ++
    d.root :: (Node.walkOpt d.root.title ++ Node.walkOpt d.root.text ++ Node.walkAll d.root.items ++
      Node.walkEntries d.root.entries)

def body (d : Document) : List Node :=
  Node.walkAll d.root.blocks ++ Node.walkTable d.root.table

theorem registered_split (d : Document) : d.registered = d.aheadOfBody ++ d.body := by
  rw [registered, Node.walk_eq, aheadOfBody, body]
  simp only [List.append_assoc, List.cons_append]

def withoutBlocks (d : Document) : Document :=
  { d with root := d.root.withEnding [] d.root.table }

variable (defaults : SortedMap String) (d : Document)

theorem ref?_prepared (id : String) :
    (d.prepareWith defaults).catalog.ref? id = entryOf id (d.prepareWith defaults).registered := by
  change ((d.prepareWith defaults).registered.foldl registerRef ∅).get? id = _
  rw [get?_registerRefs]
  rfl

/-- Prepared again without its blocks, a document has the same root, but for what is indexed anew in
the table. -/
theorem root_withoutBlocks :
    let p := d.prepareWith defaults
    ∃ footnotes, (p.withoutBlocks.prepareWith defaults).root =
      p.root.withEnding [] (Node.mapTable showUnresolved
        (Node.visitTable indexFootnote p.root.table footnotes).1) := by
  intro p
  have hnumber (number : Bool) : numberIf number p.withoutBlocks.root = p.withoutBlocks.root := by
    cases number <;> rfl
  rw [prepareWith_root, hnumber]
  exact indexFootnotes_withoutBlocks (numberIf (d.asksNumbers defaults) d.root)

theorem entryOf_aheadOfBody (id : String) (blocks : List Node) (table : Option (Table Node)) :
    entryOf id { d with root := d.root.withEnding blocks table }.aheadOfBody =
      entryOf id d.aheadOfBody := by
  simp only [aheadOfBody, entryOf_append]
  have hcons (rest : List Node) :
      entryOf id (d.root.withEnding blocks table :: rest) = entryOf id (d.root :: rest) := by
    have hstands : (d.root.withEnding blocks table).StandsFor id ↔ d.root.StandsFor id := Iff.rfl
    simp only [entryOf, List.find?_cons, hstands]
    cases decide (d.root.StandsFor id) <;> rfl
  exact congrArg (fun e => (entryOf id _ <|> e)) (hcons _)

/-- Without its blocks, a document has for an id the entry that it had, unless the first node that
stands for the id is in the body. -/
theorem ref?_withoutBlocks {id : String}
    (h : (∃ n ∈ (d.prepareWith defaults).aheadOfBody, n.StandsFor id) ∨
      ∀ n ∈ (d.prepareWith defaults).body, ¬ n.StandsFor id) :
    ((d.prepareWith defaults).withoutBlocks.prepareWith defaults).catalog.ref? id =
      (d.prepareWith defaults).catalog.ref? id := by
  let p := d.prepareWith defaults
  let q := p.withoutBlocks.prepareWith defaults
  obtain ⟨footnotes, hroot⟩ := root_withoutBlocks defaults d
  have hahead : entryOf id q.aheadOfBody = entryOf id p.aheadOfBody := by
    have hsame : q.aheadOfBody = { p with root := q.root }.aheadOfBody := rfl
    rw [hsame, hroot]
    exact entryOf_aheadOfBody p id _ _
  rw [ref?_prepared, ref?_prepared, registered_split, registered_split, entryOf_append,
    entryOf_append, hahead]
  rcases h with ⟨n, hn, hstands⟩ | hbody
  · cases hentry : entryOf id p.aheadOfBody with
    | none => exact absurd hstands (entryOf_eq_none.mp hentry n hn)
    | some t => rfl
  · have hleft : entryOf id q.body = none := by
      refine entryOf_eq_none.mpr fun n hn hstands => ?_
      rw [body, hroot] at hn
      obtain ⟨m, hm, hstands⟩ :=
        (standsFor_indexedTable p.root.table footnotes id).mp ⟨n, hn, hstands⟩
      exact hbody m (List.mem_append_right _ hm) hstands
    have hright : entryOf id p.body = none := entryOf_eq_none.mpr hbody
    rw [hleft, hright]

end Document

namespace Reference

variable {s : Scene} {t : RefTarget} {style : Option String}

/-- A target without a reference text and a title offers nothing, unless its number is shown. -/
theorem offered_nothing (htext : t.reftext.filter (· ≠ "") = none) (htitle : t.title = none)
    (hnumber : t.kind = .section → isDetailed style = true → number? t = none) :
    (offered s t style).value = none := by
  rw [offered_untold htext, htitle, Option.map_none]
  split
  case isTrue hkind =>
    have hnum : (if t.numbered then t.sectnum else none) = number? t := rfl
    simp only [sectionWords, hnum]
    split
    case h_1 => rfl
    case h_2 => rfl
    case h_3 num hshown =>
      exact absurd (hshown.symm.trans (hnumber hkind rfl)) (Option.some_ne_none num)
    case h_4 num hshown =>
      exact absurd (hshown.symm.trans (hnumber hkind rfl)) (Option.some_ne_none num)
    case h_5 => rfl
  case isFalse =>
    unfold captionWords
    split
    case h_1 h => exact absurd h.symm (Option.some_ne_none _)
    case h_2 h => exact absurd h.symm (Option.some_ne_none _)
    case h_3 => rfl

end Reference

/-- A document with a paragraph that has an id. -/
def manual (title : Inlines) (id : String) : Document :=
  (Document.blank.withTitle title).withBlocks [.leaf { kind := .paragraph, id := some id }]

namespace Converter

open Reference

/-- Unless the first node that takes the empty id is in the body, a reference to it is worded as if
the document had no blocks. If there is no such node at all and neither header nor root has words to
offer, it shows `[^top]`. -/
theorem resolve_root (c : Converter) (defaults : SortedMap String) (d : Document)
    (hbody : (∃ n ∈ (d.prepareWith defaults).aheadOfBody, n.StandsFor "") ∨
      ∀ n ∈ (d.prepareWith defaults).body, ¬ n.StandsFor "") :
    let p := d.prepareWith defaults
    let style := (c.scene p).attr? "xrefstyle"
    c.resolve p "" none = c.resolve (p.withoutBlocks.prepareWith defaults) "" none ∧
    ((∀ n ∈ p.registered, ¬ n.StandsFor "") → p.title? = none →
      (p.root.attr? "reftext").filter (· ≠ "") = none →
      (p.root.kind = .section → isDetailed style = true → number? p.rootTarget = none) →
      c.resolve p "" none = "[^top]") := by
  intro p style
  let q := p.withoutBlocks.prepareWith defaults
  obtain ⟨footnotes, hroot⟩ := Document.root_withoutBlocks defaults d
  have hentry : q.catalog.ref? "" = p.catalog.ref? "" :=
    Document.ref?_withoutBlocks defaults d hbody
  have hagree : (c.scene p).Agree (c.scene q) := ⟨rfl, rfl, rfl⟩
  have htarget : p.rootTarget = q.rootTarget := by
    have hsame : q.rootTarget = { p with root := q.root }.rootTarget := rfl
    rw [hsame, hroot]
    rfl
  constructor
  · have htop : (p.catalog.ref? "").isNone = (q.catalog.ref? "").isNone := by rw [hentry]
    exact congrArg (fun m => m.value.render)
      (wordsFor_agree hagree htop hentry.symm htarget style)
  · intro hfree htitle htext hnumber
    have hcatalog : p.catalog.ref? "" = none := by
      rw [Document.ref?_prepared]
      exact entryOf_eq_none.mpr hfree
    have hmade : made? (c.scene p) style "" = none := by
      have hroot? : target? (c.scene p) "" = some p.rootTarget := by
        have hnone : (c.scene p).doc.catalog.ref? "" = none := hcatalog
        rw [target?, hnone]
        rfl
      rw [made?, hroot?]
      exact offered_nothing htext htitle hnumber
    have hblank : (made? (c.scene p) style "").all Markup.isBlank = true := by
      rw [hmade]
      rfl
    calc c.resolve p "" none
      _ = (bracketed (c.scene p) "").render := congrArg Markup.render (wordsFor_bracketed hblank)
      _ = _ := render_bracketed (c.scene p) ""
      _ = "[^top]" := if_pos ⟨rfl, hcatalog⟩

/-- A document without a title is referred to as the top, with and without its paragraph. -/
theorem resolve_untitled :
    let c : Converter := ⟨.initial, none, .blank⟩
    let p := (manual [] "a").prepareWith ∅
    (∀ n ∈ p.body, ¬ n.StandsFor "") ∧ c.resolve p "" none = "[^top]" ∧
      c.resolve (p.withoutBlocks.prepareWith ∅) "" none = "[^top]" := by
  intro c p
  have hbody : ∀ n ∈ p.body, ¬ n.StandsFor "" := by decide
  obtain ⟨hsame, htop⟩ := c.resolve_root ∅ (manual [] "a") (.inr hbody)
  have hshown : c.resolve p "" none = "[^top]" :=
    htop (by decide) rfl rfl fun hkind => absurd hkind (by decide)
  exact ⟨hbody, hshown, hsame.symm.trans hshown⟩

/-- A paragraph with the empty id takes the place of the document. -/
theorem resolve_takenRoot :
    let c : Converter := ⟨.initial, none, .blank⟩
    let p := (manual [.plain "Manual"] "").prepareWith ∅
    c.resolve p "" none = "[]" ∧
      c.resolve (p.withoutBlocks.prepareWith ∅) "" none = "Manual" := by
  decide

end Converter

end DocPress
