import DocPress.Block.Grid
import DocPress.Block.Lists
import DocPress.Proofs.DrawnBlocks

/-! Lists and tables are drawn from their nodes: items, groups and cells in the order of the walk,
terms before their description, paragraphs before blocks. -/

namespace DocPress

set_option autoImplicit false

universe u

variable {P : Palette} {s : Scene} {n : Node} {ds : List NodeData}

/-! ### Sequences -/

/-- Whether each member of a sequence is related to a stretch of the data, one after the other. -/
inductive Each {α : Type u} (R : List NodeData → α → Prop) : List NodeData → List α → Prop
  | nil : Each R [] []
  | cons {a b : List NodeData} {x : α} {xs : List α} (h : R a x) (rest : Each R b xs) :
    Each R (a ++ b) (x :: xs)

namespace Each

theorem mono {α : Type u} {R S : List NodeData → α → Prop} (h : ∀ a x, R a x → S a x) {xs : List α}
    (hx : Each R ds xs) : Each S ds xs := by
  induction hx with
  | nil => exact .nil
  | cons hx _ ih => exact .cons (h _ _ hx) ih

/-- A sequence of parts, each drawn from its stretch. -/
theorem drawn {parts : List Markup} (h : Each (Drawn P) ds parts) : Drawn P ds parts.flatten := by
  induction h with
  | nil => exact .nil
  | cons hm _ ih => exact .partCons hm ih

theorem drawnGroups {groups : List (List Markup)}
    (h : Each (fun a parts => Drawn P a parts.flatten) ds groups) :
    Drawn P ds groups.flatten.flatten := by
  induction h with
  | nil => exact .nil
  | cons hm _ ih => exact .partsAppend hm ih

theorem map {α β : Type u} {R : List NodeData → β → Prop} {f : α → β} {xs : List α}
    (h : Each (fun a x => R a (f x)) ds xs) : Each R ds (xs.map f) := by
  induction h with
  | nil => exact .nil
  | cons hx _ ih => exact .cons hx ih

theorem sequence {α β : Type u} {R : List NodeData → β → Prop} {f : α → Rendered β} {xs : List α}
    (h : Each (fun a x => R a (f x).value) ds xs) :
    Each R ds (Rendered.sequence (xs.map f)).value := by
  induction h with
  | nil => exact .nil
  | cons hx _ ih => exact .cons hx ih

theorem flatMap {α : Type u} {R : List NodeData → α → Prop} {f : α → List NodeData} :
    ∀ {xs : List α}, (∀ x ∈ xs, R (f x) x) → Each R (xs.flatMap f) xs
  | [], _ => .nil
  | x :: _, h => .cons (h x List.mem_cons_self)
    (flatMap fun y hy => h y (List.mem_cons_of_mem x hy))

end Each

theorem each_walk {R : List NodeData → Node → Prop} : ∀ {ns : List Node},
    (∀ m ∈ ns, R (m.walk.map Node.data) m) → Each R (dataOf ns) ns
  | [], _ => .nil
  | m :: ms, h => by
    rw [dataOf, Node.walkAll, List.map_append]
    exact .cons (h m List.mem_cons_self) (each_walk fun k hk => h k (List.mem_cons_of_mem m hk))

theorem suppliedAll_walkAll {ns : List Node} (h : SuppliedAll s P (Node.walkAll ns)) :
    ∀ m ∈ ns, SuppliedAll s P m.walk := by
  induction ns with
  | nil => nofun
  | cons k ks ih =>
    simp only [Node.walkAll, SuppliedAll, List.forall_mem_append] at h
    rw [List.forall_mem_cons]
    exact ⟨h.1, ih h.2⟩

namespace Block

/-! ### Items -/

/-- An item whose text is supplied and whose blocks are drawn, all from a stretch of the data. -/
structure ItemDrawn (s : Scene) (P : Palette) (ds : List NodeData) (i : Item) : Prop where
  id : ∀ x, i.data.id = some x → P.id x
  text : SuppliedAll s P (Node.walkOpt i.text)
  blocks : ∃ bs, (dataOf? i.text ++ bs).Sublist ds ∧
    ∀ r, i.blocks = some r → Drawn P.page bs r.value

namespace ItemDrawn

variable {i : Item}

theorem blockLines {bs : List NodeData} (h : ∀ r, i.blocks = some r → Drawn P.page bs r.value) :
    Drawn P.page bs i.blockLines.value.flatten := by
  unfold Item.blockLines
  cases hb : i.blocks with
  | some r => exact .part (h r hb)
  | none => exact Drawn.nil.within (List.nil_sublist _)

theorem parts (h : ItemDrawn s P ds i) {k : Markup} (hk : Drawn P.page (dataOf? i.text) k) :
    Drawn P.page ds (k :: i.blockLines.value).flatten := by
  obtain ⟨bs, hin, hb⟩ := h.blocks
  exact (Drawn.partCons hk (blockLines hb)).within hin

variable (hs : s.Supplied P) (h : ItemDrawn s P ds i)

include hs h

theorem textMarkup : Drawn P.page (dataOf? i.text) (i.textMarkup s).value :=
  pageText?_drawn hs h.text

theorem body : Drawn P.page ds (i.body s).value.flatten := by
  have htext := h.textMarkup hs
  simp only [Item.body]
  split
  · exact h.parts (.box (by simp) (by decide) htext)
  · obtain ⟨bs, hin, hb⟩ := h.blocks
    exact (blockLines hb).within ((List.sublist_append_right _ _).trans hin)

theorem listElement {mark : Markup} (hmark : Drawn P.page [] mark) :
    Drawn P.page ds (i.listElement s mark).value := by
  simp only [Item.listElement, Rendered.value_bind, Rendered.value_pure]
  refine .stack ?_ (by decide) (h.parts (.box (by simp) (by decide)
    (hmark.append (h.textMarkup hs))))
  exact ordinaryAttrs_append.2 ⟨ordinaryAttrs_id.2 h.id, ordinaryAttrs_role _⟩

theorem calloutItem : Drawn P.page ds (calloutItem s i).value := by
  simp only [Block.calloutItem, Rendered.value_bind, Rendered.value_pure]
  exact .stack (by simp) (by decide) (h.parts (.box (by simp) (by decide) (h.textMarkup hs)))

end ItemDrawn

/-! ### Lists of items -/

theorem listBox_drawn (hn : SuppliedAll s P n.walk) {title : List Markup} {list : Markup}
    {classes : ClassList} (htitle : Drawn P.page (dataOf? n.title) title.flatten)
    (hlist : Drawn P.page ds list) :
    Drawn P.page (dataOf? n.title ++ ds) (listBox n classes title list) :=
  .stack (Node.ordinary_box hn (ordinaryAttrs_classes _)) (by decide) (htitle.partsConcat hlist)

theorem calloutLabel_drawn (number : Nat) : Drawn P [] (calloutLabel s number) := by
  simp only [calloutLabel]
  split
  · exact .cons (.box (by simp) (by decide) .nil) (.box (by simp) (by decide) (.text _))
  · exact .void (by simp)

theorem checkMark_drawn (s : Scene) (n : Node) (i : Item) : Drawn P [] (checkMark s n i) := by
  have hmarks : Drawn P [] (checkMarks s n).1 ∧ Drawn P [] (checkMarks s n).2 := by
    unfold checkMarks
    split
    · exact ⟨.consLeaf (.void (by simp)) (.text _), .consLeaf (.void (by simp)) (.text _)⟩
    · split
      · exact ⟨.consLeaf (.box (by simp) (by decide) .nil) (.text _),
          .consLeaf (.box (by simp) (by decide) .nil) (.text _)⟩
      · exact ⟨.consLeaf (.charRef _) (.text _), .consLeaf (.charRef _) (.text _)⟩
  unfold checkMark
  split
  · split
    · exact hmarks.1
    · exact hmarks.2
  · exact .nil

section

variable (hs : s.Supplied P) (hn : SuppliedAll s P n.walk) {items : List Item}
  (hi : Each (ItemDrawn s P) ds items)

include hs hn hi

theorem orderedList_drawn :
    Drawn P.page (dataOf? n.title ++ ds) (orderedList s n items).value := by
  simp only [orderedList, Rendered.value_bind, Rendered.value_pure]
  refine listBox_drawn hn (titleLine_drawn hs hn false) (.stack (by simp) (by decide) ?_)
  exact Each.drawn (.sequence (hi.mono fun _ _ h => h.listElement hs .nil))

theorem unorderedList_drawn :
    Drawn P.page (dataOf? n.title ++ ds) (unorderedList s n items).value := by
  simp only [unorderedList, Rendered.value_bind, Rendered.value_pure]
  refine listBox_drawn hn (titleLine_drawn hs hn false)
    (.stack (ordinaryAttrs_classes _) (by decide) ?_)
  exact Each.drawn (.sequence (hi.mono fun _ i h => h.listElement hs (checkMark_drawn s n i)))

omit hn in
theorem calloutRows_drawn (number : Nat) :
    Drawn P.page ds (calloutRows s number items).value.flatten := by
  induction hi generalizing number with
  | nil => exact .nil
  | @cons a b i is h _ ih =>
    simp only [calloutRows, Rendered.value_bind, Rendered.value_pure]
    refine .partCons (.stack (by simp) (by decide) (.leafCons ?_ (.part ?_))) (ih _)
    · exact .box (by simp) (by decide) (calloutLabel_drawn number)
    · exact .box (by simp) (by decide) (.lines (h.parts (h.textMarkup hs)))

theorem calloutList_drawn :
    Drawn P.page (dataOf? n.title ++ ds) (calloutList s n items).value := by
  simp only [calloutList]
  split
  · exact listBox_drawn hn (titleLine_drawn hs hn false)
      (.stack (by simp) (by decide) (calloutRows_drawn hs hi 1))
  · refine listBox_drawn hn (titleLine_drawn hs hn false) (.stack (by simp) (by decide) ?_)
    exact Each.drawn (.sequence (hi.mono fun _ _ h => h.calloutItem hs))

end

/-! ### Description lists -/

/-- A group whose terms are supplied and stand before its description. -/
structure GroupDrawn (s : Scene) (P : Palette) (ds : List NodeData) (g : Group) : Prop where
  terms : SuppliedAll s P (Node.walkAll g.terms)
  description : ∃ bs, (dataOf g.terms ++ bs).Sublist ds ∧
    ∀ i, g.description = some i → ItemDrawn s P bs i

namespace GroupDrawn

variable {g : Group} (hs : s.Supplied P) (h : GroupDrawn s P ds g)

include hs h

theorem termTexts : Each (Drawn P.page) (dataOf g.terms) (termTexts s g).value :=
  .sequence (each_walk fun m hm =>
    (pageText?_drawn hs (Node.supplied_text (suppliedAll_walkAll h.terms m hm))).within
      (Node.text_within m))

theorem descriptionLines : ∃ bs, (dataOf g.terms ++ bs).Sublist ds ∧
    Drawn P.page bs (descriptionLines s g).value.flatten := by
  obtain ⟨bs, hin, hd⟩ := h.description
  refine ⟨bs, hin, ?_⟩
  unfold Block.descriptionLines
  cases hg : g.description with
  | some i => exact (hd i hg).body hs
  | none => exact Drawn.nil.within (List.nil_sublist bs)

theorem termLines {f : Markup → Markup}
    (hf : ∀ (a : List NodeData) (m : Markup), Drawn P.page a m → Drawn P.page a (f m)) :
    Drawn P.page (dataOf g.terms) ((Block.termTexts s g).value.map f).flatten :=
  ((h.termTexts hs).mono hf).map.drawn

theorem questionItem : Drawn P.page ds (questionItem s g).value := by
  obtain ⟨bs, hin, hd⟩ := h.descriptionLines hs
  simp only [Block.questionItem, Rendered.value_bind, Rendered.value_pure]
  refine .stack (by simp) (by decide)
    ((Drawn.partsAppend (h.termLines hs fun a m hm => ?_) hd).within hin)
  exact .box (by simp) (by decide) (.box (by simp) (by decide) hm)

theorem horizontalRow : Drawn P.page ds (horizontalRow s n g).value := by
  obtain ⟨bs, hin, hd⟩ := h.descriptionLines hs
  simp only [Block.horizontalRow, Rendered.value_bind, Rendered.value_pure]
  refine .stack (by simp) (by decide) ((Drawn.partCons ?_ (.part ?_)).within hin)
  · exact .stack (ordinaryAttrs_classes _) (by decide)
      (.intercalate (.void (by simp)) (h.termTexts hs).drawn)
  · exact .stack (by simp) (by decide) hd

theorem groupLines : Drawn P.page ds (Block.termLines s n g).value.flatten := by
  obtain ⟨bs, hin, hd⟩ := h.descriptionLines hs
  simp only [Block.termLines, Rendered.value_bind, Rendered.value_pure]
  refine (Drawn.partsAppend (h.termLines hs fun a m hm => ?_) (.when ?_)).within hin
  · exact .box (by split <;> simp) (by decide) hm
  · exact .stack (by simp) (by decide) hd

end GroupDrawn

theorem horizontalColumns_drawn (n : Node) : Drawn P [] (horizontalColumns n).flatten := by
  simp only [horizontalColumns]
  refine .when (.stack (by simp) (by decide) (.leaves fun m hm => ?_))
  obtain ⟨width, _, rfl⟩ := List.mem_map.1 hm
  split
  · exact .void (by simp)
  · exact .void (by simp)

theorem descriptionList_drawn (hs : s.Supplied P) (hn : SuppliedAll s P n.walk)
    {groups : List Group} (hg : Each (GroupDrawn s P) ds groups) :
    Drawn P.page (dataOf? n.title ++ ds) (descriptionList s n groups).value := by
  have htitle := titleLine_drawn hs hn false
  simp only [descriptionList]
  split
  · refine listBox_drawn hn htitle (.stack (by simp) (by decide) ?_)
    exact Each.drawn (.sequence (hg.mono fun _ _ h => h.questionItem hs))
  · refine listBox_drawn hn htitle (.stack (by simp) (by decide)
      (.partsAppend (a := []) (horizontalColumns_drawn n) ?_))
    exact Each.drawn (.sequence (hg.mono fun _ _ h => h.horizontalRow hs))
  · refine listBox_drawn hn htitle (.stack (by simp) (by decide) ?_)
    exact Each.drawnGroups (.sequence (hg.mono fun _ _ h => h.groupLines hs))

/-! ### Tables -/

abbrev paragraphData (paragraphs : List (List Node)) : List NodeData :=
  (Node.walkParagraphs paragraphs).map Node.data

/-- A cell whose paragraphs are supplied and stand before its blocks. -/
structure CellDrawn (s : Scene) (P : Palette) (ds : List NodeData) (c : RenderedCell) : Prop where
  paragraphs : SuppliedAll s P (Node.walkParagraphs c.cell.paragraphs)
  blocks : ∃ bs, (paragraphData c.cell.paragraphs ++ bs).Sublist ds ∧
    Drawn P.page bs c.blocks.value

theorem paragraphs_each (hs : s.Supplied P) : ∀ {paragraphs : List (List Node)},
    SuppliedAll s P (Node.walkParagraphs paragraphs) →
      Each (fun a p => Drawn P.page a (runningText s p).value) (paragraphData paragraphs) paragraphs
  | [], _ => .nil
  | p :: ps, h => by
    simp only [Node.walkParagraphs, SuppliedAll, List.forall_mem_append] at h
    rw [paragraphData, Node.walkParagraphs, List.map_append]
    exact .cons (pageText_drawn hs h.1) (paragraphs_each hs h.2)

namespace CellDrawn

variable {c : RenderedCell}

theorem ofParagraphs (h : CellDrawn s P ds c) {m : Markup}
    (hm : Drawn P.page (paragraphData c.cell.paragraphs) m) : Drawn P.page ds m := by
  obtain ⟨bs, hin, _⟩ := h.blocks
  exact hm.within ((List.sublist_append_left _ _).trans hin)

variable (hs : s.Supplied P) (h : CellDrawn s P ds c)

include hs h

theorem paragraphTexts :
    Each (Drawn P.page) (paragraphData c.cell.paragraphs) (paragraphTexts s c.cell).value :=
  .sequence (paragraphs_each hs h.paragraphs)

theorem cellParagraphs {wrap : Markup → Markup}
    (hw : ∀ (a : List NodeData) (m : Markup), Drawn P.page a m → Drawn P.page a (wrap m)) :
    Drawn P.page ds (cellParagraphs s c.cell wrap).value := by
  refine h.ofParagraphs (.lines (Each.drawn (.map ((h.paragraphTexts hs).mono fun a m hm => ?_))))
  exact .box (by simp) (by decide) (hw a m hm)

theorem content (head : Bool) : Drawn P.page ds (cellContent s head c).value := by
  have wrapped : ∀ tag : Tag, tag ≠ .a → ∀ (a : List NodeData) (m : Markup),
      Drawn P.page a m → Drawn P.page a [.element tag [] m] :=
    fun tag ht _ _ hm => .box (by simp) ht hm
  unfold cellContent
  split
  · exact h.ofParagraphs (.intercalate (.text _) (h.paragraphTexts hs).drawn)
  · split
    · obtain ⟨bs, hin, hb⟩ := h.blocks
      exact (Drawn.box (by simp) (by decide) hb).within ((List.sublist_append_right _ _).trans hin)
    · refine h.ofParagraphs ?_
      split
      · exact .box (by simp) (by decide)
          (.box (by simp) (by decide) ((Drawn.text _).within (List.nil_sublist _)))
      · exact .box (by simp) (by decide)
          (.box (by simp) (by decide) (.lines (h.paragraphTexts hs).drawn))
    · exact h.cellParagraphs hs (wrapped .em (by decide))
    · exact h.cellParagraphs hs (wrapped .strong (by decide))
    · exact h.cellParagraphs hs (wrapped .code (by decide))
    · exact h.cellParagraphs hs fun _ _ hm => hm
    · exact h.cellParagraphs hs fun _ _ hm => hm

theorem element (head : Bool) : Drawn P.page ds (cellElement s head c).value := by
  simp only [cellElement, Rendered.value_bind, Rendered.value_pure]
  refine .box (by simp) ?_ (h.content hs head)
  split <;> decide

end CellDrawn

abbrev RowsDrawn (s : Scene) (P : Palette) : List NodeData → List (List RenderedCell) → Prop :=
  Each (Each (CellDrawn s P))

theorem groupElement_drawn (hs : s.Supplied P) (group : RowGroup) {rows : List (List RenderedCell)}
    (h : RowsDrawn s P ds rows) : Drawn P.page ds (groupElement s group rows).value.flatten := by
  unfold groupElement
  split
  · exact Drawn.nil.within (List.nil_sublist _)
  · refine .part (.stack (by simp) (by cases group <;> decide) (Each.drawn (.sequence (h.mono ?_))))
    intro a row hrow
    exact .stack (by simp) (by decide)
      (Each.drawn (.sequence (hrow.mono fun _ _ hc => hc.element hs _)))

theorem columnMarkup_drawn (autowidth : Bool) (c : Column) :
    Drawn P [] (columnMarkup autowidth c) := by
  unfold columnMarkup
  split
  · split
    · exact .void (by simp)
    · exact .void (by simp [widthStyle])
  · exact .void (by simp)

/-- A grid whose groups of rows are drawn one after the other. -/
structure GridDrawn (s : Scene) (P : Palette) (ds : List NodeData) (g : Grid) : Prop where
  groups : ∃ hs bs fs, ds = hs ++ bs ++ fs ∧ RowsDrawn s P hs g.head ∧ RowsDrawn s P bs g.body ∧
    RowsDrawn s P fs g.foot

theorem gridLines_drawn (hs : s.Supplied P) (d : NodeData) {g : Grid} (h : GridDrawn s P ds g) :
    Drawn P.page ds (gridLines s d g).value.flatten := by
  obtain ⟨head, body, foot, rfl, hhead, hbody, hfoot⟩ := h.groups
  simp only [gridLines]
  split
  · exact Drawn.nil.within (List.nil_sublist _)
  · refine .leafCons (.stack (by simp) (by decide) (.leaves fun m hm => ?_)) ?_
    · obtain ⟨c, _, rfl⟩ := List.mem_map.1 hm
      exact columnMarkup_drawn _ c
    · exact .partsAppend (.partsAppend (groupElement_drawn hs .head hhead)
        (groupElement_drawn hs .body hbody)) (groupElement_drawn hs .foot hfoot)

theorem tableAttrs_ordinary (hn : SuppliedAll s P n.walk) :
    OrdinaryAttrs P.page (tableAttrs s n.data) := by
  have hextent : OrdinaryAttrs P.page (tableExtent n.data).2 := by
    unfold tableExtent
    split
    · simp
    · simp only
      split
      · simp
      · simp [widthStyle]
  simp only [tableAttrs, List.append_assoc]
  exact Node.ordinary_box hn (ordinaryAttrs_append.2 ⟨ordinaryAttrs_classes _, hextent⟩)

theorem table_drawn (hs : s.Supplied P) (hn : SuppliedAll s P n.walk) {grid : Option Grid}
    (h : ∀ g, grid = some g → GridDrawn s P ds g) :
    Drawn P.page (dataOf? n.title ++ ds) (table s n grid).value := by
  have hcaption : Drawn P.page (dataOf? n.title)
      [[Html.element .caption titleClass (captionedTitle s n).value]].flatten :=
    .part (.box (by simp [titleClass]) (by decide) (captionedTitle_drawn hs hn))
  have hnone : Drawn P.page (dataOf? n.title) ([] : List Markup).flatten :=
    Drawn.nil.within (List.nil_sublist _)
  have around : ∀ {caption lines : List Markup}, Drawn P.page (dataOf? n.title) caption.flatten →
      Drawn P.page ds lines.flatten → Drawn P.page (dataOf? n.title ++ ds)
        (.stack .table (tableAttrs s n.data) (caption ++ lines)) :=
    fun hc hl => .stack (tableAttrs_ordinary hn) (by decide) (hc.partsAppend hl)
  simp only [table]
  cases grid with
  | some g =>
    have hlines := gridLines_drawn hs n.data (h g rfl)
    split
    · exact around hcaption hlines
    · exact around hnone hlines
  | none =>
    have hlines : Drawn P.page ds ([] : List Markup).flatten :=
      Drawn.nil.within (List.nil_sublist _)
    split
    · exact around hcaption hlines
    · exact around hnone hlines

end Block

end DocPress
