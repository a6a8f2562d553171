import DocPress.Block.Basic
import DocPress.Proofs.DrawnLists

/-! The tree of a document is drawn in the order of its walk. Each routine draws its parts in this
order, so the induction follows the nesting of nodes, entries and cells. -/

namespace DocPress

set_option autoImplicit false

variable {P : Palette} {s : Scene}

/-! ### Stretches of a walk -/

namespace Node

variable (n : Node)

theorem content_within :
    (dataOf? n.text ++ dataOf n.blocks).Sublist (n.walk.map Node.data) := by
  rw [walk_data]
  refine List.Sublist.cons _ ?_
  simp only [List.append_assoc]
  refine (List.Sublist.append_left ?_ _).trans (List.sublist_append_right _ _)
  exact (List.sublist_append_left _ _).trans ((List.sublist_append_right _ _).trans
    (List.sublist_append_right _ _))

theorem title_within : (dataOf? n.title).Sublist (n.walk.map Node.data) := by
  rw [walk_data]
  refine List.Sublist.cons _ ?_
  simp only [List.append_assoc]
  exact List.sublist_append_left _ _

theorem title_content_within : (dataOf? n.title ++ (dataOf? n.text ++ dataOf n.blocks)).Sublist
    (n.walk.map Node.data) := by
  rw [walk_data]
  refine List.Sublist.cons _ ?_
  simp only [List.append_assoc]
  refine List.Sublist.append_left (List.Sublist.append_left ?_ _) _
  exact (List.sublist_append_left _ _).trans ((List.sublist_append_right _ _).trans
    (List.sublist_append_right _ _))

theorem title_text_within :
    (dataOf? n.title ++ dataOf? n.text).Sublist (n.walk.map Node.data) :=
  (List.Sublist.append_left (List.sublist_append_left _ _) _).trans (title_content_within n)

theorem title_items_within :
    (dataOf? n.title ++ dataOf n.items).Sublist (n.walk.map Node.data) := by
  rw [walk_data]
  refine List.Sublist.cons _ ?_
  simp only [List.append_assoc]
  refine List.Sublist.append_left ?_ _
  exact (List.sublist_append_left _ _).trans (List.sublist_append_right _ _)

theorem title_entries_within :
    (dataOf? n.title ++ (walkEntries n.entries).map Node.data).Sublist (n.walk.map Node.data) := by
  rw [walk_data]
  refine List.Sublist.cons _ ?_
  simp only [List.append_assoc]
  refine List.Sublist.append_left ?_ _
  exact (List.sublist_append_left _ _).trans ((List.sublist_append_right _ _).trans
    (List.sublist_append_right _ _))

theorem title_table_within :
    (dataOf? n.title ++ (walkTable n.table).map Node.data).Sublist (n.walk.map Node.data) := by
  rw [walk_data]
  refine List.Sublist.cons _ ?_
  simp only [List.append_assoc]
  refine List.Sublist.append_left ?_ _
  exact (List.sublist_append_right _ _).trans ((List.sublist_append_right _ _).trans
    ((List.sublist_append_right _ _).trans (List.sublist_append_right _ _)))

variable {n}

theorem supplied_items (hn : SuppliedAll s P n.walk) : SuppliedAll s P (walkAll n.items) :=
  fun m hm => hn m (by rw [walk_eq]; simp [hm])

theorem supplied_entries (hn : SuppliedAll s P n.walk) : SuppliedAll s P (walkEntries n.entries) :=
  fun m hm => hn m (by rw [walk_eq]; simp [hm])

theorem supplied_blocks (hn : SuppliedAll s P n.walk) : SuppliedAll s P (walkAll n.blocks) :=
  fun m hm => hn m (by rw [walk_eq]; simp [hm])

theorem supplied_table (hn : SuppliedAll s P n.walk) : SuppliedAll s P (walkTable n.table) :=
  fun m hm => hn m (by rw [walk_eq]; simp [hm])

end Node

/-! ### The induction -/

open Block

theorem itemDrawn_of {n : Node} (hn : SuppliedAll s P n.walk) {blocks : Option (Rendered Markup)}
    (hb : ∀ r, blocks = some r → Drawn P.page (dataOf n.blocks) r.value) :
    ItemDrawn s P (n.walk.map Node.data) ⟨n.data, n.text, blocks⟩ :=
  ⟨(Node.supplied_self hn).id, Node.supplied_text hn, _, Node.content_within n, hb⟩

theorem groupDrawn_alone {terms : List Node} (h : SuppliedAll s P (Node.walkAll terms)) :
    GroupDrawn s P (dataOf terms) ⟨terms, none⟩ :=
  ⟨h, [], (List.append_nil (dataOf terms)).symm ▸ List.Sublist.refl _, fun _ hi => nomatch hi⟩

theorem groupDrawn_described {terms : List Node} (h : SuppliedAll s P (Node.walkAll terms))
    {ds : List NodeData} {i : Item} (hi : ItemDrawn s P ds i) :
    GroupDrawn s P (dataOf terms ++ ds) ⟨terms, some i⟩ :=
  ⟨h, ds, List.Sublist.refl _, fun _ hj => Option.some.inj hj ▸ hi⟩

/-- A node is drawn by the rules of its kind once its groups of children are. -/
theorem blockAs_drawn_of (hs : s.Supplied P) {n : Node} (hn : SuppliedAll s P n.walk)
    (parent : Option Parent)
    (hcontent : Drawn P.page (dataOf? n.text ++ dataOf n.blocks)
      (content s n.data n.text n.blocks).value)
    (hitems : Each (ItemDrawn s P) (dataOf n.items) (itemsOf s n.items))
    (hgroups : Each (GroupDrawn s P) ((Node.walkEntries n.entries).map Node.data)
      (groupsOf s n.entries))
    (hgrid : ∀ g, gridOf s n.data.asParent n.table = some g →
      GridDrawn s P ((Node.walkTable n.table).map Node.data) g)
    (hblocks : ∀ r, blocksOf? s n.data.asParent n.blocks = some r →
      Drawn P.page (dataOf n.blocks) r.value) :
    Drawn P.page (n.walk.map Node.data) (blockAs s n.data.kind parent n).value := by
  have alone : ∀ {m : Markup}, Drawn P.page [] m → Drawn P.page (n.walk.map Node.data) m :=
    fun hm => hm.within (List.nil_sublist _)
  have around : ∀ {m : Markup}, Drawn P.page
      (dataOf? n.title ++ (dataOf? n.text ++ dataOf n.blocks)) m →
        Drawn P.page (n.walk.map Node.data) m := fun hm => hm.within (Node.title_content_within n)
  have titled : ∀ {m : Markup}, Drawn P.page (dataOf? n.title) m →
      Drawn P.page (n.walk.map Node.data) m := fun hm => hm.within (Node.title_within n)
  have listed : ∀ {m : Markup}, Drawn P.page (dataOf? n.title ++ dataOf n.items) m →
      Drawn P.page (n.walk.map Node.data) m := fun hm => hm.within (Node.title_items_within n)
  have lined : ∀ {m : Markup}, Drawn P.page (dataOf? n.title ++ dataOf? n.text) m →
      Drawn P.page (n.walk.map Node.data) m := fun hm => hm.within (Node.title_text_within n)
  have only : Drawn P.page (n.walk.map Node.data) (content s n.data n.text n.blocks).value :=
    hcontent.within (Node.content_within n)
  have hpass : n.kind = .pass → ∀ x, n.source = some x → P.page.text x :=
    fun hk x hx => P.le_page.text ((Node.supplied_self hn).pass hk x hx)
  have hitem := itemDrawn_of hn hblocks
  obtain ⟨d, title, text, items, entries, blocks, table⟩ := n
  change Drawn P.page _ (blockAs s d.kind parent _).value
  generalize hk : d.kind = kind
  unfold blockAs
  cases kind with
  | document => exact only
  | preamble => exact only
  | «section» => exact around (sectionBlock_drawn hs hn hcontent hk)
  | paragraph => exact around (paragraph_drawn hs hn hcontent)
  | admonition => exact around (admonition_drawn hs hn hcontent)
  | audio => exact titled (audio_drawn hs hn)
  | colist => exact listed (calloutList_drawn hs hn hitems)
  | dlist =>
    exact (descriptionList_drawn hs hn hgroups).within (Node.title_entries_within _)
  | exampleBlock => exact around (exampleBlock_drawn hs hn hcontent)
  | floatingTitle => exact titled (floatingTitle_drawn hs hn)
  | image => exact titled (image_drawn hs hn hk)
  | listing => exact lined (listing_drawn hs hn hk)
  | literal => exact lined (literalBlock_drawn hs hn)
  | stem => exact lined (stem_drawn hs hn)
  | olist => exact listed (orderedList_drawn hs hn hitems)
  | openBlock => exact around (openBlock_drawn hs hn hcontent parent)
  | pageBreak => exact alone (.box (by simp) (by decide) .nil)
  | pass =>
    simp only
    split
    · rename_i source hsource
      exact alone (.raw (hpass hk source hsource))
    · exact only
  | quote => exact around (quote_drawn hs hn hcontent)
  | sidebar => exact around (sidebar_drawn hs hn hcontent)
  | table => exact (table_drawn hs hn hgrid).within (Node.title_table_within _)
  | thematicBreak => exact alone (.void (by simp))
  | ulist => exact listed (unorderedList_drawn hs hn hitems)
  | verse => exact lined (verse_drawn hs hn)
  | video => exact titled (video_drawn hs hn)
  | listItem => exact .lines (hitem.body hs)
  | _ => exact alone .nil

mutual

theorem blockAs_drawn (hs : s.Supplied P) : ∀ (n : Node) (parent : Option Parent),
    SuppliedAll s P n.walk →
      Drawn P.page (n.walk.map Node.data) (blockAs s n.data.kind parent n).value
  | ⟨d, _, text, items, entries, blocks, table⟩, parent => fun hn =>
    -- The recursion is that of the renderer: every group of children is rendered before its node.
    blockAs_drawn_of hs hn parent
      (content_drawn hs d text blocks (Node.supplied_text hn) (Node.supplied_blocks hn))
      (itemsOf_each hs items (Node.supplied_items hn))
      (groupsOf_each hs entries (Node.supplied_entries hn))
      (gridOf_drawn hs d.asParent table (Node.supplied_table hn))
      (blocksOf?_drawn hs d.asParent blocks (Node.supplied_blocks hn))

theorem siblings_drawn (hs : s.Supplied P) : ∀ (ns : List Node) (parent : Option Parent),
    SuppliedAll s P (Node.walkAll ns) →
      Drawn P.page (dataOf ns) (siblings s parent ns).value.flatten
  | [], _ => fun _ => .nil
  | n :: ns, parent => fun h => by
    simp only [Node.walkAll, SuppliedAll, List.forall_mem_append] at h
    simp only [dataOf, Node.walkAll, List.map_append, siblings, Rendered.value_bind,
      Rendered.value_pure]
    exact .partCons (blockAs_drawn hs n parent h.1) (siblings_drawn hs ns parent h.2)

theorem content_drawn (hs : s.Supplied P) (d : NodeData) (text : Option (List Node)) :
    ∀ blocks : List Node, SuppliedAll s P (Node.walkOpt text) →
      SuppliedAll s P (Node.walkAll blocks) →
        Drawn P.page (dataOf? text ++ dataOf blocks) (content s d text blocks).value
  | [] => fun ht _ => by
    have htext := inlineContent_drawn P.le_words (Reference.wording_worded hs) d text ht.inText
    exact (htext.mono P.words_le_page).within (List.sublist_append_left _ _)
  | b :: bs => fun _ h => by
    simp only [Node.walkAll, SuppliedAll, List.forall_mem_append] at h
    have hparts := Drawn.partCons (blockAs_drawn hs b (some d.asParent) h.1)
      (siblings_drawn hs bs (some d.asParent) h.2)
    rw [← List.map_append] at hparts
    exact (Drawn.lines hparts).within (List.sublist_append_right _ _)

theorem blocksOf?_drawn (hs : s.Supplied P) (parent : Parent) : ∀ blocks : List Node,
    SuppliedAll s P (Node.walkAll blocks) →
      ∀ r, blocksOf? s parent blocks = some r → Drawn P.page (dataOf blocks) r.value
  | [] => fun _ _ hr => absurd hr nofun
  | b :: bs => fun h r hr => by
    simp only [Node.walkAll, SuppliedAll, List.forall_mem_append] at h
    have hparts := Drawn.partCons (blockAs_drawn hs b (some parent) h.1)
      (siblings_drawn hs bs (some parent) h.2)
    rw [← List.map_append] at hparts
    obtain rfl := Option.some.inj hr
    exact .lines hparts

theorem itemsOf_each (hs : s.Supplied P) : ∀ items : List Node,
    SuppliedAll s P (Node.walkAll items) → Each (ItemDrawn s P) (dataOf items) (itemsOf s items)
  | [] => fun _ => .nil
  | ⟨d, title, text, items, entries, blocks, table⟩ :: rest => fun h => by
    simp only [Node.walkAll, SuppliedAll, List.forall_mem_append] at h
    have hitem := itemDrawn_of h.1 (blocksOf?_drawn hs d.asParent blocks (Node.supplied_blocks h.1))
    rw [dataOf, Node.walkAll, List.map_append]
    exact .cons hitem (itemsOf_each hs rest h.2)

theorem groupsOf_each (hs : s.Supplied P) : ∀ entries : List (Entry Node),
    SuppliedAll s P (Node.walkEntries entries) →
      Each (GroupDrawn s P) ((Node.walkEntries entries).map Node.data) (groupsOf s entries)
  | [] => fun _ => .nil
  | ⟨terms, none⟩ :: rest => fun h => by
    simp only [Node.walkEntries, SuppliedAll, List.forall_mem_append] at h
    rw [Node.walkEntries, List.map_append]
    exact .cons (groupDrawn_alone h.1) (groupsOf_each hs rest h.2)
  | ⟨terms, some ⟨d, title, text, items, entries, blocks, table⟩⟩ :: rest => fun h => by
    simp only [Node.walkEntries, SuppliedAll, List.forall_mem_append] at h
    have hitem :=
      itemDrawn_of h.1.2 (blocksOf?_drawn hs d.asParent blocks (Node.supplied_blocks h.1.2))
    rw [Node.walkEntries, List.map_append, List.map_append]
    exact .cons (groupDrawn_described h.1.1 hitem) (groupsOf_each hs rest h.2)

theorem gridOf_drawn (hs : s.Supplied P) (parent : Parent) : ∀ table : Option (Table Node),
    SuppliedAll s P (Node.walkTable table) → ∀ g, gridOf s parent table = some g →
      GridDrawn s P ((Node.walkTable table).map Node.data) g
  | none => fun _ _ hg => absurd hg nofun
  | some ⟨columns, head, body, foot⟩ => fun h g hg => by
    simp only [Node.walkTable, SuppliedAll, List.forall_mem_append] at h
    obtain rfl := Option.some.inj hg
    exact ⟨_, _, _, by rw [Node.walkTable, List.map_append, List.map_append],
      rowsOf_each hs parent head h.1.1, rowsOf_each hs parent body h.1.2,
      rowsOf_each hs parent foot h.2⟩

theorem rowsOf_each (hs : s.Supplied P) (parent : Parent) : ∀ rows : List (List (Cell Node)),
    SuppliedAll s P (Node.walkRows rows) →
      RowsDrawn s P ((Node.walkRows rows).map Node.data) (rowsOf s parent rows)
  | [] => fun _ => .nil
  | r :: rs => fun h => by
    simp only [Node.walkRows, SuppliedAll, List.forall_mem_append] at h
    rw [Node.walkRows, List.map_append]
    exact .cons (rowOf_each hs parent r h.1) (rowsOf_each hs parent rs h.2)

theorem rowOf_each (hs : s.Supplied P) (parent : Parent) : ∀ row : List (Cell Node),
    SuppliedAll s P (Node.walkRow row) →
      Each (CellDrawn s P) ((Node.walkRow row).map Node.data) (rowOf s parent row)
  | [] => fun _ => .nil
  | ⟨style, paragraphs, blocks, source, colspan, rowspan, halign, valign⟩ :: cs => fun h => by
    simp only [Node.walkRow, SuppliedAll, List.forall_mem_append] at h
    rw [Node.walkRow, List.map_append, List.map_append]
    refine .cons ⟨h.1.1, _, List.Sublist.refl _, ?_⟩ (rowOf_each hs parent cs h.2)
    exact .lines (siblings_drawn hs blocks (some parent) h.1.2)

end

/-- Blocks below a node are drawn from their walk. -/
theorem blocksIn_drawn (hs : s.Supplied P) (parent : Option Parent) {ns : List Node}
    (h : SuppliedAll s P (Node.walkAll ns)) :
    Drawn P.page (dataOf ns) (blocksIn s parent ns).value :=
  .lines (siblings_drawn hs ns parent h)

end DocPress
