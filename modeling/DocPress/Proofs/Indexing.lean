import DocPress.Proofs.Drawn
import DocPress.Proofs.Preparation

/-! The numbers of a prepared tree. Definitions are numbered from one in the order of the walk,
every reference back has the number of a definition, and completing references changes neither. -/

namespace DocPress

set_option autoImplicit false

/-! ### Maps along a walk -/

namespace Node

variable {β : Type} {h : NodeData → Option β} {g : Node → Node}

mutual

/-- A change of nodes that keeps what is read of each keeps what is read of a tree. -/
theorem map_readAll (hg : ∀ n : Node, readAll h (g n).walk = readAll h n.walk) : ∀ n : Node,
    readAll h (map g n).walk = readAll h n.walk
  | ⟨data, title, text, items, entries, blocks, table⟩ => by
    have hself : ∀ (n : Node) (rest : List Node),
        readAll h (n :: rest) = readAll h [n] ++ readAll h rest := fun n rest =>
      readAll_append h [n] rest
    rw [map, hg, walk_eq, walk_eq ⟨data, title, text, items, entries, blocks, table⟩, hself,
      hself ⟨data, title, text, items, entries, blocks, table⟩]
    simp only [readAll_append, mapOpt_readAll hg title, mapOpt_readAll hg text,
      mapAll_readAll hg items, mapEntries_readAll hg entries, mapAll_readAll hg blocks,
      mapTable_readAll hg table]
    rfl

theorem mapAll_readAll (hg : ∀ n : Node, readAll h (g n).walk = readAll h n.walk) :
    ∀ ns : List Node, readAll h (walkAll (mapAll g ns)) = readAll h (walkAll ns)
  | [] => rfl
  | n :: ns => by
    simp only [mapAll, walkAll, readAll_append, map_readAll hg n, mapAll_readAll hg ns]

theorem mapOpt_readAll (hg : ∀ n : Node, readAll h (g n).walk = readAll h n.walk) :
    ∀ ns : Option (List Node), readAll h (walkOpt (mapOpt g ns)) = readAll h (walkOpt ns)
  | none => rfl
  | some ns => mapAll_readAll hg ns

theorem mapEntries_readAll (hg : ∀ n : Node, readAll h (g n).walk = readAll h n.walk) :
    ∀ es : List (Entry Node),
      readAll h (walkEntries (mapEntries g es)) = readAll h (walkEntries es)
  | [] => rfl
  | ⟨terms, none⟩ :: es => by
    simp only [mapEntries, walkEntries, readAll_append, mapAll_readAll hg terms,
      mapEntries_readAll hg es]
  | ⟨terms, some d⟩ :: es => by
    simp only [mapEntries, walkEntries, readAll_append, mapAll_readAll hg terms, map_readAll hg d,
      mapEntries_readAll hg es]

theorem mapTable_readAll (hg : ∀ n : Node, readAll h (g n).walk = readAll h n.walk) :
    ∀ t : Option (Table Node), readAll h (walkTable (mapTable g t)) = readAll h (walkTable t)
  | none => rfl
  | some ⟨_, head, body, foot⟩ => by
    simp only [mapTable, walkTable, readAll_append, mapRows_readAll hg head,
      mapRows_readAll hg body, mapRows_readAll hg foot]

theorem mapRows_readAll (hg : ∀ n : Node, readAll h (g n).walk = readAll h n.walk) :
    ∀ rs : List (List (Cell Node)), readAll h (walkRows (mapRows g rs)) = readAll h (walkRows rs)
  | [] => rfl
  | r :: rs => by
    simp only [mapRows, walkRows, readAll_append, mapRow_readAll hg r, mapRows_readAll hg rs]

theorem mapRow_readAll (hg : ∀ n : Node, readAll h (g n).walk = readAll h n.walk) :
    ∀ cs : List (Cell Node), readAll h (walkRow (mapRow g cs)) = readAll h (walkRow cs)
  | [] => rfl
  | ⟨_, paragraphs, blocks, _, _, _, _, _⟩ :: cs => by
    simp only [mapRow, walkRow, readAll_append, mapParagraphs_readAll hg paragraphs,
      mapAll_readAll hg blocks, mapRow_readAll hg cs]

theorem mapParagraphs_readAll (hg : ∀ n : Node, readAll h (g n).walk = readAll h n.walk) :
    ∀ ps : List (List Node),
      readAll h (walkParagraphs (mapParagraphs g ps)) = readAll h (walkParagraphs ps)
  | [] => rfl
  | p :: ps => by
    simp only [mapParagraphs, walkParagraphs, readAll_append, mapAll_readAll hg p,
      mapParagraphs_readAll hg ps]

end

/-- Completing references keeps what is read of footnotes: it puts plain text where none was. -/
theorem showUnresolved_readAll (hplain : ∀ id, h (Node.plain id).data = none) (n : Node) :
    readAll h (showUnresolved n).walk = readAll h n.walk := by
  rcases showUnresolved_cases n with hn | ⟨hblank, id, hn⟩
  · rw [hn]
  · have htext : walkOpt n.text = [] := by
      unfold hasText at hblank
      match n.text, hblank with
      | none, _ => rfl
      | some [], _ => rfl
    have hshown : readAll h (walkOpt (some [.plain id])) = [] := by
      change [(Node.plain id).data].filterMap h = []
      rw [List.filterMap_cons, hplain]
      rfl
    have hself : ∀ (m : Node) (rest : List Node),
        readAll h (m :: rest) = readAll h [m] ++ readAll h rest := fun m rest =>
      readAll_append h [m] rest
    rw [hn, walk_eq, walk_eq n, hself, hself n]
    simp only [readAll_append, htext, hshown]
    rfl

end Node

/-! ### Numbers along a visit -/

/-- A number as it stands in an attribute. -/
def decimal (n : Nat) : List Char := (toString n).toList

theorem markNumber?_plain (id : String) : (Node.plain id).data.markNumber? = none := rfl

/-- A definition gets the next number; any other node marks nothing. -/
theorem markNumber?_indexFootnote (n : Node) (footnotes : List Footnote) :
    (indexFootnote n footnotes).1.markNumber? =
      if n.definesFootnote then some (decimal (footnotes.length + 1)) else none := by
  obtain ⟨attributes, hs⟩ := indexFootnote_same n footnotes
  have hkind : (indexFootnote n footnotes).1.kind = n.kind := by rw [hs]
  have hvariant : (indexFootnote n footnotes).1.variant = n.variant := by rw [hs]
  simp only [NodeData.markNumber?, hkind, hvariant]
  by_cases hd : n.definesFootnote
  · have h : n.isFootnote = true ∧ n.variant ≠ some "xref" := by
      simpa [Node.definesFootnote] using hd
    have hk : n.kind = .inlineFootnote := by simpa [Node.isFootnote] using h.1
    rw [if_pos ⟨hk, h.2⟩, if_pos hd, indexFootnote_data, if_neg (by simp [h.1]), if_neg h.2,
      NodeData.attr?_withIndex]
    rfl
  · rw [if_neg hd, if_neg]
    rintro ⟨hk, hv⟩
    exact hd (by simp [Node.definesFootnote, Node.isFootnote, hk, hv])

theorem length_indexFootnote (n : Node) (footnotes : List Footnote) :
    (indexFootnote n footnotes).2.length =
      footnotes.length + if n.definesFootnote then 1 else 0 := by
  rw [indexFootnote_state]
  split
  · rw [List.length_append, List.length_singleton]
  · rfl

/-- Along a list, definitions are numbered one after the other. -/
theorem numbersOf_scan (ns : List Node) (footnotes : List Footnote) :
    ∃ k, (Node.scan indexFootnote ns footnotes).2.length = footnotes.length + k ∧
      numbersOf (Node.scan indexFootnote ns footnotes).1 =
        (List.range' (footnotes.length + 1) k).map decimal := by
  induction ns generalizing footnotes with
  | nil => exact ⟨0, rfl, rfl⟩
  | cons n ns ih =>
    obtain ⟨k, hlength, hnumbers⟩ := ih (indexFootnote n footnotes).2
    simp only [Node.scan, numbersOf, List.filterMap_cons, markNumber?_indexFootnote] at hnumbers ⊢
    rw [length_indexFootnote] at hlength hnumbers
    by_cases hd : n.definesFootnote
    · rw [if_pos hd] at hlength hnumbers ⊢
      refine ⟨k + 1, by rw [hlength]; omega, ?_⟩
      simp only [hnumbers, List.range'_succ, List.map_cons]
    · rw [if_neg hd] at hlength hnumbers ⊢
      exact ⟨k, hlength, hnumbers⟩

theorem findFootnote_index {footnotes : List Footnote} (h : InOrder footnotes) {id : String}
    {f : Footnote} (hf : findFootnote id footnotes = some f) :
    1 ≤ f.index ∧ f.index ≤ footnotes.length := by
  have hm := List.mem_map_of_mem (f := Footnote.index) (List.mem_of_find?_eq_some hf)
  rw [h, List.mem_range'_1] at hm
  omega

/-- Every number that indexing leaves is the number of a definition, one of those met so far. -/
theorem index_indexFootnote {n : Node} {footnotes : List Footnote} (h : InOrder footnotes)
    (hk : n.kind = .inlineFootnote) {x : String}
    (hx : (indexFootnote n footnotes).1.attr? indexName = some x) :
    ∃ i, 1 ≤ i ∧ i ≤ (indexFootnote n footnotes).2.length ∧ x = toString i := by
  have hfoot : n.isFootnote = true := by simp [Node.isFootnote, hk]
  rw [indexFootnote_data, if_neg (by simp [hfoot])] at hx
  rw [length_indexFootnote]
  split at hx
  · rename_i hv
    cases hr : n.footnoteRefId with
    | none =>
      simp [hr, NodeData.attr?_withoutIndex] at hx
    | some id =>
      cases hf : findFootnote id footnotes with
      | none => simp [hr, hf, NodeData.attr?_withoutIndex] at hx
      | some f =>
        have hx' : some (toString f.index) = some x := by
          simpa [hr, hf, NodeData.attr?_withIndex] using hx
        have hi := findFootnote_index h hf
        exact ⟨f.index, hi.1, by omega, (Option.some.inj hx').symm⟩
  · rename_i hv
    rw [NodeData.attr?_withIndex] at hx
    have hd : n.definesFootnote = true := by simp [Node.definesFootnote, hfoot, hv]
    have hone : (if n.definesFootnote then 1 else 0) = 1 := if_pos hd
    exact ⟨footnotes.length + 1, by omega, by omega, (Option.some.inj hx).symm⟩

theorem length_le_scan (ns : List Node) (footnotes : List Footnote) :
    footnotes.length ≤ (Node.scan indexFootnote ns footnotes).2.length := by
  obtain ⟨k, hk, _⟩ := numbersOf_scan ns footnotes
  omega

theorem index_scan {ns : List Node} {footnotes : List Footnote} (h : InOrder footnotes) :
    ∀ d ∈ (Node.scan indexFootnote ns footnotes).1, d.kind = .inlineFootnote →
      ∀ x, d.attr? indexName = some x →
        ∃ i, 1 ≤ i ∧ i ≤ (Node.scan indexFootnote ns footnotes).2.length ∧ x = toString i := by
  induction ns generalizing footnotes with
  | nil =>
    intro d hd
    cases hd
  | cons n ns ih =>
    intro d hd hk x hx
    have hcons : (Node.scan indexFootnote (n :: ns) footnotes).1 = (indexFootnote n footnotes).1 ::
        (Node.scan indexFootnote ns (indexFootnote n footnotes).2).1 := rfl
    rw [hcons] at hd
    rcases List.mem_cons.1 hd with he | hd
    · rw [he] at hk hx
      have hkind : n.kind = .inlineFootnote := by
        obtain ⟨attributes, hs⟩ := indexFootnote_same n footnotes
        rw [hs] at hk
        exact hk
      obtain ⟨i, h1, hi, rfl⟩ := index_indexFootnote h hkind hx
      exact ⟨i, h1, Nat.le_trans hi (length_le_scan ns _), rfl⟩
    · exact ih (h.step n) d hd hk x hx

/-! ### Prepared trees -/

theorem scan_length (root : Node) :
    (Node.scan indexFootnote root.walk []).2.length = (indexFootnotes root).2.length := by
  have hstate : (indexFootnotes root).2 = (root.visit indexFootnote []).2 := rfl
  rw [hstate, Node.visit_state, Node.scan_state]

theorem inOrder_indexFootnotes (root : Node) : InOrder (indexFootnotes root).2 := by
  have hstate : (indexFootnotes root).2 = (root.visit indexFootnote []).2 := rfl
  rw [hstate, Node.visit_state]
  exact InOrder.fold root.walk rfl

/-- Along a list, what is read without a look at attributes stays what it was. -/
theorem readAll_scan {β : Type} {h : NodeData → Option β}
    (hkept : ∀ (d : NodeData) (attributes : Attributes),
      h { d with attributes := attributes } = h d) (ns : List Node) (footnotes : List Footnote) :
    (Node.scan indexFootnote ns footnotes).1.filterMap h = Node.readAll h ns := by
  induction ns generalizing footnotes with
  | nil => rfl
  | cons n ns ih =>
    obtain ⟨attributes, hs⟩ := indexFootnote_same n footnotes
    simp only [Node.scan, Node.readAll, List.map_cons, List.filterMap_cons, hs, hkept] at ih ⊢
    rw [ih]

theorem readAll_indexFootnotes {β : Type} {h : NodeData → Option β}
    (hplain : ∀ id, h (Node.plain id).data = none) (root : Node) :
    Node.readAll h (indexFootnotes root).1.walk =
      (Node.scan indexFootnote root.walk []).1.filterMap h := by
  have hroot : (indexFootnotes root).1 =
      Node.map showUnresolved (root.visit indexFootnote []).1 := rfl
  rw [hroot, Node.map_readAll (Node.showUnresolved_readAll hplain), Node.readAll, Node.walk_visit]

/-- The definitions of an indexed tree have the numbers from one on, in the order of the walk. -/
theorem numbersOf_indexFootnotes (root : Node) :
    numbersOf ((indexFootnotes root).1.walk.map Node.data) =
      (List.range' 1 (indexFootnotes root).2.length).map decimal := by
  obtain ⟨k, hlength, hnumbers⟩ := numbersOf_scan root.walk []
  rw [scan_length, List.length_nil, Nat.zero_add] at hlength
  have hread := readAll_indexFootnotes markNumber?_plain root
  rw [hlength]
  exact hread.trans hnumbers

/-- The number of a footnote in an indexed tree is that of a definition. -/
theorem index_indexFootnotes (root : Node) {n : Node} (hn : n ∈ (indexFootnotes root).1.walk)
    (hk : n.kind = .inlineFootnote) {x : String} (hx : n.attr? indexName = some x) :
    ∃ i, 1 ≤ i ∧ i ≤ (indexFootnotes root).2.length ∧ x = toString i := by
  have hread := readAll_indexFootnotes
    (h := fun d => if d.kind = .inlineFootnote then some d else none) (fun _ => rfl) root
  have hmem : n.data ∈ (Node.scan indexFootnote root.walk []).1.filterMap
      fun d => if d.kind = .inlineFootnote then some d else none := by
    rw [← hread]
    exact List.mem_filterMap.2 ⟨n.data, List.mem_map_of_mem hn, if_pos hk⟩
  obtain ⟨d, hd, hsome⟩ := List.mem_filterMap.1 hmem
  split at hsome
  · obtain rfl := Option.some.inj hsome
    rw [← scan_length]
    have hempty : InOrder [] := rfl
    exact index_scan hempty n.data hd hk x hx
  · exact absurd hsome nofun

/-! ### Targets of references -/

namespace Node

mutual

theorem walk_subset : ∀ r : Node, ∀ m ∈ r.walk, m.walk ⊆ r.walk
  | ⟨data, title, text, items, entries, blocks, table⟩, m, hm => by
    have hwalk := walk_eq ⟨data, title, text, items, entries, blocks, table⟩
    rw [hwalk] at hm
    rcases List.mem_cons.1 hm with rfl | hm
    · exact fun _ h => h
    · rw [hwalk]
      refine fun k hk => List.mem_cons_of_mem _ ?_
      simp only [List.mem_append] at hm ⊢
      rcases hm with ((((h | h) | h) | h) | h) | h
      · exact .inl (.inl (.inl (.inl (.inl (walkOpt_subset title m h hk)))))
      · exact .inl (.inl (.inl (.inl (.inr (walkOpt_subset text m h hk)))))
      · exact .inl (.inl (.inl (.inr (walkAll_subset items m h hk))))
      · exact .inl (.inl (.inr (walkEntries_subset entries m h hk)))
      · exact .inl (.inr (walkAll_subset blocks m h hk))
      · exact .inr (walkTable_subset table m h hk)

theorem walkAll_subset : ∀ ns : List Node, ∀ m ∈ walkAll ns, m.walk ⊆ walkAll ns
  | [], _, hm => absurd hm nofun
  | n :: ns, m, hm => by
    rcases List.mem_append.1 hm with h | h
    · exact fun k hk => List.mem_append_left _ (walk_subset n m h hk)
    · exact fun k hk => List.mem_append_right _ (walkAll_subset ns m h hk)

theorem walkOpt_subset : ∀ ns : Option (List Node), ∀ m ∈ walkOpt ns, m.walk ⊆ walkOpt ns
  | none, _, hm => absurd hm nofun
  | some ns, m, hm => walkAll_subset ns m hm

theorem walkEntries_subset : ∀ es : List (Entry Node), ∀ m ∈ walkEntries es,
    m.walk ⊆ walkEntries es
  | [], _, hm => absurd hm nofun
  | ⟨terms, none⟩ :: es, m, hm => by
    rcases List.mem_append.1 hm with h | h
    · exact fun k hk => List.mem_append_left _ (walkAll_subset terms m h hk)
    · exact fun k hk => List.mem_append_right _ (walkEntries_subset es m h hk)
  | ⟨terms, some d⟩ :: es, m, hm => by
    rcases List.mem_append.1 hm with h | h
    · rcases List.mem_append.1 h with h | h
      · exact fun k hk =>
          List.mem_append_left _ (List.mem_append_left _ (walkAll_subset terms m h hk))
      · exact fun k hk => List.mem_append_left _ (List.mem_append_right _ (walk_subset d m h hk))
    · exact fun k hk => List.mem_append_right _ (walkEntries_subset es m h hk)

theorem walkTable_subset : ∀ t : Option (Table Node), ∀ m ∈ walkTable t, m.walk ⊆ walkTable t
  | none, _, hm => absurd hm nofun
  | some ⟨_, head, body, foot⟩, m, hm => by
    rcases List.mem_append.1 hm with h | h
    · rcases List.mem_append.1 h with h | h
      · exact fun k hk =>
          List.mem_append_left _ (List.mem_append_left _ (walkRows_subset head m h hk))
      · exact fun k hk =>
          List.mem_append_left _ (List.mem_append_right _ (walkRows_subset body m h hk))
    · exact fun k hk => List.mem_append_right _ (walkRows_subset foot m h hk)

theorem walkRows_subset : ∀ rs : List (List (Cell Node)), ∀ m ∈ walkRows rs, m.walk ⊆ walkRows rs
  | [], _, hm => absurd hm nofun
  | r :: rs, m, hm => by
    rcases List.mem_append.1 hm with h | h
    · exact fun k hk => List.mem_append_left _ (walkRow_subset r m h hk)
    · exact fun k hk => List.mem_append_right _ (walkRows_subset rs m h hk)

theorem walkRow_subset : ∀ cs : List (Cell Node), ∀ m ∈ walkRow cs, m.walk ⊆ walkRow cs
  | [], _, hm => absurd hm nofun
  | ⟨_, paragraphs, blocks, _, _, _, _, _⟩ :: cs, m, hm => by
    rcases List.mem_append.1 hm with h | h
    · rcases List.mem_append.1 h with h | h
      · exact fun k hk => List.mem_append_left _
          (List.mem_append_left _ (walkParagraphs_subset paragraphs m h hk))
      · exact fun k hk => List.mem_append_left _
          (List.mem_append_right _ (walkAll_subset blocks m h hk))
    · exact fun k hk => List.mem_append_right _ (walkRow_subset cs m h hk)

theorem walkParagraphs_subset : ∀ ps : List (List Node), ∀ m ∈ walkParagraphs ps,
    m.walk ⊆ walkParagraphs ps
  | [], _, hm => absurd hm nofun
  | p :: ps, m, hm => by
    rcases List.mem_append.1 hm with h | h
    · exact fun k hk => List.mem_append_left _ (walkAll_subset p m h hk)
    · exact fun k hk => List.mem_append_right _ (walkParagraphs_subset ps m h hk)

end

end Node

theorem registerRef_fold (ns : List Node) (refs : SortedMap RefTarget) {id : String} {t : RefTarget}
    (h : (ns.foldl registerRef refs).get? id = some t) :
    refs.get? id = some t ∨ ∃ n ∈ ns, t = .ofNode id n := by
  induction ns generalizing refs with
  | nil => exact .inl h
  | cons n ns ih =>
    rcases ih (registerRef refs n) h with h | ⟨m, hm, ht⟩
    · unfold registerRef at h
      split at h
      · split at h
        · rw [SortedMap.get?_insert] at h
          split at h
          · rename_i he
            subst he
            exact .inr ⟨n, List.mem_cons_self, (Option.some.inj h).symm⟩
          · exact .inl h
        · exact .inl h
      · exact .inl h
    · exact .inr ⟨m, List.mem_cons_of_mem n hm, ht⟩

/-- A node in the title of a target of a prepared document is one of its header or of its tree. -/
theorem Document.target_prepared {defaults : SortedMap String} {d : Document} {id : String}
    {t : RefTarget} (ht : (d.prepareWith defaults).catalog.ref? id = some t) {n : Node}
    (hn : n ∈ Node.walkOpt t.title) : n ∈ (d.prepareWith defaults).registered := by
  have hrefs : (d.prepareWith defaults).catalog.ref? id =
      ((d.prepareWith defaults).registered.foldl registerRef ∅).get? id := rfl
  rw [hrefs] at ht
  rcases registerRef_fold _ _ ht with h | ⟨m, hm, rfl⟩
  · exact absurd h nofun
  · have htitle : n ∈ Node.walkOpt m.title := hn
    have hin : n ∈ m.walk := by
      rw [Node.walk_eq]
      simp [htitle]
    rcases List.mem_append.1 hm with h | h
    · exact List.mem_append_left _ (Node.walkAll_subset _ m h hin)
    · exact List.mem_append_right _ (Node.walk_subset _ m h hin)

end DocPress
