import DocPress.Document.Footnotes
import DocPress.Proofs.Refilling

/-! The footnotes that indexing collects, and indexing a tree whose footnotes are indexed already.
The catalog takes the text of a definition before the footnotes inside that text have their
numbers; the tree itself is settled after one run. -/

namespace DocPress

set_option autoImplicit false

/-- What references back to footnotes look at. -/
def Footnote.key (f : Footnote) : Nat × Option String := (f.index, f.id)

abbrev keysOf (footnotes : List Footnote) : List (Nat × Option String) :=
  footnotes.map Footnote.key

/-- The texts of the footnote definitions of a tree, in document order. -/
def Node.footnoteTexts (n : Node) : List Inlines :=
  (n.walk.filter Node.definesFootnote).map fun m => m.text.getD []

theorem SortedMap.erase_insert_erase {β : Type} (m : SortedMap β) (name : String) (v w : β) :
    (((m.erase name).insert name v).erase name).insert name w = (m.erase name).insert name w := by
  refine SortedMap.eq_of_get? fun other => ?_
  by_cases h : other = name <;> simp [h]

theorem SortedMap.erase_erase {β : Type} (m : SortedMap β) (name : String) :
    (m.erase name).erase name = m.erase name := by
  refine SortedMap.eq_of_get? fun other => ?_
  by_cases h : other = name <;> simp [h]

namespace NodeData

theorem reindex (d : NodeData) (i j : Nat) :
    ((d.withoutIndex.withIndex i).withoutIndex.withIndex j) = d.withoutIndex.withIndex j := by
  simp only [withIndex, withoutIndex, SortedMap.erase_insert_erase]

theorem withoutIndex_twice (d : NodeData) : d.withoutIndex.withoutIndex = d.withoutIndex := by
  simp only [withoutIndex, SortedMap.erase_erase]

theorem attr?_withIndex (d : NodeData) (i : Nat) :
    (d.withIndex i).attr? indexName = some (toString i) := by
  simp [withIndex, attr?, Attributes.text?, AttrValue.text?]

theorem attr?_withoutIndex (d : NodeData) : d.withoutIndex.attr? indexName = none := by
  simp [withoutIndex, attr?, Attributes.text?]

end NodeData

/-! ### Collecting -/

theorem indexFootnote_other {n : Node} (h : n.isFootnote = false) (footnotes : List Footnote) :
    indexFootnote n footnotes = (n.data, footnotes) := by
  simp [indexFootnote, h]

/-- A definition is collected behind the others; any other node collects nothing. -/
theorem indexFootnote_state (n : Node) (footnotes : List Footnote) :
    (indexFootnote n footnotes).2 =
      if n.definesFootnote then footnotes ++ [⟨footnotes.length + 1, n.id, n.text.getD []⟩]
      else footnotes := by
  by_cases hf : n.isFootnote
  · by_cases hv : n.variant = some "xref"
    · have hd : n.definesFootnote = false := by simp [Node.definesFootnote, hf, hv]
      rw [hd]
      simp only [indexFootnote, hf, hv]
      cases n.footnoteRefId.bind (findFootnote · footnotes) <;> rfl
    · have hd : n.definesFootnote = true := by simp [Node.definesFootnote, hf, hv]
      rw [hd]
      simp [indexFootnote, hf, hv]
  · have hd : n.definesFootnote = false := by simp [Node.definesFootnote, hf]
    rw [hd, indexFootnote_other (by simpa using hf)]
    rfl

theorem collected_texts (ns : List Node) (footnotes : List Footnote) :
    (ns.foldl (fun fs n => (indexFootnote n fs).2) footnotes).map Footnote.text =
      footnotes.map Footnote.text ++
        (ns.filter Node.definesFootnote).map fun m => m.text.getD [] := by
  induction ns generalizing footnotes with
  | nil => simp
  | cons n ns ih =>
    rw [List.foldl_cons, ih, indexFootnote_state]
    by_cases hd : n.definesFootnote
    · simp [hd]
    · simp [hd]

/-- Footnotes are collected with their texts as they stand before the visit. -/
theorem visit_texts (n : Node) :
    (n.visit indexFootnote []).2.map Footnote.text = n.footnoteTexts := by
  rw [Node.visit_state, collected_texts]
  rfl

/-- The numbers of collected footnotes are their places counted from one. -/
def InOrder (footnotes : List Footnote) : Prop :=
  footnotes.map Footnote.index = List.range' 1 footnotes.length

theorem InOrder.step {footnotes : List Footnote} (h : InOrder footnotes) (n : Node) :
    InOrder (indexFootnote n footnotes).2 := by
  rw [indexFootnote_state]
  by_cases hd : n.definesFootnote
  · rw [if_pos hd]
    unfold InOrder at h ⊢
    rw [List.map_append, h, List.length_append, List.length_singleton, List.range'_concat]
    simp [Nat.add_comm]
  · rw [if_neg hd]
    exact h

theorem InOrder.fold (ns : List Node) {footnotes : List Footnote} (h : InOrder footnotes) :
    InOrder (ns.foldl (fun fs n => (indexFootnote n fs).2) footnotes) := by
  induction ns generalizing footnotes with
  | nil => exact h
  | cons n ns ih => exact ih (h.step n)

/-! ### Indexing again -/

theorem findFootnote_key (id : String) {a b : List Footnote} (h : keysOf a = keysOf b) :
    (findFootnote id a).map Footnote.index = (findFootnote id b).map Footnote.index := by
  have find_key : ∀ fs : List Footnote, (findFootnote id fs).map Footnote.index =
      ((keysOf fs).find? fun k => k.2 == some id).map Prod.fst := by
    intro fs
    rw [findFootnote, keysOf, List.find?_map, Option.map_map]
    rfl
  rw [find_key, find_key, h]

theorem length_of_keysOf {a b : List Footnote} (h : keysOf a = keysOf b) :
    a.length = b.length := by
  simpa using congrArg List.length h

/-- What indexing does to data, from the data and the keys of the footnotes so far. -/
theorem indexFootnote_data (n : Node) (footnotes : List Footnote) :
    (indexFootnote n footnotes).1 =
      if !n.isFootnote then n.data
      else if n.variant = some "xref" then
        match n.footnoteRefId.bind fun id => (findFootnote id footnotes).map Footnote.index with
        | some index => n.data.withoutIndex.withIndex index
        | none => n.data.withoutIndex
      else n.data.withoutIndex.withIndex (footnotes.length + 1) := by
  unfold indexFootnote
  split
  · rfl
  · split
    · cases n.footnoteRefId with
      | none => rfl
      | some id => cases h : findFootnote id footnotes <;> simp [h]
    · rfl

theorem indexFootnote_same (n : Node) (footnotes : List Footnote) :
    ∃ attributes, (indexFootnote n footnotes).1 = { n.data with attributes := attributes } := by
  rw [indexFootnote_data]
  split
  · exact ⟨_, rfl⟩
  · split
    · split <;> exact ⟨_, rfl⟩
    · exact ⟨_, rfl⟩

/-- A node with the data that indexing left is left as it is by footnotes with the same keys. -/
theorem indexFootnote_again {n m : Node} {a b : List Footnote}
    (hd : m.data = (indexFootnote n a).1) (hk : keysOf b = keysOf a) :
    (indexFootnote m b).1 = m.data ∧
      keysOf (indexFootnote m b).2 = keysOf (indexFootnote n a).2 := by
  obtain ⟨attributes, hs⟩ := indexFootnote_same n a
  rw [hs] at hd
  have hkind : m.kind = n.kind := (congrArg NodeData.kind hd).trans rfl
  have hvar : m.variant = n.variant := (congrArg NodeData.variant hd).trans rfl
  have hid : m.id = n.id := (congrArg NodeData.id hd).trans rfl
  have htarget : m.target = n.target := (congrArg NodeData.target hd).trans rfl
  have hfoot : m.isFootnote = n.isFootnote := by rw [Node.isFootnote, hkind, Node.isFootnote]
  have href : m.footnoteRefId = n.footnoteRefId := by
    rw [Node.footnoteRefId, htarget, hid, Node.footnoteRefId]
  have hdef : m.definesFootnote = n.definesFootnote := by
    simp only [Node.definesFootnote, hfoot, hvar]
  have hlen := length_of_keysOf hk
  constructor
  · have hfind : (fun id => (findFootnote id b).map Footnote.index) =
        fun id => (findFootnote id a).map Footnote.index :=
      funext fun id => findFootnote_key id hk
    rw [indexFootnote_data m b, hfoot, hvar, href, hlen, hfind, hd, ← hs, indexFootnote_data n a]
    split
    · rfl
    · split
      · split
        · exact NodeData.reindex _ _ _
        · exact NodeData.withoutIndex_twice _
      · exact NodeData.reindex _ _ _
  · rw [indexFootnote_state, indexFootnote_state, hdef, hid, hlen]
    split
    · simp [hk, Footnote.key]
    · exact hk

/-! ### The settled tree -/

theorem showUnresolved_cases (n : Node) :
    showUnresolved n = n ∨
      n.hasText = false ∧ ∃ id, showUnresolved n = { n with text := some [.plain id] } := by
  unfold showUnresolved
  split
  · rename_i h
    have ht : n.hasText = false := by simpa using (Bool.and_eq_true_iff.1 h).2
    split
    · exact .inr ⟨ht, _, rfl⟩
    · exact .inl rfl
  · exact .inl rfl

theorem finishes_showUnresolved : Node.Finishes showUnresolved := by
  intro m h1 h2 h3 h4 h5 h6
  obtain ⟨data, title, text, items, entries, blocks, table⟩ := m
  rcases showUnresolved_cases ⟨data, title, text, items, entries, blocks, table⟩ with
    h | ⟨_, id, h⟩
  · rw [h, Node.map, h1, h2, h3, h4, h5, h6, h]
  · rw [h, Node.map, h1, h3, h4, h5, h6]
    have hid : Node.mapOpt showUnresolved (some [.plain id]) = some [.plain id] := rfl
    rw [hid]
    simp [showUnresolved, Node.hasText]

namespace Node

theorem visitOpt_plain (id : String) (footnotes : List Footnote) :
    visitOpt indexFootnote (some [.plain id]) footnotes = (some [.plain id], footnotes) := rfl

theorem visitOpt_blank {text : Option (List Node)} {footnotes : List Footnote}
    (h : ((mapOpt showUnresolved (visitOpt indexFootnote text footnotes).1).any (!·.isEmpty)) =
      false) :
    (visitOpt indexFootnote text footnotes).2 = footnotes := by
  match text with
  | none => rfl
  | some [] => rfl
  | some (n :: ns) => simp [visitOpt, visitAll, mapOpt, mapAll] at h

/-- Once visited and completed, a part of the tree comes out of a visit as it went in. -/
def Settles {α : Type} (visitOf : α → List Footnote → α × List Footnote) (mapOf : α → α)
    (x : α) : Prop :=
  ∀ a b, keysOf b = keysOf a →
    (visitOf (mapOf (visitOf x a).1) b).1 = mapOf (visitOf x a).1 ∧
      keysOf (visitOf (mapOf (visitOf x a).1) b).2 = keysOf (visitOf x a).2

/-- Completing a node leaves a text that is settled too: the old one, or one of plain text. -/
theorem shown_settles {n : Node} {text : Option (List Node)} {a : List Footnote}
    (ht : n.text = mapOpt showUnresolved (visitOpt indexFootnote text a).1)
    (hs : Settles (visitOpt indexFootnote) (mapOpt showUnresolved) text) :
    ∃ shown, showUnresolved n = { n with text := shown } ∧
      ∀ b, keysOf b = keysOf a → (visitOpt indexFootnote shown b).1 = shown ∧
        keysOf (visitOpt indexFootnote shown b).2 = keysOf (visitOpt indexFootnote text a).2 := by
  rcases showUnresolved_cases n with h | ⟨hblank, id, h⟩
  · refine ⟨n.text, by cases n; exact h, fun b hb => ?_⟩
    rw [ht]
    exact hs a b hb
  · refine ⟨some [.plain id], h, fun b hb => ?_⟩
    rw [Node.hasText, ht] at hblank
    rw [visitOpt_plain, visitOpt_blank hblank]
    exact ⟨rfl, hb⟩

mutual

theorem visit_settles : ∀ n : Node, Settles (visit indexFootnote) (map showUnresolved) n
  | ⟨data, title, text, items, entries, blocks, table⟩ => by
    intro a b h
    -- `m` is the visited node with settled children, before it is completed itself.
    let n : Node := ⟨data, title, text, items, entries, blocks, table⟩
    let r : Node := (visit indexFootnote n a).1
    let m : Node := ⟨r.data, mapOpt showUnresolved r.title, mapOpt showUnresolved r.text,
      mapAll showUnresolved r.items, mapEntries showUnresolved r.entries,
      mapAll showUnresolved r.blocks, mapTable showUnresolved r.table⟩
    obtain ⟨shown, hs, htext⟩ := shown_settles (n := m) rfl (visitOpt_settles text)
    have hdata : ({ m with text := shown } : Node).data = (indexFootnote n a).1 := rfl
    obtain ⟨h0, h0'⟩ := indexFootnote_again hdata h
    obtain ⟨h1, h1'⟩ := visitOpt_settles title _ _ h0'
    obtain ⟨h2, h2'⟩ := htext _ h1'
    obtain ⟨h3, h3'⟩ := visitAll_settles items _ _ h2'
    obtain ⟨h4, h4'⟩ := visitEntries_settles entries _ _ h3'
    obtain ⟨h5, h5'⟩ := visitAll_settles blocks _ _ h4'
    obtain ⟨h6, h6'⟩ := visitTable_settles table _ _ h5'
    change (visit indexFootnote (showUnresolved m) b).1 = showUnresolved m ∧
      keysOf (visit indexFootnote (showUnresolved m) b).2 = _
    rw [hs]
    refine ⟨?_, h6'⟩
    change Node.mk _ _ _ _ _ _ _ = Node.mk _ _ _ _ _ _ _
    exact congr (congr (congr (congr (congr (congr (congrArg Node.mk h0) h1) h2) h3) h4) h5) h6

theorem visitAll_settles :
    ∀ ns : List Node, Settles (visitAll indexFootnote) (mapAll showUnresolved) ns
  | [] => fun _ _ h => ⟨rfl, h⟩
  | n :: ns => by
    intro a b h
    obtain ⟨h1, h1'⟩ := visit_settles n a b h
    obtain ⟨h2, h2'⟩ := visitAll_settles ns _ _ h1'
    exact ⟨congr (congrArg List.cons h1) h2, h2'⟩

theorem visitOpt_settles :
    ∀ ns : Option (List Node), Settles (visitOpt indexFootnote) (mapOpt showUnresolved) ns
  | none => fun _ _ h => ⟨rfl, h⟩
  | some ns => by
    intro a b h
    obtain ⟨h1, h1'⟩ := visitAll_settles ns a b h
    exact ⟨congrArg some h1, h1'⟩

theorem visitEntries_settles :
    ∀ es : List (Entry Node), Settles (visitEntries indexFootnote) (mapEntries showUnresolved) es
  | [] => fun _ _ h => ⟨rfl, h⟩
  | ⟨terms, none⟩ :: es => by
    intro a b h
    obtain ⟨h1, h1'⟩ := visitAll_settles terms a b h
    obtain ⟨h2, h2'⟩ := visitEntries_settles es _ _ h1'
    exact ⟨by simp only [visitEntries, mapEntries, h1, h2], h2'⟩
  | ⟨terms, some d⟩ :: es => by
    intro a b h
    obtain ⟨h1, h1'⟩ := visitAll_settles terms a b h
    obtain ⟨h2, h2'⟩ := visit_settles d _ _ h1'
    obtain ⟨h3, h3'⟩ := visitEntries_settles es _ _ h2'
    exact ⟨by simp only [visitEntries, mapEntries, h1, h2, h3], h3'⟩

theorem visitTable_settles :
    ∀ t : Option (Table Node), Settles (visitTable indexFootnote) (mapTable showUnresolved) t
  | none => fun _ _ h => ⟨rfl, h⟩
  | some ⟨columns, head, body, foot⟩ => by
    intro a b h
    obtain ⟨h1, h1'⟩ := visitRows_settles head a b h
    obtain ⟨h2, h2'⟩ := visitRows_settles body _ _ h1'
    obtain ⟨h3, h3'⟩ := visitRows_settles foot _ _ h2'
    exact ⟨by simp only [visitTable, mapTable, h1, h2, h3], h3'⟩

theorem visitRows_settles :
    ∀ rs : List (List (Cell Node)), Settles (visitRows indexFootnote) (mapRows showUnresolved) rs
  | [] => fun _ _ h => ⟨rfl, h⟩
  | r :: rs => by
    intro a b h
    obtain ⟨h1, h1'⟩ := visitRow_settles r a b h
    obtain ⟨h2, h2'⟩ := visitRows_settles rs _ _ h1'
    exact ⟨congr (congrArg List.cons h1) h2, h2'⟩

theorem visitRow_settles :
    ∀ cs : List (Cell Node), Settles (visitRow indexFootnote) (mapRow showUnresolved) cs
  | [] => fun _ _ h => ⟨rfl, h⟩
  | ⟨style, paragraphs, blocks, source, colspan, rowspan, halign, valign⟩ :: cs => by
    intro a b h
    obtain ⟨h1, h1'⟩ := visitParagraphs_settles paragraphs a b h
    obtain ⟨h2, h2'⟩ := visitAll_settles blocks _ _ h1'
    obtain ⟨h3, h3'⟩ := visitRow_settles cs _ _ h2'
    exact ⟨by simp only [visitRow, mapRow, h1, h2, h3], h3'⟩

theorem visitParagraphs_settles : ∀ ps : List (List Node),
    Settles (visitParagraphs indexFootnote) (mapParagraphs showUnresolved) ps
  | [] => fun _ _ h => ⟨rfl, h⟩
  | p :: ps => by
    intro a b h
    obtain ⟨h1, h1'⟩ := visitAll_settles p a b h
    obtain ⟨h2, h2'⟩ := visitParagraphs_settles ps _ _ h1'
    exact ⟨congr (congrArg List.cons h1) h2, h2'⟩

end

/-! ### Footnotes without footnotes in them -/

abbrev definitionTexts (ns : List Node) : List Inlines :=
  (ns.filter definesFootnote).map fun m => m.text.getD []

/-- Whether no footnote stands in the text of a footnote definition among the nodes. -/
abbrev FlatAmong (ns : List Node) : Prop :=
  ∀ text ∈ definitionTexts ns, ∀ m ∈ walkAll text, m.isFootnote = false

theorem definitionTexts_append (a b : List Node) :
    definitionTexts (a ++ b) = definitionTexts a ++ definitionTexts b := by
  simp only [definitionTexts, List.filter_append, List.map_append]

theorem FlatAmong.left {a b : List Node} (h : FlatAmong (a ++ b)) : FlatAmong a := by
  intro text ht
  exact h text (by rw [definitionTexts_append]; exact List.mem_append_left _ ht)

theorem FlatAmong.right {a b : List Node} (h : FlatAmong (a ++ b)) : FlatAmong b := by
  intro text ht
  exact h text (by rw [definitionTexts_append]; exact List.mem_append_right _ ht)

theorem visitOpt_flat {text : Option (List Node)}
    (h : ∀ m ∈ walkAll (text.getD []), m.isFootnote = false) (footnotes : List Footnote) :
    mapOpt showUnresolved (visitOpt indexFootnote text footnotes).1 = text := by
  have hwalk : walkOpt text = walkAll (text.getD []) := by cases text <;> rfl
  rw [← hwalk] at h
  have huntouched : Untouched indexFootnote (walkOpt text) := fun m hm s =>
    indexFootnote_other (h m hm) s
  rw [visitOpt_untouched huntouched]
  refine mapOpt_unchanged text fun m hm => ?_
  simp [showUnresolved, isFootnoteRef, h m hm]

theorem definitionTexts_shown (n : Node) :
    definitionTexts (showUnresolved n).walk = definitionTexts n.walk := by
  obtain ⟨data, title, text, items, entries, blocks, table⟩ := n
  unfold showUnresolved
  split
  · rename_i h
    simp only [Bool.and_eq_true, Bool.not_eq_true'] at h
    split
    · have hblank : walkOpt text = [] := by
        match text, h.2 with
        | none, _ => rfl
        | some [], _ => rfl
      have hplain : ∀ id, walkOpt (some [.plain id]) = [.plain id] := fun _ => rfl
      have hd : ∀ id, (Node.plain id).definesFootnote = false := fun _ => rfl
      have hself : ∀ t, (⟨data, title, t, items, entries, blocks, table⟩ : Node).definesFootnote =
          (⟨data, title, text, items, entries, blocks, table⟩ : Node).definesFootnote :=
        fun _ => rfl
      have hnot : (⟨data, title, text, items, entries, blocks, table⟩ : Node).definesFootnote =
          false := by
        have hr := (Bool.and_eq_true_iff.1 h.1.1).2
        simp only [definesFootnote, bne, hr, Bool.not_true, Bool.and_false]
      simp only [definitionTexts, walk, hblank, hplain, List.filter_cons, List.filter_append, hd,
        hself, hnot, Bool.false_eq_true, if_false, List.filter_nil]
    · rfl
  · rfl

/-- Indexing keeps the texts of the definitions of a part of the tree, its footnotes flat. -/
def KeepsTexts {α : Type} (visitOf : α → List Footnote → α × List Footnote) (mapOf : α → α)
    (walkOf : α → List Node) (x : α) : Prop :=
  FlatAmong (walkOf x) → ∀ footnotes,
    definitionTexts (walkOf (mapOf (visitOf x footnotes).1)) = definitionTexts (walkOf x)

mutual

theorem visit_texts_flat : ∀ n : Node,
    KeepsTexts (visit indexFootnote) (map showUnresolved) walk n
  | ⟨data, title, text, items, entries, blocks, table⟩ => by
    intro h footnotes
    let n : Node := ⟨data, title, text, items, entries, blocks, table⟩
    let r : Node := (visit indexFootnote n footnotes).1
    let m : Node := ⟨r.data, mapOpt showUnresolved r.title, mapOpt showUnresolved r.text,
      mapAll showUnresolved r.items, mapEntries showUnresolved r.entries,
      mapAll showUnresolved r.blocks, mapTable showUnresolved r.table⟩
    change definitionTexts (walk (showUnresolved m)) = definitionTexts n.walk
    have hwalk : n.walk = [n] ++ (walkOpt title ++ walkOpt text ++ walkAll items ++
      walkEntries entries ++ walkAll blocks ++ walkTable table) := rfl
    have hm : m.walk = [m] ++ (walkOpt m.title ++ walkOpt m.text ++ walkAll m.items ++
      walkEntries m.entries ++ walkAll m.blocks ++ walkTable m.table) := rfl
    change FlatAmong n.walk at h
    rw [hwalk] at h
    have h1 : definitionTexts (walkOpt m.title) = definitionTexts (walkOpt title) :=
      visitOpt_texts_flat title h.right.left.left.left.left.left _
    have h2 : definitionTexts (walkOpt m.text) = definitionTexts (walkOpt text) :=
      visitOpt_texts_flat text h.right.left.left.left.left.right _
    have h3 : definitionTexts (walkAll m.items) = definitionTexts (walkAll items) :=
      visitAll_texts_flat items h.right.left.left.left.right _
    have h4 : definitionTexts (walkEntries m.entries) = definitionTexts (walkEntries entries) :=
      visitEntries_texts_flat entries h.right.left.left.right _
    have h5 : definitionTexts (walkAll m.blocks) = definitionTexts (walkAll blocks) :=
      visitAll_texts_flat blocks h.right.left.right _
    have h6 : definitionTexts (walkTable m.table) = definitionTexts (walkTable table) :=
      visitTable_texts_flat table h.right.right _
    have h0 : definitionTexts [m] = definitionTexts [n] := by
      obtain ⟨attributes, hs⟩ := indexFootnote_same n footnotes
      have hd : m.definesFootnote = n.definesFootnote := by
        have hdata : m.data = (indexFootnote n footnotes).1 := rfl
        simp only [definesFootnote, isFootnote, Node.kind, Node.variant, hdata, hs]
      by_cases hn : n.definesFootnote
      -- The text of a definition is not changed, since no footnote stands in it.
      · have htext : m.text = text := by
          refine visitOpt_flat (fun k hk => ?_) _
          exact h (text.getD []) (by simp [definitionTexts, hn, n]) k hk
        simp only [definitionTexts, List.filter_cons, hd, hn, if_true, List.filter_nil,
          List.map_cons, List.map_nil, htext, n]
      · simp only [definitionTexts, List.filter_cons, hd, hn, Bool.false_eq_true, if_false]
    rw [definitionTexts_shown, hm, hwalk]
    simp only [definitionTexts_append, h0, h1, h2, h3, h4, h5, h6]

theorem visitAll_texts_flat : ∀ ns : List Node,
    KeepsTexts (visitAll indexFootnote) (mapAll showUnresolved) walkAll ns
  | [] => fun _ _ => rfl
  | n :: ns => by
    intro h footnotes
    have h1 := visit_texts_flat n h.left
    have h2 := visitAll_texts_flat ns h.right
    simp only [visitAll, mapAll, walkAll, definitionTexts_append, h1, h2]

theorem visitOpt_texts_flat : ∀ ns : Option (List Node),
    KeepsTexts (visitOpt indexFootnote) (mapOpt showUnresolved) walkOpt ns
  | none => fun _ _ => rfl
  | some ns => fun h => visitAll_texts_flat ns h

theorem visitEntries_texts_flat : ∀ es : List (Entry Node),
    KeepsTexts (visitEntries indexFootnote) (mapEntries showUnresolved) walkEntries es
  | [] => fun _ _ => rfl
  | ⟨terms, none⟩ :: es => by
    intro h footnotes
    have h1 := visitAll_texts_flat terms h.left
    have h2 := visitEntries_texts_flat es h.right
    simp only [visitEntries, mapEntries, walkEntries, definitionTexts_append, h1, h2]
  | ⟨terms, some d⟩ :: es => by
    intro h footnotes
    have h1 := visitAll_texts_flat terms h.left.left
    have h2 := visit_texts_flat d h.left.right
    have h3 := visitEntries_texts_flat es h.right
    simp only [visitEntries, mapEntries, walkEntries, definitionTexts_append, h1, h2, h3]

theorem visitTable_texts_flat : ∀ t : Option (Table Node),
    KeepsTexts (visitTable indexFootnote) (mapTable showUnresolved) walkTable t
  | none => fun _ _ => rfl
  | some ⟨columns, head, body, foot⟩ => by
    intro h footnotes
    have h1 := visitRows_texts_flat head h.left.left
    have h2 := visitRows_texts_flat body h.left.right
    have h3 := visitRows_texts_flat foot h.right
    simp only [visitTable, mapTable, walkTable, definitionTexts_append, h1, h2, h3]

theorem visitRows_texts_flat : ∀ rs : List (List (Cell Node)),
    KeepsTexts (visitRows indexFootnote) (mapRows showUnresolved) walkRows rs
  | [] => fun _ _ => rfl
  | r :: rs => by
    intro h footnotes
    have h1 := visitRow_texts_flat r h.left
    have h2 := visitRows_texts_flat rs h.right
    simp only [visitRows, mapRows, walkRows, definitionTexts_append, h1, h2]

theorem visitRow_texts_flat : ∀ cs : List (Cell Node),
    KeepsTexts (visitRow indexFootnote) (mapRow showUnresolved) walkRow cs
  | [] => fun _ _ => rfl
  | ⟨style, paragraphs, blocks, source, colspan, rowspan, halign, valign⟩ :: cs => by
    intro h footnotes
    have h1 := visitParagraphs_texts_flat paragraphs h.left.left
    have h2 := visitAll_texts_flat blocks h.left.right
    have h3 := visitRow_texts_flat cs h.right
    simp only [visitRow, mapRow, walkRow, definitionTexts_append, h1, h2, h3]

theorem visitParagraphs_texts_flat : ∀ ps : List (List Node),
    KeepsTexts (visitParagraphs indexFootnote) (mapParagraphs showUnresolved) walkParagraphs ps
  | [] => fun _ _ => rfl
  | p :: ps => by
    intro h footnotes
    have h1 := visitAll_texts_flat p h.left
    have h2 := visitParagraphs_texts_flat ps h.right
    simp only [visitParagraphs, mapParagraphs, walkParagraphs, definitionTexts_append, h1, h2]

end

end Node

end DocPress
