import DocPress.Document.Numbering
import DocPress.Proofs.Footnotes

/-! Section numbers depend on the sections alone: numbering numbered sections changes nothing, and
neither does a change of the tree that keeps its sections. -/

namespace DocPress

set_option autoImplicit false

universe u

mutual

theorem numberSection_again (scope : String) : ∀ (n : Node) (count : Nat),
    numberSection scope (numberSection scope n count).1 count = numberSection scope n count
  | ⟨data, title, text, items, entries, blocks, table⟩, count => by
    by_cases hk : data.kind = .section
    · by_cases hl : data.level = 0
      · have h := numberSections_again scope blocks count
        simp only [numberSection, hk, hl, ne_eq, not_true_eq_false, if_false, if_true, h]
      · by_cases hn : data.numbered
        · have h := numberSections_again (sectionNumber scope (count + 1)) blocks 0
          simp only [numberSection, hk, hl, hn, ne_eq, not_true_eq_false, if_false, if_true, h]
        · simp [numberSection, hk, hl, hn]
    · simp [numberSection, hk]

theorem numberSections_again (scope : String) : ∀ (ns : List Node) (count : Nat),
    numberSections scope (numberSections scope ns count).1 count = numberSections scope ns count
  | [], _ => rfl
  | n :: ns, count => by
    simp only [numberSections, numberSection_again scope n, numberSections_again scope ns]

end

/-! ### Numbers and other changes of the tree -/

/-- A change of data that keeps kinds, and sections altogether. -/
structure KeepsSections {σ : Type u} (f : Node → σ → NodeData × σ) : Prop where
  kind : ∀ n s, (f n s).1.kind = n.kind
  section_data : ∀ n s, n.kind = .section → (f n s).1 = n.data

section Visit

variable {σ : Type u} {f : Node → σ → NodeData × σ}

mutual

theorem numberSection_visit (hf : KeepsSections f) (scope : String) :
    ∀ (n : Node) (count : Nat) (s : σ), (numberSection scope n count).1 = n →
      numberSection scope (n.visit f s).1 count =
        ((n.visit f s).1, (numberSection scope n count).2)
  | ⟨data, title, text, items, entries, blocks, table⟩, count, s => by
    intro h
    by_cases hk : data.kind = .section
    · have hdata := hf.section_data ⟨data, title, text, items, entries, blocks, table⟩ s hk
      by_cases hl : data.level = 0
      · simp only [numberSection, hk, hl, ne_eq, not_true_eq_false, if_false, if_true,
          Node.mk.injEq, true_and, and_true] at h
        have hb := numberSections_visit hf scope blocks count
        simp only [Node.visit, numberSection, hdata, hk, hl, ne_eq, not_true_eq_false, if_false,
          if_true, hb _ h.2, h.1]
      · by_cases hn : data.numbered
        · simp only [numberSection, hk, hl, hn, ne_eq, not_true_eq_false, if_false, if_true,
            Node.mk.injEq, true_and, and_true] at h
          have hb := numberSections_visit hf (sectionNumber scope (count + 1)) blocks 0
          simp only [Node.visit, numberSection, hdata, hk, hl, hn, ne_eq, not_true_eq_false,
            if_false, if_true, hb _ h.2, h.1]
        · simp only [numberSection, hk, hl, hn, ne_eq, not_true_eq_false, if_false,
            Node.mk.injEq, and_true, Bool.false_eq_true] at h
          simp [Node.visit, numberSection, hdata, hk, hl, hn, h]
    · have hkind := hf.kind ⟨data, title, text, items, entries, blocks, table⟩ s
      simp [Node.visit, numberSection, hkind, hk]

theorem numberSections_visit (hf : KeepsSections f) (scope : String) :
    ∀ (ns : List Node) (count : Nat) (s : σ), (numberSections scope ns count).1 = ns →
      numberSections scope (Node.visitAll f ns s).1 count =
        ((Node.visitAll f ns s).1, (numberSections scope ns count).2)
  | [], _, _ => fun _ => rfl
  | n :: ns, count, s => by
    intro h
    simp only [numberSections, List.cons.injEq] at h
    have h1 := numberSection_visit hf scope n count s h.1
    have h2 := numberSections_visit hf scope ns (numberSection scope n count).2
    simp only [Node.visitAll, numberSections, h1, h2 _ h.2]

end

end Visit

section Map

variable {g : Node → Node}

mutual

theorem numberSection_map (hg : ∀ n, (g n).kind = n.kind) (hs : ∀ n, n.kind = .section → g n = n)
    (scope : String) : ∀ (n : Node) (count : Nat), (numberSection scope n count).1 = n →
      numberSection scope (n.map g) count = (n.map g, (numberSection scope n count).2)
  | ⟨data, title, text, items, entries, blocks, table⟩, count => by
    intro h
    by_cases hk : data.kind = .section
    · have hmap := hs ⟨data, Node.mapOpt g title, Node.mapOpt g text, Node.mapAll g items,
        Node.mapEntries g entries, Node.mapAll g blocks, Node.mapTable g table⟩ hk
      by_cases hl : data.level = 0
      · simp only [numberSection, hk, hl, ne_eq, not_true_eq_false, if_false, if_true,
          Node.mk.injEq, true_and, and_true] at h
        have hb := numberSections_map hg hs scope blocks count h.2
        simp only [Node.map, numberSection, hmap, hk, hl, ne_eq, not_true_eq_false, if_false,
          if_true, hb, h.1]
      · by_cases hn : data.numbered
        · simp only [numberSection, hk, hl, hn, ne_eq, not_true_eq_false, if_false, if_true,
            Node.mk.injEq, true_and, and_true] at h
          have hb := numberSections_map hg hs (sectionNumber scope (count + 1)) blocks 0 h.2
          simp only [Node.map, numberSection, hmap, hk, hl, hn, ne_eq, not_true_eq_false,
            if_false, if_true, hb, h.1]
        · simp only [numberSection, hk, hl, hn, ne_eq, not_true_eq_false, if_false,
            Node.mk.injEq, and_true, Bool.false_eq_true] at h
          simp [Node.map, numberSection, hmap, hk, hl, hn, h]
    · simp only [numberSection, hk, ne_eq, not_false_eq_true, if_true, Node.map]
      have hkind := hg ⟨data, Node.mapOpt g title, Node.mapOpt g text, Node.mapAll g items,
        Node.mapEntries g entries, Node.mapAll g blocks, Node.mapTable g table⟩
      revert hkind
      generalize g _ = m
      intro hkind
      obtain ⟨data', _, _, _, _, _, _⟩ := m
      have hk' : data'.kind ≠ .section := fun h => hk (hkind.symm.trans h)
      simp [numberSection, hk']

theorem numberSections_map (hg : ∀ n, (g n).kind = n.kind)
    (hs : ∀ n, n.kind = .section → g n = n) (scope : String) :
    ∀ (ns : List Node) (count : Nat), (numberSections scope ns count).1 = ns →
      numberSections scope (Node.mapAll g ns) count =
        (Node.mapAll g ns, (numberSections scope ns count).2)
  | [], _ => fun _ => rfl
  | n :: ns, count => by
    intro h
    simp only [numberSections, List.cons.injEq] at h
    have h1 := numberSection_map hg hs scope n count h.1
    have h2 := numberSections_map hg hs scope ns (numberSection scope n count).2 h.2
    simp only [Node.mapAll, numberSections, h1, h2]

end

end Map

/-! ### Footnotes and numbers -/

theorem keepsSections_indexFootnote : KeepsSections indexFootnote where
  kind n footnotes := by
    obtain ⟨attributes, h⟩ := indexFootnote_same n footnotes
    rw [h]
  section_data n footnotes h := by
    rw [indexFootnote_other (by simp [Node.isFootnote, h])]

theorem showUnresolved_data (n : Node) : (showUnresolved n).data = n.data := by
  rcases showUnresolved_cases n with h | ⟨_, id, h⟩ <;> rw [h]

theorem showUnresolved_section (n : Node) (h : n.kind = .section) : showUnresolved n = n := by
  have hr : n.isFootnoteRef = false := by simp [Node.isFootnoteRef, Node.isFootnote, h]
  simp [showUnresolved, hr]

/-- Indexing footnotes leaves numbered sections numbered. -/
theorem numberSections_indexed (scope : String) (ns : List Node) (count : Nat)
    (footnotes : List Footnote) (h : (numberSections scope ns count).1 = ns) :
    (numberSections scope
      (Node.mapAll showUnresolved (Node.visitAll indexFootnote ns footnotes).1) count).1 =
      Node.mapAll showUnresolved (Node.visitAll indexFootnote ns footnotes).1 := by
  have hv := numberSections_visit keepsSections_indexFootnote scope ns count footnotes h
  have hm := numberSections_map (fun n => congrArg NodeData.kind (showUnresolved_data n))
    showUnresolved_section scope (Node.visitAll indexFootnote ns footnotes).1 count (by rw [hv])
  rw [hm]

section Kept

variable {p : Node → Bool}

theorem walk_section_filter (hp : ∀ n, n.kind = .section → p n = false) {n : Node}
    (h : n.kind = .section) :
    n.walk.filter p =
      (Node.walkOpt n.title ++ Node.walkOpt n.text ++ Node.walkAll n.items ++
        Node.walkEntries n.entries ++ Node.walkAll n.blocks ++
          Node.walkTable n.table).filter p := by
  rw [Node.walk_eq, List.filter_cons_of_neg (by simp [hp n h])]

mutual

/-- Numbering leaves the nodes of a tree that are no sections and hold none as they are. -/
theorem numberSection_filter (hp : ∀ n, n.kind = .section → p n = false) (scope : String) :
    ∀ (n : Node) (count : Nat),
      (numberSection scope n count).1.walk.filter p = n.walk.filter p
  | ⟨data, title, text, items, entries, blocks, table⟩, count => by
    by_cases hk : data.kind = .section
    · rw [walk_section_filter hp (n := ⟨data, _, _, _, _, _, _⟩) hk]
      by_cases hl : data.level = 0
      · simp only [numberSection, hk, hl, ne_eq, not_true_eq_false, if_false, if_true]
        rw [walk_section_filter hp rfl]
        simp only [List.filter_append, numberSections_filter hp scope blocks]
      · by_cases hn : data.numbered
        · simp only [numberSection, hk, hl, hn, ne_eq, not_true_eq_false, if_false, if_true]
          rw [walk_section_filter hp rfl]
          simp only [List.filter_append, numberSections_filter hp _ blocks]
        · simp only [numberSection, hk, hl, hn, ne_eq, not_true_eq_false, if_false]
          rw [if_neg (by simp), walk_section_filter hp rfl]
    · simp [numberSection, hk]

theorem numberSections_filter (hp : ∀ n, n.kind = .section → p n = false) (scope : String) :
    ∀ (ns : List Node) (count : Nat),
      (Node.walkAll (numberSections scope ns count).1).filter p = (Node.walkAll ns).filter p
  | [], _ => rfl
  | n :: ns, count => by
    simp only [numberSections, Node.walkAll, List.filter_append,
      numberSection_filter hp scope n, numberSections_filter hp scope ns]

end

end Kept

theorem section_not_footnote (n : Node) (h : n.kind = .section) : n.isFootnote = false := by
  simp [Node.isFootnote, h]

theorem section_not_definition (n : Node) (h : n.kind = .section) :
    n.definesFootnote = false := by
  simp [Node.definesFootnote, section_not_footnote n h]

end DocPress
