import DocPress.Node.Walk

/-! What a walk meets, a visit changes and a map keeps. A visit is a scan of the walk: it sees the
nodes in the order of the list, and the data it leaves stands in the same order. -/

namespace DocPress.Node

set_option autoImplicit false

universe u

variable {σ : Type u}

/-- The data that a running change leaves along a list, and the state at its end. -/
def scan (f : Node → σ → NodeData × σ) : List Node → σ → List NodeData × σ
  | [], s => ([], s)
  | n :: ns, s =>
    let (data, s) := f n s
    let (rest, s) := scan f ns s
    (data :: rest, s)

theorem scan_append (f : Node → σ → NodeData × σ) (a b : List Node) (s : σ) :
    scan f (a ++ b) s =
      ((scan f a s).1 ++ (scan f b (scan f a s).2).1, (scan f b (scan f a s).2).2) := by
  induction a generalizing s with
  | nil => rfl
  | cons n ns ih =>
    simp only [List.cons_append, scan]
    rw [ih]

theorem scan_state (f : Node → σ → NodeData × σ) (ns : List Node) (s : σ) :
    (scan f ns s).2 = ns.foldl (fun s n => (f n s).2) s := by
  induction ns generalizing s with
  | nil => rfl
  | cons n ns ih => exact ih (f n s).2

theorem walk_eq (n : Node) :
    n.walk = n :: (walkOpt n.title ++ walkOpt n.text ++ walkAll n.items ++ walkEntries n.entries ++
      walkAll n.blocks ++ walkTable n.table) := by
  obtain ⟨data, title, text, items, entries, blocks, table⟩ := n
  rfl

theorem mem_walk_self (n : Node) : n ∈ n.walk := by
  rw [walk_eq]
  exact List.mem_cons_self

/-! ### Visits -/

/-- What a visit leaves of a part of the tree: the data along its walk, and the state. -/
abbrev trace {α : Type} (walkOf : α → List Node) (r : α × σ) : List NodeData × σ :=
  ((walkOf r.1).map Node.data, r.2)

variable (f : Node → σ → NodeData × σ)

mutual

theorem visit_trace : ∀ (n : Node) (s : σ), trace walk (visit f n s) = scan f n.walk s
  | ⟨data, title, text, items, entries, blocks, table⟩, s => by
    simp only [visit, walk, scan, scan_append, trace, List.map_cons, List.map_append,
      ← visitOpt_trace title, ← visitOpt_trace text, ← visitAll_trace items,
      ← visitEntries_trace entries, ← visitAll_trace blocks, ← visitTable_trace table]

theorem visitAll_trace : ∀ (ns : List Node) (s : σ),
    trace walkAll (visitAll f ns s) = scan f (walkAll ns) s
  | [], _ => rfl
  | n :: ns, s => by
    simp only [visitAll, walkAll, scan_append, trace, List.map_append, ← visit_trace n,
      ← visitAll_trace ns]

theorem visitOpt_trace : ∀ (ns : Option (List Node)) (s : σ),
    trace walkOpt (visitOpt f ns s) = scan f (walkOpt ns) s
  | none, _ => rfl
  | some ns, s => by
    simp only [visitOpt, walkOpt, trace, ← visitAll_trace ns]

theorem visitEntries_trace : ∀ (es : List (Entry Node)) (s : σ),
    trace walkEntries (visitEntries f es s) = scan f (walkEntries es) s
  | [], _ => rfl
  | ⟨terms, none⟩ :: es, s => by
    simp only [visitEntries, walkEntries, scan_append, trace, List.map_append,
      ← visitAll_trace terms, ← visitEntries_trace es]
  | ⟨terms, some d⟩ :: es, s => by
    simp only [visitEntries, walkEntries, scan_append, trace, List.map_append,
      ← visitAll_trace terms, ← visit_trace d, ← visitEntries_trace es]

theorem visitTable_trace : ∀ (t : Option (Table Node)) (s : σ),
    trace walkTable (visitTable f t s) = scan f (walkTable t) s
  | none, _ => rfl
  | some ⟨columns, head, body, foot⟩, s => by
    simp only [visitTable, walkTable, scan_append, trace, List.map_append,
      ← visitRows_trace head, ← visitRows_trace body, ← visitRows_trace foot]

theorem visitRows_trace : ∀ (rs : List (List (Cell Node))) (s : σ),
    trace walkRows (visitRows f rs s) = scan f (walkRows rs) s
  | [], _ => rfl
  | r :: rs, s => by
    simp only [visitRows, walkRows, scan_append, trace, List.map_append, ← visitRow_trace r,
      ← visitRows_trace rs]

theorem visitRow_trace : ∀ (cs : List (Cell Node)) (s : σ),
    trace walkRow (visitRow f cs s) = scan f (walkRow cs) s
  | [], _ => rfl
  | ⟨style, paragraphs, blocks, source, colspan, rowspan, halign, valign⟩ :: cs, s => by
    simp only [visitRow, walkRow, scan_append, trace, List.map_append,
      ← visitParagraphs_trace paragraphs, ← visitAll_trace blocks, ← visitRow_trace cs]

theorem visitParagraphs_trace : ∀ (ps : List (List Node)) (s : σ),
    trace walkParagraphs (visitParagraphs f ps s) = scan f (walkParagraphs ps) s
  | [], _ => rfl
  | p :: ps, s => by
    simp only [visitParagraphs, walkParagraphs, scan_append, trace, List.map_append,
      ← visitAll_trace p, ← visitParagraphs_trace ps]

end

theorem walk_visit (n : Node) (s : σ) :
    (visit f n s).1.walk.map Node.data = (scan f n.walk s).1 :=
  congrArg Prod.fst (visit_trace f n s)

theorem visit_state (n : Node) (s : σ) :
    (visit f n s).2 = n.walk.foldl (fun s n => (f n s).2) s := by
  rw [← scan_state]
  exact congrArg Prod.snd (visit_trace f n s)

/-! ### Maps -/

/-- A change that leaves nothing to change in a node whose children have nothing to change. -/
def Finishes (g : Node → Node) : Prop :=
  ∀ m : Node, mapOpt g m.title = m.title → mapOpt g m.text = m.text → mapAll g m.items = m.items →
    mapEntries g m.entries = m.entries → mapAll g m.blocks = m.blocks →
    mapTable g m.table = m.table → map g (g m) = g m

section Finished

variable {g : Node → Node}

mutual

theorem map_map (hg : Finishes g) : ∀ n : Node, map g (map g n) = map g n
  | ⟨_, title, text, items, entries, blocks, table⟩ =>
    hg _ (mapOpt_map hg title) (mapOpt_map hg text) (mapAll_map hg items)
      (mapEntries_map hg entries) (mapAll_map hg blocks) (mapTable_map hg table)

theorem mapAll_map (hg : Finishes g) : ∀ ns : List Node, mapAll g (mapAll g ns) = mapAll g ns
  | [] => rfl
  | n :: ns => by simp only [mapAll, map_map hg n, mapAll_map hg ns]

theorem mapOpt_map (hg : Finishes g) :
    ∀ ns : Option (List Node), mapOpt g (mapOpt g ns) = mapOpt g ns
  | none => rfl
  | some ns => by simp only [mapOpt, mapAll_map hg ns]

theorem mapEntries_map (hg : Finishes g) :
    ∀ es : List (Entry Node), mapEntries g (mapEntries g es) = mapEntries g es
  | [] => rfl
  | ⟨terms, none⟩ :: es => by simp only [mapEntries, mapAll_map hg terms, mapEntries_map hg es]
  | ⟨terms, some d⟩ :: es => by
    simp only [mapEntries, mapAll_map hg terms, map_map hg d, mapEntries_map hg es]

theorem mapTable_map (hg : Finishes g) :
    ∀ t : Option (Table Node), mapTable g (mapTable g t) = mapTable g t
  | none => rfl
  | some ⟨_, head, body, foot⟩ => by
    simp only [mapTable, mapRows_map hg head, mapRows_map hg body, mapRows_map hg foot]

theorem mapRows_map (hg : Finishes g) :
    ∀ rs : List (List (Cell Node)), mapRows g (mapRows g rs) = mapRows g rs
  | [] => rfl
  | r :: rs => by simp only [mapRows, mapRow_map hg r, mapRows_map hg rs]

theorem mapRow_map (hg : Finishes g) :
    ∀ cs : List (Cell Node), mapRow g (mapRow g cs) = mapRow g cs
  | [] => rfl
  | ⟨_, paragraphs, blocks, _, _, _, _, _⟩ :: cs => by
    simp only [mapRow, mapParagraphs_map hg paragraphs, mapAll_map hg blocks, mapRow_map hg cs]

theorem mapParagraphs_map (hg : Finishes g) :
    ∀ ps : List (List Node), mapParagraphs g (mapParagraphs g ps) = mapParagraphs g ps
  | [] => rfl
  | p :: ps => by simp only [mapParagraphs, mapAll_map hg p, mapParagraphs_map hg ps]

end

end Finished

section Unchanged

variable {g : Node → Node}

/-- The nodes that a map leaves as they are. -/
abbrev Unchanged (g : Node → Node) (ns : List Node) : Prop := ∀ n ∈ ns, g n = n

mutual

theorem map_unchanged : ∀ n : Node, Unchanged g n.walk → map g n = n
  | ⟨data, title, text, items, entries, blocks, table⟩ => by
    intro h
    simp only [Unchanged, walk, List.mem_cons, List.mem_append, or_imp, forall_and,
      forall_eq] at h
    obtain ⟨h0, ⟨⟨⟨⟨h1, h2⟩, h3⟩, h4⟩, h5⟩, h6⟩ := h
    simp only [map, mapOpt_unchanged title h1, mapOpt_unchanged text h2,
      mapAll_unchanged items h3, mapEntries_unchanged entries h4, mapAll_unchanged blocks h5,
      mapTable_unchanged table h6, h0]

theorem mapAll_unchanged : ∀ ns : List Node, Unchanged g (walkAll ns) → mapAll g ns = ns
  | [] => fun _ => rfl
  | n :: ns => by
    intro h
    simp only [Unchanged, walkAll, List.mem_append, or_imp, forall_and] at h
    simp only [mapAll, map_unchanged n h.1, mapAll_unchanged ns h.2]

theorem mapOpt_unchanged : ∀ ns : Option (List Node), Unchanged g (walkOpt ns) → mapOpt g ns = ns
  | none => fun _ => rfl
  | some ns => by
    intro h
    simp only [mapOpt, mapAll_unchanged ns h]

theorem mapEntries_unchanged : ∀ es : List (Entry Node), Unchanged g (walkEntries es) →
    mapEntries g es = es
  | [] => fun _ => rfl
  | ⟨terms, none⟩ :: es => by
    intro h
    simp only [Unchanged, walkEntries, List.mem_append, or_imp, forall_and] at h
    simp only [mapEntries, mapAll_unchanged terms h.1, mapEntries_unchanged es h.2]
  | ⟨terms, some d⟩ :: es => by
    intro h
    simp only [Unchanged, walkEntries, List.mem_append, or_imp, forall_and] at h
    simp only [mapEntries, mapAll_unchanged terms h.1.1, map_unchanged d h.1.2,
      mapEntries_unchanged es h.2]

theorem mapTable_unchanged : ∀ t : Option (Table Node), Unchanged g (walkTable t) →
    mapTable g t = t
  | none => fun _ => rfl
  | some ⟨_, head, body, foot⟩ => by
    intro h
    simp only [Unchanged, walkTable, List.mem_append, or_imp, forall_and] at h
    simp only [mapTable, mapRows_unchanged head h.1.1, mapRows_unchanged body h.1.2,
      mapRows_unchanged foot h.2]

theorem mapRows_unchanged : ∀ rs : List (List (Cell Node)), Unchanged g (walkRows rs) →
    mapRows g rs = rs
  | [] => fun _ => rfl
  | r :: rs => by
    intro h
    simp only [Unchanged, walkRows, List.mem_append, or_imp, forall_and] at h
    simp only [mapRows, mapRow_unchanged r h.1, mapRows_unchanged rs h.2]

theorem mapRow_unchanged : ∀ cs : List (Cell Node), Unchanged g (walkRow cs) → mapRow g cs = cs
  | [] => fun _ => rfl
  | ⟨_, paragraphs, blocks, _, _, _, _, _⟩ :: cs => by
    intro h
    simp only [Unchanged, walkRow, List.mem_append, or_imp, forall_and] at h
    simp only [mapRow, mapParagraphs_unchanged paragraphs h.1.1, mapAll_unchanged blocks h.1.2,
      mapRow_unchanged cs h.2]

theorem mapParagraphs_unchanged : ∀ ps : List (List Node), Unchanged g (walkParagraphs ps) →
    mapParagraphs g ps = ps
  | [] => fun _ => rfl
  | p :: ps => by
    intro h
    simp only [Unchanged, walkParagraphs, List.mem_append, or_imp, forall_and] at h
    simp only [mapParagraphs, mapAll_unchanged p h.1, mapParagraphs_unchanged ps h.2]

end

end Unchanged

end DocPress.Node
