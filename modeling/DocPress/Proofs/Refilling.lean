import DocPress.Proofs.Walk

/-! Trees taken apart and put together again. Where data lose something that can be put back, the
tree without it and the list of what was lost, in the order of the walk, make up the whole tree. So
a tree is its frame and the list of its data, and what a visit leaves is told by a scan. -/

namespace DocPress.Node

set_option autoImplicit false

universe u

section Reading

variable {β : Type}

/-- What is read of the data along a list of nodes. -/
abbrev readAll (h : NodeData → Option β) (ns : List Node) : List β := (ns.map data).filterMap h

theorem readAll_append (h : NodeData → Option β) (a b : List Node) :
    readAll h (a ++ b) = readAll h a ++ readAll h b := by
  simp only [readAll, List.map_append, List.filterMap_append]

theorem readAll_cons (h : NodeData → Option β) (n : Node) (ns : List Node) :
    readAll h (n :: ns) = (h n.data).toList ++ readAll h ns := by
  simp only [readAll, List.map_cons, List.filterMap_cons]
  cases h n.data <;> rfl

end Reading

/-- The node with other data. -/
def onData (change : NodeData → NodeData) (n : Node) : Node := { n with data := change n.data }

/-! ### Changes that a part of the data does not see -/

section Unseen

variable {σ : Type u} {bare : NodeData → NodeData} {f : Node → σ → NodeData × σ}

mutual

/-- A visit that changes nothing but what the data lose changes nothing of a tree without it. -/
theorem visit_unseen (hf : ∀ n s, bare (f n s).1 = bare n.data) : ∀ (n : Node) (s : σ),
    map (onData bare) (visit f n s).1 = map (onData bare) n
  | ⟨data, title, text, items, entries, blocks, table⟩, s => by
    simp only [visit, map, onData, hf, visitOpt_unseen hf title, visitOpt_unseen hf text,
      visitAll_unseen hf items, visitEntries_unseen hf entries, visitAll_unseen hf blocks,
      visitTable_unseen hf table]

theorem visitAll_unseen (hf : ∀ n s, bare (f n s).1 = bare n.data) :
    ∀ (ns : List Node) (s : σ), mapAll (onData bare) (visitAll f ns s).1 = mapAll (onData bare) ns
  | [], _ => rfl
  | n :: ns, s => by
    simp only [visitAll, mapAll, visit_unseen hf n, visitAll_unseen hf ns]

theorem visitOpt_unseen (hf : ∀ n s, bare (f n s).1 = bare n.data) :
    ∀ (ns : Option (List Node)) (s : σ),
      mapOpt (onData bare) (visitOpt f ns s).1 = mapOpt (onData bare) ns
  | none, _ => rfl
  | some ns, s => by
    simp only [visitOpt, mapOpt, visitAll_unseen hf ns]

theorem visitEntries_unseen (hf : ∀ n s, bare (f n s).1 = bare n.data) :
    ∀ (es : List (Entry Node)) (s : σ),
      mapEntries (onData bare) (visitEntries f es s).1 = mapEntries (onData bare) es
  | [], _ => rfl
  | ⟨terms, none⟩ :: es, s => by
    simp only [visitEntries, mapEntries, visitAll_unseen hf terms, visitEntries_unseen hf es]
  | ⟨terms, some d⟩ :: es, s => by
    simp only [visitEntries, mapEntries, visitAll_unseen hf terms, visit_unseen hf d,
      visitEntries_unseen hf es]

theorem visitTable_unseen (hf : ∀ n s, bare (f n s).1 = bare n.data) :
    ∀ (t : Option (Table Node)) (s : σ),
      mapTable (onData bare) (visitTable f t s).1 = mapTable (onData bare) t
  | none, _ => rfl
  | some ⟨columns, head, body, foot⟩, s => by
    simp only [visitTable, mapTable, visitRows_unseen hf head, visitRows_unseen hf body,
      visitRows_unseen hf foot]

theorem visitRows_unseen (hf : ∀ n s, bare (f n s).1 = bare n.data) :
    ∀ (rs : List (List (Cell Node))) (s : σ),
      mapRows (onData bare) (visitRows f rs s).1 = mapRows (onData bare) rs
  | [], _ => rfl
  | r :: rs, s => by
    simp only [visitRows, mapRows, visitRow_unseen hf r, visitRows_unseen hf rs]

theorem visitRow_unseen (hf : ∀ n s, bare (f n s).1 = bare n.data) :
    ∀ (cs : List (Cell Node)) (s : σ),
      mapRow (onData bare) (visitRow f cs s).1 = mapRow (onData bare) cs
  | [], _ => rfl
  | ⟨style, paragraphs, blocks, source, colspan, rowspan, halign, valign⟩ :: cs, s => by
    simp only [visitRow, mapRow, visitParagraphs_unseen hf paragraphs, visitAll_unseen hf blocks,
      visitRow_unseen hf cs]

theorem visitParagraphs_unseen (hf : ∀ n s, bare (f n s).1 = bare n.data) :
    ∀ (ps : List (List Node)) (s : σ),
      mapParagraphs (onData bare) (visitParagraphs f ps s).1 = mapParagraphs (onData bare) ps
  | [], _ => rfl
  | p :: ps, s => by
    simp only [visitParagraphs, mapParagraphs, visitAll_unseen hf p, visitParagraphs_unseen hf ps]

end

end Unseen

/-! ### Data put back -/

section Restored

variable {β : Type} {h : NodeData → Option β} {bare : NodeData → NodeData}
  {take : Node → List β → NodeData × List β}

/-- A visitor that gives a node without it what was read of its data, the first of what is left. -/
def Restores (h : NodeData → Option β) (bare : NodeData → NodeData)
    (take : Node → List β → NodeData × List β) : Prop :=
  ∀ (data : NodeData) (title text : Option (List Node)) (items : List Node)
    (entries : List (Entry Node)) (blocks : List Node) (table : Option (Table Node))
    (left : List β),
    take ⟨bare data, title, text, items, entries, blocks, table⟩ ((h data).toList ++ left) =
      (data, left)

mutual

/-- What was read of a tree, put back in the order of the walk, makes it what it was. -/
theorem visit_restores (hr : Restores h bare take) : ∀ (n : Node) (left : List β),
    visit take (map (onData bare) n) (readAll h n.walk ++ left) = (n, left)
  | ⟨data, title, text, items, entries, blocks, table⟩, left => by
    simp only [map, onData, visit, walk, readAll_cons, readAll_append, List.append_assoc, hr data,
      visitOpt_restores hr title, visitOpt_restores hr text, visitAll_restores hr items,
      visitEntries_restores hr entries, visitAll_restores hr blocks, visitTable_restores hr table]

theorem visitAll_restores (hr : Restores h bare take) : ∀ (ns : List Node) (left : List β),
    visitAll take (mapAll (onData bare) ns) (readAll h (walkAll ns) ++ left) = (ns, left)
  | [], _ => rfl
  | n :: ns, left => by
    simp only [mapAll, visitAll, walkAll, readAll_append, List.append_assoc, visit_restores hr n,
      visitAll_restores hr ns]

theorem visitOpt_restores (hr : Restores h bare take) :
    ∀ (ns : Option (List Node)) (left : List β),
      visitOpt take (mapOpt (onData bare) ns) (readAll h (walkOpt ns) ++ left) = (ns, left)
  | none, _ => rfl
  | some ns, left => by
    simp only [mapOpt, visitOpt, walkOpt, visitAll_restores hr ns]

theorem visitEntries_restores (hr : Restores h bare take) :
    ∀ (es : List (Entry Node)) (left : List β),
      visitEntries take (mapEntries (onData bare) es) (readAll h (walkEntries es) ++ left) =
        (es, left)
  | [], _ => rfl
  | ⟨terms, none⟩ :: es, left => by
    simp only [mapEntries, visitEntries, walkEntries, readAll_append, List.append_assoc,
      visitAll_restores hr terms, visitEntries_restores hr es]
  | ⟨terms, some d⟩ :: es, left => by
    simp only [mapEntries, visitEntries, walkEntries, readAll_append, List.append_assoc,
      visitAll_restores hr terms, visit_restores hr d, visitEntries_restores hr es]

theorem visitTable_restores (hr : Restores h bare take) :
    ∀ (t : Option (Table Node)) (left : List β),
      visitTable take (mapTable (onData bare) t) (readAll h (walkTable t) ++ left) = (t, left)
  | none, _ => rfl
  | some ⟨_, head, body, foot⟩, left => by
    simp only [mapTable, visitTable, walkTable, readAll_append, List.append_assoc,
      visitRows_restores hr head, visitRows_restores hr body, visitRows_restores hr foot]

theorem visitRows_restores (hr : Restores h bare take) :
    ∀ (rs : List (List (Cell Node))) (left : List β),
      visitRows take (mapRows (onData bare) rs) (readAll h (walkRows rs) ++ left) = (rs, left)
  | [], _ => rfl
  | r :: rs, left => by
    simp only [mapRows, visitRows, walkRows, readAll_append, List.append_assoc,
      visitRow_restores hr r, visitRows_restores hr rs]

theorem visitRow_restores (hr : Restores h bare take) :
    ∀ (cs : List (Cell Node)) (left : List β),
      visitRow take (mapRow (onData bare) cs) (readAll h (walkRow cs) ++ left) = (cs, left)
  | [], _ => rfl
  | ⟨_, paragraphs, blocks, _, _, _, _, _⟩ :: cs, left => by
    simp only [mapRow, visitRow, walkRow, readAll_append, List.append_assoc,
      visitParagraphs_restores hr paragraphs, visitAll_restores hr blocks, visitRow_restores hr cs]

theorem visitParagraphs_restores (hr : Restores h bare take) :
    ∀ (ps : List (List Node)) (left : List β),
      visitParagraphs take (mapParagraphs (onData bare) ps)
        (readAll h (walkParagraphs ps) ++ left) = (ps, left)
  | [], _ => rfl
  | p :: ps, left => by
    simp only [mapParagraphs, visitParagraphs, walkParagraphs, readAll_append, List.append_assoc,
      visitAll_restores hr p, visitParagraphs_restores hr ps]

end

/-- Where what was read can be put back, parts that are the same without it and of which the same
was read are the same. -/
theorem eq_of_restores {α : Type} {walkOf : α → List Node} {bareOf : α → α}
    {refill : α → List β → α × List β}
    (hrefill : ∀ a left, refill (bareOf a) (readAll h (walkOf a) ++ left) = (a, left))
    {a b : α} {left left' : List β} (hsame : bareOf a = bareOf b)
    (hread : readAll h (walkOf a) ++ left = readAll h (walkOf b) ++ left') :
    a = b ∧ left = left' := by
  have hback := hrefill a left
  rw [hsame, hread, hrefill] at hback
  exact ⟨(congrArg Prod.fst hback).symm, (congrArg Prod.snd hback).symm⟩

end Restored

/-! ### Frames -/

/-- The tree with blank data in all its nodes. -/
def frame (n : Node) : Node := n.map (onData fun _ => {})

/-- Gives a node the first of the data. -/
def takeData (_ : Node) (left : List NodeData) : NodeData × List NodeData :=
  (left.headD {}, left.tail)

theorem frame_visit {σ : Type u} (f : Node → σ → NodeData × σ) (n : Node) (s : σ) :
    (visit f n s).1.frame = n.frame :=
  visit_unseen (fun _ _ => rfl) n s

theorem readAll_some (ns : List Node) : readAll some ns = ns.map data := List.filterMap_some

/-- A tree is its frame and its data in the order of the walk. -/
theorem eq_of_frame {m n : Node} (hframe : m.frame = n.frame)
    (hdata : m.walk.map data = n.walk.map data) : m = n := by
  have htake : Restores some (fun _ => {}) takeData := fun _ _ _ _ _ _ _ _ => rfl
  have hread : readAll some m.walk ++ [] = readAll some n.walk ++ [] := by
    rw [readAll_some, readAll_some, hdata]
  exact (eq_of_restores (visit_restores htake) hframe hread).1

/-! ### Visits that change nothing -/

section Untouched

variable {σ : Type u} {f : Node → σ → NodeData × σ}

/-- The nodes that a visit leaves as they are. -/
abbrev Untouched (f : Node → σ → NodeData × σ) (ns : List Node) : Prop :=
  ∀ n ∈ ns, ∀ s, f n s = (n.data, s)

theorem scan_untouched {ns : List Node} (h : Untouched f ns) (s : σ) :
    scan f ns s = (ns.map data, s) := by
  induction ns with
  | nil => rfl
  | cons n ns ih =>
    obtain ⟨hn, hns⟩ := List.forall_mem_cons.mp h
    simp only [scan, hn, ih hns, List.map_cons]

theorem visit_untouched {n : Node} (h : Untouched f n.walk) (s : σ) : visit f n s = (n, s) := by
  have htrace : trace walk (visit f n s) = (n.walk.map data, s) :=
    (visit_trace f n s).trans (scan_untouched h s)
  obtain ⟨hdata, hstate⟩ := Prod.mk.inj htrace
  exact Prod.ext (eq_of_frame (frame_visit f n s) hdata) hstate

theorem visitAll_untouched {ns : List Node} (h : Untouched f (walkAll ns)) (s : σ) :
    visitAll f ns s = (ns, s) := by
  induction ns with
  | nil => rfl
  | cons n ns ih =>
    obtain ⟨hn, hns⟩ := List.forall_mem_append.mp h
    simp only [visitAll, visit_untouched hn, ih hns]

theorem visitOpt_untouched {ns : Option (List Node)} (h : Untouched f (walkOpt ns)) (s : σ) :
    visitOpt f ns s = (ns, s) := by
  cases ns with
  | none => rfl
  | some ns => simp only [visitOpt, visitAll_untouched h]

end Untouched

end DocPress.Node
