import DocPress.Document.Basic
import DocPress.Proofs.Walk

/-! The nodes right below a node, induction from them to the node, what becomes of them in a changed
tree, and all nodes of a document. -/

namespace DocPress

set_option autoImplicit false

section

variable {α : Type}

def Entry.nodes (e : Entry α) : List α := e.terms ++ e.description.toList

def Cell.nodes (c : Cell α) : List α := c.paragraphs.flatten ++ c.blocks

def Table.nodes (t : Table α) : List α := t.cells.flatMap Cell.nodes

end

namespace Node

/-- The nodes right below a node in document order. -/
def children (n : Node) : List Node :=
  n.title.getD [] ++ n.text.getD [] ++ n.items ++ n.entries.flatMap Entry.nodes ++ n.blocks ++
    n.table.toList.flatMap Table.nodes

theorem walkAll_eq (ns : List Node) : walkAll ns = ns.flatMap walk := by
  induction ns with
  | nil => rfl
  | cons n ns ih => rw [walkAll, ih, List.flatMap_cons]

theorem walkOpt_eq (ns : Option (List Node)) : walkOpt ns = (ns.getD []).flatMap walk := by
  cases ns with
  | none => rfl
  | some ns => exact walkAll_eq ns

theorem walkEntries_eq (es : List (Entry Node)) :
    walkEntries es = (es.flatMap Entry.nodes).flatMap walk := by
  induction es with
  | nil => rfl
  | cons e es ih =>
    obtain ⟨terms, _ | d⟩ := e <;> simp [walkEntries, Entry.nodes, walkAll_eq, ih]

theorem walkParagraphs_eq (ps : List (List Node)) :
    walkParagraphs ps = ps.flatten.flatMap walk := by
  induction ps with
  | nil => rfl
  | cons p ps ih => simp [walkParagraphs, walkAll_eq, ih]

theorem walkRow_eq (r : List (Cell Node)) : walkRow r = (r.flatMap Cell.nodes).flatMap walk := by
  induction r with
  | nil => rfl
  | cons c cs ih =>
    simp [walkRow, Cell.nodes, walkParagraphs_eq, walkAll_eq, ih]

theorem walkRows_eq (rs : List (List (Cell Node))) :
    walkRows rs = (rs.flatten.flatMap Cell.nodes).flatMap walk := by
  induction rs with
  | nil => rfl
  | cons r rs ih => simp [walkRows, walkRow_eq, ih]

theorem walkTable_eq (t : Option (Table Node)) :
    walkTable t = (t.toList.flatMap Table.nodes).flatMap walk := by
  cases t with
  | none => rfl
  | some t => simp [walkTable, Table.nodes, Table.cells, walkRows_eq]

/-- A walk is the node and the walks of its children. -/
theorem walk_children (n : Node) : n.walk = n :: n.children.flatMap walk := by
  rw [walk_eq, walkOpt_eq, walkOpt_eq, walkAll_eq, walkEntries_eq, walkAll_eq, walkTable_eq]
  simp only [children, List.flatMap_append]

theorem walk_sublist_of_child {m n : Node} (h : m ∈ n.children) :
    m.walk.Sublist (n.children.flatMap walk) := by
  obtain ⟨before, after, hsplit⟩ := List.append_of_mem h
  rw [hsplit, List.flatMap_append, List.flatMap_cons]
  exact (List.sublist_append_left _ _).trans (List.sublist_append_right _ _)

theorem walk_subset_of_child {m n : Node} (h : m ∈ n.children) : m.walk ⊆ n.walk := by
  rw [walk_children n]
  exact List.subset_cons_of_subset n (walk_sublist_of_child h).subset

/-- What holds of a node whenever it holds of its children holds of every node: the induction is on
the length of the walk. -/
theorem induction_children {P : Node → Prop} (step : ∀ n, (∀ m ∈ n.children, P m) → P n)
    (n : Node) : P n := by
  induction h : n.walk.length using Nat.strongRecOn generalizing n with
  | ind size ih =>
    refine step n fun m hm => ih m.walk.length ?_ m rfl
    rw [← h, walk_children n, List.length_cons]
    exact Nat.lt_succ_of_le (walk_sublist_of_child hm).length_le

section Parts

variable {n m : Node}

theorem mem_children_title (h : m ∈ n.title.getD []) : m ∈ n.children := by
  simp [children, h]

theorem mem_children_text (h : m ∈ n.text.getD []) : m ∈ n.children := by
  simp [children, h]

theorem mem_children_items (h : m ∈ n.items) : m ∈ n.children := by
  simp [children, h]

theorem mem_children_blocks (h : m ∈ n.blocks) : m ∈ n.children := by
  simp [children, h]

theorem mem_children_entry {e : Entry Node} (he : e ∈ n.entries) (h : m ∈ e.nodes) :
    m ∈ n.children := by
  simp only [children, List.mem_append, List.mem_flatMap]
  exact .inl (.inl (.inr ⟨e, he, h⟩))

theorem mem_children_cell {t : Table Node} {c : Cell Node} (ht : n.table = some t)
    (hc : c ∈ t.cells) (h : m ∈ c.nodes) : m ∈ n.children := by
  simp only [children, List.mem_append, List.mem_flatMap, ht, Option.toList_some,
    List.mem_singleton, exists_eq_left, Table.nodes]
  exact .inr ⟨c, hc, h⟩

end Parts

/-! ### Children of a changed tree -/

section Maps

variable {g : Node → Node}

theorem mapAll_eq (ns : List Node) : mapAll g ns = ns.map (map g) := by
  induction ns with
  | nil => rfl
  | cons n ns ih => rw [mapAll, ih, List.map_cons]

theorem mapOpt_eq (ns : Option (List Node)) : mapOpt g ns = ns.map (List.map (map g)) := by
  cases ns with
  | none => rfl
  | some ns => rw [mapOpt, mapAll_eq, Option.map_some]

theorem nodes_mapEntries (es : List (Entry Node)) :
    (mapEntries g es).flatMap Entry.nodes = (es.flatMap Entry.nodes).map (map g) := by
  induction es with
  | nil => rfl
  | cons e es ih =>
    obtain ⟨terms, _ | d⟩ := e <;> simp [mapEntries, Entry.nodes, mapAll_eq, ih]

theorem mapParagraphs_eq (ps : List (List Node)) :
    mapParagraphs g ps = ps.map (List.map (map g)) := by
  induction ps with
  | nil => rfl
  | cons p ps ih => rw [mapParagraphs, mapAll_eq, ih, List.map_cons]

theorem nodes_mapRow (r : List (Cell Node)) :
    (mapRow g r).flatMap Cell.nodes = (r.flatMap Cell.nodes).map (map g) := by
  induction r with
  | nil => rfl
  | cons c cs ih => simp [mapRow, Cell.nodes, mapParagraphs_eq, mapAll_eq, ih]

theorem nodes_mapRows (rs : List (List (Cell Node))) :
    (mapRows g rs).flatten.flatMap Cell.nodes = (rs.flatten.flatMap Cell.nodes).map (map g) := by
  induction rs with
  | nil => rfl
  | cons r rs ih => simp [mapRows, nodes_mapRow, ih]

theorem nodes_mapTable (t : Option (Table Node)) :
    (mapTable g t).toList.flatMap Table.nodes = (t.toList.flatMap Table.nodes).map (map g) := by
  cases t with
  | none => rfl
  | some t => simp [mapTable, Table.nodes, Table.cells, nodes_mapRows]

/-- Where a change of nodes keeps their children, the children of a tree change each for itself. -/
theorem children_map (hg : ∀ n, (g n).children = n.children) (n : Node) :
    (map g n).children = n.children.map (map g) := by
  obtain ⟨data, title, text, items, entries, blocks, table⟩ := n
  rw [map, hg]
  simp only [children, mapOpt_eq, mapAll_eq, nodes_mapEntries, nodes_mapTable, List.map_append]
  cases title <;> cases text <;> rfl

end Maps

end Node

def Document.headerNodes (d : Document) : List Node :=
  Node.walkAll d.headerOrBlank.title ++ Node.walkOpt d.headerOrBlank.subtitle

/-- Whether a document holds a node: in its tree, its header or its catalog. -/
inductive Document.Holds (d : Document) (n : Node) : Prop
  | tree (h : n ∈ d.root.walk)
  | header (h : n ∈ d.headerNodes)
  | target {id : String} {t : RefTarget} (ht : d.catalog.ref? id = some t)
    (h : n ∈ Node.walkOpt t.title)
  | note {f : Footnote} (hf : f ∈ d.catalog.footnotes) (h : n ∈ Node.walkAll f.text)

end DocPress
