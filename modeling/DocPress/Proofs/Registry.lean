import DocPress.Proofs.Indexing

/-! What the catalog knows of an id. The nodes of the header title come before those of the tree,
and the first node that stands for an id makes its entry; since targets are registered last, the
entry shows this node as it stands in the prepared document. -/

namespace DocPress

set_option autoImplicit false

/-- Whether a node stands for an id: an anchor for references or of a bibliography, or a block
other than a document. -/
def Node.StandsFor (n : Node) (id : String) : Prop :=
  n.id = some id ∧
    (n.kind = .inlineAnchor ∧ (n.variant = some "ref" ∨ n.variant = some "bibref") ∨
      n.isInline = false ∧ n.kind ≠ .document)

instance (n : Node) (id : String) : Decidable (n.StandsFor id) :=
  inferInstanceAs (Decidable (_ ∧ _))

theorem Node.isRegistrable_iff (n : Node) : n.isRegistrable = true ↔
    n.kind = .inlineAnchor ∧ (n.variant = some "ref" ∨ n.variant = some "bibref") ∨
      n.isInline = false ∧ n.kind ≠ .document := by
  unfold Node.isRegistrable Node.isInline
  cases n.kind with
  | inlineAnchor => simp [Kind.isInline]
  | _ => simp [Kind.isInline]

theorem Node.standsFor_iff (n : Node) (id : String) :
    n.StandsFor id ↔ n.id = some id ∧ n.isRegistrable = true := by
  rw [Node.StandsFor, Node.isRegistrable_iff]

/-! ### Registering -/

/-- Registering a node leaves the entries there are, and adds one for the id it stands for. -/
theorem get?_registerRef (refs : SortedMap RefTarget) (n : Node) (id : String) :
    (registerRef refs n).get? id =
      (refs.get? id <|> if n.StandsFor id then some (.ofNode id n) else none) := by
  have hstands := n.standsFor_iff id
  cases hid : n.id with
  | none =>
    have hnot : ¬ n.StandsFor id := by
      rw [hstands, hid]
      simp
    simp [registerRef, hid, hnot]
  | some own =>
    rw [hid] at hstands
    by_cases hown : own = id
    · subst hown
      cases hr : n.isRegistrable with
      | false => simp [registerRef, hid, hr, hstands]
      | true =>
        cases hc : refs.get? own with
        | some t => simp [registerRef, hid, hr, SortedMap.contains, hc]
        | none => simp [registerRef, hid, hr, hstands, SortedMap.contains, hc]
    · have hnot : ¬ n.StandsFor id := by
        rw [hstands]
        intro h
        exact hown (Option.some.inj h.1)
      have hne : id ≠ own := fun h => hown h.symm
      simp only [registerRef, hid, hnot, if_false, Option.orElse_eq_orElse]
      split
      · simp [hne]
      · simp

/-- The entry of an id after registering nodes is the earlier one, or that of the first node that
stands for the id. -/
theorem get?_registerRefs (ns : List Node) (refs : SortedMap RefTarget) (id : String) :
    (ns.foldl registerRef refs).get? id =
      (refs.get? id <|> (ns.find? fun n => decide (n.StandsFor id)).map (.ofNode id)) := by
  induction ns generalizing refs with
  | nil => simp
  | cons n ns ih =>
    rw [List.foldl_cons, ih, get?_registerRef, List.find?_cons]
    cases refs.get? id with
    | some t => rfl
    | none =>
      by_cases hn : n.StandsFor id
      · simp [hn]
      · simp [hn]

namespace Document

/-- The catalog of a prepared document has for an id the entry of the first node that stands for
it, among those of the header title and then of the tree, as the node is in the prepared document;
it has none if there is no such node. What stands in the title of an entry stands in the document,
with the same numbers of footnotes. -/
theorem prepareWith_entries (defaults : SortedMap String) (d : Document) (id : String) :
    let p := d.prepareWith defaults
    let nodes := Node.walkAll ((p.header.map Header.title).getD []) ++ p.root.walk
    (∀ t, p.catalog.ref? id = some t ↔
      ∃ ahead n behind, nodes = ahead ++ n :: behind ∧ n.StandsFor id ∧
        (∀ m ∈ ahead, ¬ m.StandsFor id) ∧ t = .ofNode id n) ∧
    (p.catalog.ref? id = none ↔ ∀ n ∈ nodes, ¬ n.StandsFor id) ∧
    ∀ t, p.catalog.ref? id = some t →
      (∃ n ∈ nodes, t.title = n.title ∧ t.sectnum = n.sectnum ∧ t.caption = n.caption) ∧
      Node.walkOpt t.title ⊆ nodes := by
  intro p nodes
  have hfirst : p.catalog.ref? id =
      (nodes.find? fun n => decide (n.StandsFor id)).map (.ofNode id) := by
    change (p.registered.foldl registerRef ∅).get? id = _
    rw [get?_registerRefs]
    rfl
  have hsome : ∀ t, p.catalog.ref? id = some t ↔
      ∃ ahead n behind, nodes = ahead ++ n :: behind ∧ n.StandsFor id ∧
        (∀ m ∈ ahead, ¬ m.StandsFor id) ∧ t = .ofNode id n := by
    intro t
    rw [hfirst, Option.map_eq_some_iff]
    constructor
    · rintro ⟨n, hn, rfl⟩
      obtain ⟨hstands, ahead, behind, hsplit, hahead⟩ := List.find?_eq_some_iff_append.mp hn
      refine ⟨ahead, n, behind, hsplit, of_decide_eq_true hstands, ?_, rfl⟩
      intro m hm
      simpa using hahead m hm
    · rintro ⟨ahead, n, behind, hsplit, hstands, hahead, rfl⟩
      refine ⟨n, ?_, rfl⟩
      apply List.find?_eq_some_iff_append.mpr
      refine ⟨decide_eq_true hstands, ahead, behind, hsplit, ?_⟩
      intro m hm
      simpa using hahead m hm
  refine ⟨hsome, ?_, ?_⟩
  · rw [hfirst, Option.map_eq_none_iff, List.find?_eq_none]
    simp only [decide_eq_true_eq]
  · intro t ht
    obtain ⟨ahead, n, behind, hsplit, -, -, rfl⟩ := (hsome t).mp ht
    constructor
    · refine ⟨n, ?_, rfl, rfl, rfl⟩
      rw [hsplit]
      simp
    · intro m hm
      exact target_prepared ht hm

end Document

end DocPress
