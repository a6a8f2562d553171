import DocPress.Converter
import DocPress.Node.Build
import DocPress.Proofs.FootnoteLinks
import DocPress.Proofs.Sights

/-! Targets of references have a place to land. Every node with an id that can be referred to is in
the catalog, and the page has a tag with this id where the rules of the node's place print one:
those of breaks, callouts, terms and descriptions do not. -/

namespace DocPress

set_option autoImplicit false

/-! ### Registered ids -/

section

variable {refs : SortedMap RefTarget} {n : Node} {id : String}

theorem isSome_registerRef (h : (refs.get? id).isSome = true) :
    ((registerRef refs n).get? id).isSome = true := by
  unfold registerRef
  split
  · split
    · rw [SortedMap.get?_insert]
      split
      · rfl
      · exact h
    · exact h
  · exact h

theorem isSome_registerRefs {ns : List Node} (h : (refs.get? id).isSome = true) :
    ((ns.foldl registerRef refs).get? id).isSome = true := by
  induction ns generalizing refs with
  | nil => exact h
  | cons n ns ih => exact ih (isSome_registerRef h)

theorem registerRef_self (hid : n.id = some id) (hn : n.isRegistrable = true) :
    ((registerRef refs n).get? id).isSome = true := by
  unfold registerRef
  rw [hid]
  simp only [hn, Bool.true_and]
  cases hc : refs.contains id with
  | true => exact hc
  | false => simp

/-- A node that can be referred to is registered, or another one with its id is. -/
theorem isSome_of_registered {ns : List Node} (h : n ∈ ns) (hid : n.id = some id)
    (hn : n.isRegistrable = true) : ((ns.foldl registerRef refs).get? id).isSome = true := by
  induction ns generalizing refs with
  | nil => exact absurd h List.not_mem_nil
  | cons m ns ih =>
    rw [List.foldl_cons]
    rcases List.mem_cons.1 h with rfl | h
    · exact isSome_registerRefs (registerRef_self hid hn)
    · exact ih h

end

/-! ### Landings -/

theorem Sight.mem_read {s : Scene} {x : Sight} {n : Node} (h : x.landing? (Block.isBook s) = some n)
    {id : String} (hid : n.id = some id) :
    Text.escapedAttribute id.toList ∈ x.read .all s := by
  have hvalue : Text.escapedAttribute id.toList ∈ n.data.idValues := by
    have hdata : n.data.id = some id := hid
    simp [NodeData.idValues, hdata]
  cases x with
  | text _ => cases node?_of_landing? h
  | equation _ => cases node?_of_landing? h
  | listing _ => cases node?_of_landing? h
  | _ =>
    simp only [read, h]
    exact hvalue

namespace Converter

/-- Every node that a page shows at a place for its id has a tag with this id, and the id is in the
catalog if the node can be referred to. The places are those of blocks, but for a nested document, a
preamble, a pass block, a break, an item among blocks and what is left out, and of the items of
ordered and unordered lists. -/
theorem embedded_landings (c : Converter) (d : Document) (defaults : SortedMap String) :
    let s := c.scene (d.prepareWith defaults)
    ∀ x ∈ s.doc.sights, ∀ n, x.landing? (Block.isBook s) = some n → ∀ id, n.id = some id →
      (n.isRegistrable = true → ∃ target, s.doc.catalog.ref? id = some target) ∧
      ∃ t ∈ tagsOf (Page.embedded s).value, ∃ v, ("id".toList, some v) ∈ t.attrs ∧
        Text.decoded v = id.toList ∧ t.written <:+: (c.embedded s.doc).html.toList := by
  intro s x hx n hn id hid
  have hhtml : (c.embedded s.doc).html.toList = (Page.embedded s).value.chars :=
    String.toList_ofList
  refine ⟨fun hregistrable => ?_, ?_⟩
  · have hwalk := Document.mem_walk_of_sight hx (Sight.node?_of_landing? hn)
    have hregistered : n ∈ s.doc.registered := List.mem_append_right _ hwalk
    exact Option.isSome_iff_exists.1
      (isSome_of_registered hregistered hid hregistrable)
  · have hids : Text.escapedAttribute id.toList ∈ idsIn (Page.embedded s).value := by
      rw [idsIn, Page.read_embedded]
      exact List.mem_append_right _ (List.mem_flatMap.2 ⟨x, hx, Sight.mem_read hn hid⟩)
    obtain ⟨t, ht, hv⟩ := List.mem_flatMap.1 hids
    refine ⟨t, ht, _, TagRead.mem_ids.1 hv, Text.decoded_escapedAttribute _, ?_⟩
    rw [hhtml]
    exact written_withinOf _ t ht

/-- A list with an item whose id is to be escaped. -/
def itemSample : Document :=
  let item := { Node.ofKind .listItem with text := some [.plain "one"] }
  Document.blank.withBlocks [(Node.ofKind .olist).withItem (item.withId "a&b")]

theorem embedded_itemLanding :
    let s := (⟨.initial, none, .blank⟩ : Converter).scene (itemSample.prepareWith ∅)
    let item := ({ Node.ofKind .listItem with text := some [.plain "one"] } : Node).withId "a&b"
    .item item ∈ s.doc.sights ∧ (Sight.item item).landing? (Block.isBook s) = some item ∧
      item.id = some "a&b" ∧ item.isRegistrable = true ∧
      (∃ target, s.doc.catalog.ref? "a&b" = some target) ∧
      ∃ t ∈ tagsOf (Page.embedded s).value, ∃ v, ("id".toList, some v) ∈ t.attrs ∧
        Text.decoded v = "a&b".toList := by
  intro s item
  have hx : .item item ∈ s.doc.sights := .tail _ (.tail _ (.head _))
  obtain ⟨htarget, t, ht, v, hv, hid, -⟩ :=
    embedded_landings ⟨.initial, none, .blank⟩ itemSample ∅ _ hx item rfl "a&b" rfl
  exact ⟨hx, rfl, rfl, rfl, htarget rfl, t, ht, v, hv, hid⟩

/-- A break, a callout, a term and a description, each with an id. -/
def placelessSample : Document :=
  let item (id : String) : Node := (Node.ofKind .listItem).withId id
  let entry : Entry Node := ⟨[item "term"], some (item "description")⟩
  Document.blank.withBlocks [(Node.ofKind .thematicBreak).withId "break",
    (Node.ofKind .colist).withItem (item "callout"), (Node.ofKind .dlist).withEntry entry]

/-- Their ids are in the catalog and the page shows the nodes, but no tag has one of the ids. -/
theorem embedded_noLanding :
    let s := (⟨.initial, none, .blank⟩ : Converter).scene (placelessSample.prepareWith ∅)
    ∀ id ∈ ["break", "callout", "term", "description"],
      (s.doc.catalog.ref? id).isSome = true ∧
      (∃ x ∈ s.doc.sights, ∃ n, x.node? = some n ∧ n.id = some id ∧ n.isRegistrable = true) ∧
      ∀ t ∈ tagsOf (Page.embedded s).value, ∀ v, ("id".toList, some v) ∈ t.attrs →
        Text.decoded v ≠ id.toList := by
  intro s
  have hregistered : ∀ id ∈ ["break", "callout", "term", "description"],
      (s.doc.catalog.ref? id).isSome = true ∧ ∃ x ∈ s.doc.sights,
        (x.node?.any fun n => n.id == some id && n.isRegistrable) = true := by
    decide
  have hnone : ∀ t ∈ tagsOf (Page.embedded s).value, t.ids = [] := by decide
  intro id hid
  obtain ⟨hcatalog, x, hx, hnode⟩ := hregistered id hid
  refine ⟨hcatalog, ⟨x, hx, ?_⟩, fun t ht v hv => ?_⟩
  · cases hn : x.node? with
    | none =>
      rw [hn] at hnode
      cases hnode
    | some n =>
      rw [hn] at hnode
      exact ⟨n, rfl, by simpa using hnode⟩
  · have hmem := TagRead.mem_ids.2 hv
    rw [hnone t ht] at hmem
    exact absurd hmem List.not_mem_nil

end Converter

end DocPress
