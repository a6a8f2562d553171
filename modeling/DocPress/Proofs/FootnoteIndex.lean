import DocPress.Proofs.Indexing
import Mathlib.Data.List.Forall2

/-! The catalog of footnotes and the numbers in the tree, read against each other. A definition
gets the number of the entry it makes; a reference back repeats the number of the first definition
ahead of it that has the id it asks for, and has none if there is no such definition. -/

namespace DocPress

set_option autoImplicit false

/-- The footnotes of a tree in document order. -/
def Node.footnoteNodes (n : Node) : List Node := n.walk.filter Node.isFootnote

/-- Whether an entry of the catalog is that of a definition in the tree. -/
structure Footnote.EntryOf (f : Footnote) (n : Node) : Prop where
  id : f.id = n.id
  index : n.attributes.get? indexName = some (.text (toString f.index))

/-- The collected footnotes are those of the definitions among the nodes, in this order. -/
def CollectedFrom (footnotes : List Footnote) (ns : List Node) : Prop :=
  List.Forall₂ Footnote.EntryOf footnotes (ns.filter Node.definesFootnote)

/-- The number that a reference back finds among the nodes ahead of it. -/
def Node.indexAmong (ahead : List Node) (n : Node) : Option AttrValue :=
  n.footnoteRefId.bind fun id =>
    (ahead.find? fun m => m.definesFootnote && m.id == some id).bind
      (·.attributes.get? indexName)

theorem Node.indexAmong_filter (ahead : List Node) (n : Node) :
    n.indexAmong (ahead.filter Node.isFootnote) = n.indexAmong ahead := by
  have hfind : ∀ id, (ahead.filter Node.isFootnote).find?
      (fun m => m.definesFootnote && m.id == some id) =
        ahead.find? fun m => m.definesFootnote && m.id == some id := by
    intro id
    rw [List.find?_filter]
    congr 1
    funext m
    cases hm : m.isFootnote <;> simp only [Node.definesFootnote, hm, Bool.true_and,
      Bool.false_and, Bool.false_eq_true, and_false, decide_false, true_and,
      Bool.decide_eq_true]
  simp only [Node.indexAmong, hfind]

def NodeData.footnote? (d : NodeData) : Option NodeData :=
  if d.kind == .inlineFootnote then some d else none

/-! ### One node after the other -/

theorem attributes_withIndex (d : NodeData) (i : Nat) :
    (d.withIndex i).attributes.get? indexName = some (.text (toString i)) := by
  simp [NodeData.withIndex]

theorem attributes_withoutIndex (d : NodeData) :
    d.withoutIndex.attributes.get? indexName = none := by
  simp [NodeData.withoutIndex]

/-- Indexing changes nothing of a node but its number. -/
theorem indexFootnote_withoutIndex (n : Node) (footnotes : List Footnote) :
    (indexFootnote n footnotes).1.withoutIndex = n.data.withoutIndex := by
  have hindex : ∀ i, (n.data.withoutIndex.withIndex i).withoutIndex = n.data.withoutIndex := by
    intro i
    have herase : ((n.data.attributes.erase indexName).insert indexName
        (.text (toString i))).erase indexName = n.data.attributes.erase indexName := by
      refine SortedMap.eq_of_get? fun other => ?_
      by_cases h : other = indexName <;> simp [h]
    simp only [NodeData.withoutIndex, NodeData.withIndex, herase]
  rw [indexFootnote_data]
  split
  · rfl
  · split
    · split
      · exact hindex _
      · exact NodeData.withoutIndex_twice _
    · exact hindex _

section Same

variable {n m : Node}

theorem kind_of_withoutIndex (h : m.data.withoutIndex = n.data.withoutIndex) :
    m.kind = n.kind := (congrArg NodeData.kind h :)

theorem variant_of_withoutIndex (h : m.data.withoutIndex = n.data.withoutIndex) :
    m.variant = n.variant := (congrArg NodeData.variant h :)

theorem id_of_withoutIndex (h : m.data.withoutIndex = n.data.withoutIndex) :
    m.id = n.id := (congrArg NodeData.id h :)

theorem footnoteRefId_of_withoutIndex (h : m.data.withoutIndex = n.data.withoutIndex) :
    m.footnoteRefId = n.footnoteRefId := by
  have htarget : m.target = n.target := (congrArg NodeData.target h :)
  simp only [Node.footnoteRefId, htarget, id_of_withoutIndex h]

theorem isFootnote_of_withoutIndex (h : m.data.withoutIndex = n.data.withoutIndex) :
    m.isFootnote = n.isFootnote := by
  simp only [Node.isFootnote, kind_of_withoutIndex h]

theorem definesFootnote_of_withoutIndex (h : m.data.withoutIndex = n.data.withoutIndex) :
    m.definesFootnote = n.definesFootnote := by
  simp only [Node.definesFootnote, isFootnote_of_withoutIndex h, variant_of_withoutIndex h]

theorem isFootnoteRef_of_withoutIndex (h : m.data.withoutIndex = n.data.withoutIndex) :
    m.isFootnoteRef = n.isFootnoteRef := by
  simp only [Node.isFootnoteRef, isFootnote_of_withoutIndex h, variant_of_withoutIndex h]

end Same

/-- A lookup among collected footnotes finds the entry of the first definition with the id. -/
theorem findFootnote_collected {footnotes : List Footnote} {ns : List Node}
    (h : CollectedFrom footnotes ns) (id : String) :
    (findFootnote id footnotes).map (fun f => AttrValue.text (toString f.index)) =
      (ns.find? fun m => m.definesFootnote && m.id == some id).bind
        (·.attributes.get? indexName) := by
  have hfilter : ns.find? (fun m => m.definesFootnote && m.id == some id) =
      (ns.filter Node.definesFootnote).find? fun m => m.id == some id := by
    rw [List.find?_filter]
    simp only [Bool.decide_and, Bool.decide_eq_true]
  rw [hfilter]
  unfold CollectedFrom at h
  revert h
  generalize ns.filter Node.definesFootnote = definitions
  intro h
  induction h with
  | nil => rfl
  | @cons f m footnotes definitions hm _ ih =>
    rw [findFootnote, List.find?_cons, List.find?_cons, hm.id]
    cases m.id == some id with
    | true => simp [hm.index]
    | false => exact ih

variable {n m : Node} {footnotes : List Footnote} {ahead : List Node}

/-- The number of a reference back is that of the first definition ahead with the id. -/
theorem reference_index (h : CollectedFrom footnotes ahead)
    (hm : m.data = (indexFootnote n footnotes).1) (hr : m.isFootnoteRef = true) :
    m.attributes.get? indexName = m.indexAmong ahead := by
  have hsame : m.data.withoutIndex = n.data.withoutIndex := by
    rw [hm, indexFootnote_withoutIndex]
  rw [isFootnoteRef_of_withoutIndex hsame, Node.isFootnoteRef, Bool.and_eq_true] at hr
  have hv : n.variant = some "xref" := by simpa using hr.2
  have hdata := indexFootnote_data n footnotes
  rw [if_neg (by simp [hr.1]), if_pos hv, ← hm] at hdata
  rw [Node.indexAmong, footnoteRefId_of_withoutIndex hsame]
  cases hid : n.footnoteRefId with
  | none =>
    simp only [hid, Option.bind_none] at hdata
    rw [Node.attributes, hdata, attributes_withoutIndex]
    rfl
  | some id =>
    rw [Option.bind_some, ← findFootnote_collected h]
    simp only [hid, Option.bind_some] at hdata
    cases hf : findFootnote id footnotes with
    | none =>
      simp only [hf, Option.map_none] at hdata
      rw [Node.attributes, hdata, attributes_withoutIndex]
      rfl
    | some f =>
      simp only [hf, Option.map_some] at hdata
      rw [Node.attributes, hdata, attributes_withIndex]
      rfl

/-- What indexing collects at a node stays what the definitions of the tree make. -/
theorem CollectedFrom.step (h : CollectedFrom footnotes ahead)
    (hm : m.data = (indexFootnote n footnotes).1) :
    CollectedFrom (indexFootnote n footnotes).2 (ahead ++ [m]) := by
  have hsame : m.data.withoutIndex = n.data.withoutIndex := by
    rw [hm, indexFootnote_withoutIndex]
  rw [indexFootnote_state, CollectedFrom, List.filter_append]
  cases hd : n.definesFootnote with
  | true =>
    have hmd := (definesFootnote_of_withoutIndex hsame).trans hd
    have hfoot : n.isFootnote = true ∧ n.variant ≠ some "xref" := by
      simpa [Node.definesFootnote] using hd
    have hentry : Footnote.EntryOf ⟨footnotes.length + 1, n.id, n.text.getD []⟩ m := by
      refine ⟨(id_of_withoutIndex hsame).symm, ?_⟩
      rw [Node.attributes, hm, indexFootnote_data, if_neg (by simp [hfoot.1]), if_neg hfoot.2,
        attributes_withIndex]
    have hlast : [m].filter Node.definesFootnote = [m] := by simp [hmd]
    rw [if_pos rfl, hlast]
    exact List.rel_append h (.cons hentry .nil)
  | false =>
    have hmd := (definesFootnote_of_withoutIndex hsame).trans hd
    have hlast : [m].filter Node.definesFootnote = [] := by simp [hmd]
    rw [if_neg Bool.false_ne_true, hlast, List.append_nil]
    exact h

/-! ### Along the tree -/

/-- Every reference back among the nodes has the number that it finds ahead of it. -/
def RefersBack (ns : List Node) : Prop :=
  ∀ ahead n behind, ns = ahead ++ n :: behind → n.isFootnoteRef = true →
    n.attributes.get? indexName = n.indexAmong ahead

theorem RefersBack.concat {ns : List Node} (h : RefersBack ns)
    (hm : m.isFootnoteRef = true → m.attributes.get? indexName = m.indexAmong ns) :
    RefersBack (ns ++ [m]) := by
  intro ahead n behind hsplit hr
  rcases List.eq_nil_or_concat behind with rfl | ⟨behind, last, rfl⟩
  · obtain ⟨rfl, hn⟩ := List.append_inj' hsplit rfl
    obtain rfl := List.singleton_inj.1 hn
    exact hm hr
  · rw [List.concat_eq_append, ← List.cons_append, ← List.append_assoc] at hsplit
    obtain ⟨rfl, -⟩ := List.append_inj' hsplit rfl
    exact h ahead n behind rfl hr

/-- Along a list, the definitions make the collected footnotes and the references find them. -/
theorem scan_collected (ns ms : List Node) (footnotes : List Footnote) (ahead : List Node)
    (hc : CollectedFrom footnotes ahead) (hr : RefersBack ahead)
    (hms : ms.map Node.data = (Node.scan indexFootnote ns footnotes).1) :
    CollectedFrom (Node.scan indexFootnote ns footnotes).2 (ahead ++ ms) ∧
      RefersBack (ahead ++ ms) := by
  induction ns generalizing ms footnotes ahead with
  | nil =>
    obtain rfl : ms = [] := List.map_eq_nil_iff.1 hms
    rw [List.append_nil]
    exact ⟨hc, hr⟩
  | cons n ns ih =>
    obtain ⟨m, ms, rfl, hm, hms⟩ := List.map_eq_cons_iff.1 hms
    rw [List.append_cons]
    exact ih ms _ _ (hc.step hm) (hr.concat fun h => reference_index hc hm h) hms

/-- Only footnotes are numbered, so a scan may leave out all other nodes. -/
theorem scan_footnotes (ns : List Node) (footnotes : List Footnote) :
    (Node.scan indexFootnote ns footnotes).1.filterMap NodeData.footnote? =
        (Node.scan indexFootnote (ns.filter Node.isFootnote) footnotes).1 ∧
      (Node.scan indexFootnote (ns.filter Node.isFootnote) footnotes).2 =
        (Node.scan indexFootnote ns footnotes).2 := by
  induction ns generalizing footnotes with
  | nil => exact ⟨rfl, rfl⟩
  | cons n ns ih =>
    have hkind : (indexFootnote n footnotes).1.kind = n.kind := by
      obtain ⟨attributes, hs⟩ := indexFootnote_same n footnotes
      rw [hs]
    cases hn : n.isFootnote with
    | true =>
      have hd : (indexFootnote n footnotes).1.footnote? = some (indexFootnote n footnotes).1 := by
        rw [NodeData.footnote?, hkind]
        exact if_pos hn
      rw [List.filter_cons_of_pos hn]
      simp only [Node.scan, List.filterMap_cons_some hd, ih, and_self]
    | false =>
      have hd : n.data.footnote? = none := by
        rw [NodeData.footnote?]
        exact if_neg (by simpa [Node.isFootnote] using hn)
      rw [List.filter_cons_of_neg (by simp [hn])]
      simp only [Node.scan, indexFootnote_other hn, List.filterMap_cons_none hd]
      exact ih footnotes

theorem data_footnoteNodes (n : Node) :
    n.footnoteNodes.map Node.data = Node.readAll NodeData.footnote? n.walk := by
  rw [Node.readAll, List.filterMap_map, Node.footnoteNodes]
  induction n.walk with
  | nil => rfl
  | cons m ms ih =>
    have hm : (NodeData.footnote? ∘ Node.data) m = if m.isFootnote then some m.data else none :=
      rfl
    cases h : m.isFootnote with
    | true =>
      rw [h] at hm
      rw [List.filter_cons_of_pos h, List.map_cons, ih, List.filterMap_cons_some hm]
    | false =>
      rw [h] at hm
      rw [List.filter_cons_of_neg (by simp [h]), ih, List.filterMap_cons_none hm]

/-- The catalog of an indexed tree, and the numbers of its references. -/
theorem indexFootnotes_collected (root : Node) :
    CollectedFrom (indexFootnotes root).2 (indexFootnotes root).1.footnoteNodes ∧
      RefersBack (indexFootnotes root).1.footnoteNodes := by
  have hscan := scan_footnotes root.walk []
  have hdata : (indexFootnotes root).1.footnoteNodes.map Node.data =
      (Node.scan indexFootnote root.footnoteNodes []).1 := by
    rw [data_footnoteNodes, readAll_indexFootnotes (fun _ => rfl), hscan.1]
    rfl
  have hstate : (indexFootnotes root).2 = (Node.scan indexFootnote root.footnoteNodes []).2 := by
    refine Eq.trans ?_ hscan.2.symm
    rw [Node.scan_state, ← Node.visit_state]
    rfl
  rw [hstate]
  exact scan_collected _ _ [] [] .nil (fun _ _ _ h => absurd h (by simp)) hdata

/-! ### What stands where a footnote stood -/

/-- What preparation makes of a footnote: it has a number or none, and a reference that finds
nothing and has no text shows the id it asks for. -/
structure Node.IndexedAs (n m : Node) : Prop where
  same : m.data.withoutIndex = n.data.withoutIndex
  shown : m.isFootnoteRef = true → m.hasAttr indexName = false → n.hasText = false →
    ∀ id, m.footnoteRefId = some id → m.text = some [.plain id]
  kept : (m.isFootnoteRef = true → m.hasAttr indexName = false → m.footnoteRefId = none) →
    m.hasText = n.hasText

namespace Node

theorem hasText_visitOpt (text : Option (List Node)) (footnotes : List Footnote) :
    (mapOpt showUnresolved (visitOpt indexFootnote text footnotes).1).any (!·.isEmpty) =
      text.any (!·.isEmpty) := by
  match text with
  | none => rfl
  | some [] => rfl
  | some (_ :: _) => rfl

/-- A footnote with its new number, before and after references are completed. -/
theorem indexedAs_shown {n m : Node} (hd : m.data.withoutIndex = n.data.withoutIndex)
    (ht : m.hasText = n.hasText) : n.IndexedAs (showUnresolved m) := by
  have hdata := showUnresolved_data m
  have hfoot : (showUnresolved m).isFootnoteRef = m.isFootnoteRef := by
    simp only [isFootnoteRef, isFootnote, Node.kind, Node.variant, hdata]
  have hid : (showUnresolved m).footnoteRefId = m.footnoteRefId := by
    simp only [footnoteRefId, Node.target, Node.id, hdata]
  have hattr : (showUnresolved m).hasAttr indexName = m.hasAttr indexName := by
    simp only [Node.hasAttr, hdata]
  refine ⟨by rw [hdata, hd], fun hr ha hn id h => ?_, fun h => ?_⟩
  · rw [hfoot] at hr
    rw [hattr] at ha
    rw [hid] at h
    simp [showUnresolved, hr, ha, ht, hn, h]
  · rw [hfoot, hattr, hid] at h
    rw [← ht]
    unfold showUnresolved
    split
    · rename_i hc
      simp only [Bool.and_eq_true, Bool.not_eq_true'] at hc
      rw [h hc.1.1 hc.1.2]
    · rfl

/-- The footnotes of a part of the tree, and of what preparation makes of it. -/
def Follows {α : Type} (visitOf : α → List Footnote → α × List Footnote) (mapOf : α → α)
    (walkOf : α → List Node) (x : α) : Prop :=
  ∀ footnotes, List.Forall₂ IndexedAs ((walkOf x).filter isFootnote)
    ((walkOf (mapOf (visitOf x footnotes).1)).filter isFootnote)

theorem forall₂_filter_append {a b c d : List Node}
    (h : List.Forall₂ IndexedAs (a.filter isFootnote) (c.filter isFootnote))
    (h' : List.Forall₂ IndexedAs (b.filter isFootnote) (d.filter isFootnote)) :
    List.Forall₂ IndexedAs ((a ++ b).filter isFootnote) ((c ++ d).filter isFootnote) := by
  rw [List.filter_append, List.filter_append]
  exact List.rel_append h h'

theorem walk_shown_filter (m : Node) :
    (showUnresolved m).walk.filter isFootnote =
      [showUnresolved m].filter isFootnote ++ (walkOpt m.title ++ walkOpt m.text ++
        walkAll m.items ++ walkEntries m.entries ++ walkAll m.blocks ++
          walkTable m.table).filter isFootnote := by
  have hself : ∀ n : Node, n.walk.filter isFootnote = [n].filter isFootnote ++
      (walkOpt n.title ++ walkOpt n.text ++ walkAll n.items ++ walkEntries n.entries ++
        walkAll n.blocks ++ walkTable n.table).filter isFootnote := by
    intro n
    rw [walk_eq, ← List.filter_append]
    rfl
  rw [hself]
  rcases showUnresolved_cases m with h | ⟨hblank, id, h⟩
  · rw [h]
  · have htext : walkOpt m.text = [] := by
      unfold hasText at hblank
      match m.text, hblank with
      | none, _ => rfl
      | some [], _ => rfl
    have hplain : (walkOpt (some [.plain id])).filter isFootnote = [] := rfl
    rw [h]
    simp only [List.filter_append, hplain, htext, List.filter_nil]

mutual

theorem visit_follows : ∀ n : Node, Follows (visit indexFootnote) (map showUnresolved) walk n
  | ⟨data, title, text, items, entries, blocks, table⟩ => by
    intro footnotes
    -- `m` is the visited node with finished children, before it is completed itself.
    let n : Node := ⟨data, title, text, items, entries, blocks, table⟩
    let r : Node := (visit indexFootnote n footnotes).1
    let m : Node := ⟨r.data, mapOpt showUnresolved r.title, mapOpt showUnresolved r.text,
      mapAll showUnresolved r.items, mapEntries showUnresolved r.entries,
      mapAll showUnresolved r.blocks, mapTable showUnresolved r.table⟩
    change List.Forall₂ IndexedAs (n.walk.filter isFootnote)
      ((showUnresolved m).walk.filter isFootnote)
    have hd : m.data.withoutIndex = n.data.withoutIndex := indexFootnote_withoutIndex n footnotes
    have hself : List.Forall₂ IndexedAs ([n].filter isFootnote)
        ([showUnresolved m].filter isFootnote) := by
      have hi := indexedAs_shown hd (hasText_visitOpt text _)
      rw [List.filter_singleton, List.filter_singleton, isFootnote_of_withoutIndex hi.same]
      cases n.isFootnote with
      | true => exact .cons hi .nil
      | false => exact .nil
    rw [walk_shown_filter, walk_eq, ← List.singleton_append, List.filter_append]
    refine List.rel_append hself ?_
    exact forall₂_filter_append (forall₂_filter_append (forall₂_filter_append
      (forall₂_filter_append (forall₂_filter_append (visitOpt_follows title _)
        (visitOpt_follows text _)) (visitAll_follows items _)) (visitEntries_follows entries _))
          (visitAll_follows blocks _)) (visitTable_follows table _)

theorem visitAll_follows :
    ∀ ns : List Node, Follows (visitAll indexFootnote) (mapAll showUnresolved) walkAll ns
  | [] => fun _ => .nil
  | n :: ns => fun _ => forall₂_filter_append (visit_follows n _) (visitAll_follows ns _)

theorem visitOpt_follows :
    ∀ ns : Option (List Node), Follows (visitOpt indexFootnote) (mapOpt showUnresolved) walkOpt ns
  | none => fun _ => .nil
  | some ns => fun _ => visitAll_follows ns _

theorem visitEntries_follows : ∀ es : List (Entry Node),
    Follows (visitEntries indexFootnote) (mapEntries showUnresolved) walkEntries es
  | [] => fun _ => .nil
  | ⟨terms, none⟩ :: es => fun _ =>
    forall₂_filter_append (visitAll_follows terms _) (visitEntries_follows es _)
  | ⟨terms, some d⟩ :: es => fun _ =>
    forall₂_filter_append (forall₂_filter_append (visitAll_follows terms _) (visit_follows d _))
      (visitEntries_follows es _)

theorem visitTable_follows : ∀ t : Option (Table Node),
    Follows (visitTable indexFootnote) (mapTable showUnresolved) walkTable t
  | none => fun _ => .nil
  | some ⟨_, head, body, foot⟩ => fun _ =>
    forall₂_filter_append (forall₂_filter_append (visitRows_follows head _)
      (visitRows_follows body _)) (visitRows_follows foot _)

theorem visitRows_follows : ∀ rs : List (List (Cell Node)),
    Follows (visitRows indexFootnote) (mapRows showUnresolved) walkRows rs
  | [] => fun _ => .nil
  | r :: rs => fun _ => forall₂_filter_append (visitRow_follows r _) (visitRows_follows rs _)

theorem visitRow_follows : ∀ cs : List (Cell Node),
    Follows (visitRow indexFootnote) (mapRow showUnresolved) walkRow cs
  | [] => fun _ => .nil
  | ⟨_, paragraphs, blocks, _, _, _, _, _⟩ :: cs => fun _ =>
    forall₂_filter_append (forall₂_filter_append (visitParagraphs_follows paragraphs _)
      (visitAll_follows blocks _)) (visitRow_follows cs _)

theorem visitParagraphs_follows : ∀ ps : List (List Node),
    Follows (visitParagraphs indexFootnote) (mapParagraphs showUnresolved) walkParagraphs ps
  | [] => fun _ => .nil
  | p :: ps => fun _ =>
    forall₂_filter_append (visitAll_follows p _) (visitParagraphs_follows ps _)

end

end Node

/-! ### Prepared documents -/

namespace Document

variable (defaults : SortedMap String) (d : Document)

/-- Numbering sections leaves the footnotes of the tree, with their data and texts. -/
theorem footnoteNodes_numberIf (number : Bool) (root : Node) {ms : List Node}
    (h : List.Forall₂ Node.IndexedAs (numberIf number root).footnoteNodes ms) :
    List.Forall₂ Node.IndexedAs root.footnoteNodes ms := by
  cases number with
  | false => exact h
  | true =>
    obtain ⟨data, title, text, items, entries, blocks, table⟩ := root
    have hb := numberSections_filter section_not_footnote "" blocks 0
    simp only [numberIf, if_true, Node.footnoteNodes, Node.walk, List.filter_cons,
      List.filter_append, hb] at h ⊢
    have hroot : ∀ bs, (⟨data, title, text, items, entries, bs, table⟩ : Node).isFootnote =
        (data.kind == .inlineFootnote) := fun _ => rfl
    rw [hroot] at h ⊢
    cases hk : data.kind == .inlineFootnote with
    | true =>
      rw [hk, if_pos rfl] at h
      cases h with
      | cons hm hms => exact .cons ⟨hm.same, hm.shown, hm.kept⟩ hms
    | false =>
      rw [hk] at h
      exact h

theorem footnoteNodes_prepareWith :
    List.Forall₂ Node.IndexedAs d.root.footnoteNodes (d.prepareWith defaults).root.footnoteNodes :=
  footnoteNodes_numberIf (d.asksNumbers defaults) d.root (Node.visit_follows _ [])

theorem refersBack_walk (root : Node) (h : RefersBack root.footnoteNodes) :
    RefersBack root.walk := by
  intro ahead n behind hsplit hr
  have hn : n.isFootnote = true := (Bool.and_eq_true_iff.1 hr).1
  have hnodes : root.footnoteNodes =
      ahead.filter Node.isFootnote ++ n :: behind.filter Node.isFootnote := by
    rw [Node.footnoteNodes, hsplit, List.filter_append, List.filter_cons_of_pos hn]
  rw [h _ n _ hnodes hr, Node.indexAmong_filter]

/-- Among footnotes numbered one after the other, the one with a number stands at its place. -/
theorem find?_numbered (footnotes : List Footnote) (start : Nat)
    (h : footnotes.map Footnote.index = List.range' start footnotes.length) (i : Nat) :
    footnotes.find? (·.index == start + i) = footnotes[i]? := by
  induction footnotes generalizing start i with
  | nil => rfl
  | cons f footnotes ih =>
    rw [List.map_cons, List.length_cons, List.range'_succ, List.cons.injEq] at h
    cases i with
    | zero => simp [h.1]
    | succ i =>
      have hf : (f.index == start + (i + 1)) = false := by
        rw [h.1]
        simp
      have hrest := ih (start + 1) h.2 i
      rw [List.find?_cons, hf, List.getElem?_cons_succ, ← hrest, Nat.add_assoc, Nat.add_comm 1 i]

theorem footnote?_eq_find? (c : Catalog) (h : InOrder c.footnotes) (i : Nat) :
    c.footnote? i = c.footnotes.find? (·.index == i) := by
  cases i with
  | zero =>
    symm
    refine List.find?_eq_none.2 fun f hf => ?_
    have hm := List.mem_map_of_mem (f := Footnote.index) hf
    rw [h, List.mem_range'_1] at hm
    have hpos : f.index ≠ 0 := by omega
    simpa using hpos
  | succ i =>
    have hfind := find?_numbered c.footnotes 1 h i
    rw [Nat.add_comm 1 i] at hfind
    exact hfind.symm

theorem footnote?_isSome (c : Catalog) (i : Nat) :
    (c.footnote? i).isSome = true ↔ 1 ≤ i ∧ i ≤ c.footnotes.length := by
  cases i with
  | zero => simp [Catalog.footnote?]
  | succ i =>
    have hsome : (c.footnote? (i + 1)).isSome = true ↔ i < c.footnotes.length :=
      Eq.to_iff (isSome_getElem? c.footnotes i)
    rw [hsome]
    omega

/-- The footnotes of a prepared document: the catalog has one entry for each definition, numbered
from one in document order, with its id, and the definition has this number too; a lookup by
number finds the entry with the number; every reference back has the number of the first
definition ahead of it with the id it asks for, or none; and one that finds nothing and has no
text shows this id. -/
theorem prepareWith_indexes (defaults : SortedMap String) (d : Document) :
    let p := d.prepareWith defaults
    let definitions := p.root.footnoteNodes.filter Node.definesFootnote
    p.catalog.footnotes.map Footnote.index = List.range' 1 definitions.length ∧
      List.Forall₂ Footnote.EntryOf p.catalog.footnotes definitions ∧
      (∀ i, p.catalog.footnote? i = p.catalog.footnotes.find? (·.index == i)) ∧
      (∀ i, (p.catalog.footnote? i).isSome = true ↔ 1 ≤ i ∧ i ≤ definitions.length) ∧
      RefersBack p.root.walk ∧
      List.Forall₂ Node.IndexedAs d.root.footnoteNodes p.root.footnoteNodes := by
  intro p definitions
  let root := numberIf (d.asksNumbers defaults) d.root
  obtain ⟨hcollected, hback⟩ := indexFootnotes_collected root
  have horder : InOrder p.catalog.footnotes := inOrder_indexFootnotes root
  have hlength : p.catalog.footnotes.length = definitions.length := hcollected.length_eq
  refine ⟨?_, hcollected, footnote?_eq_find? p.catalog horder, fun i => ?_,
    refersBack_walk p.root hback, footnoteNodes_prepareWith defaults d⟩
  · rw [← hlength]
    exact horder
  · rw [← hlength]
    exact footnote?_isSome p.catalog i

end Document

end DocPress
