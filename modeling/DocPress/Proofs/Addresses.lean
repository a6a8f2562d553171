import DocPress.Node.Build
import DocPress.Proofs.Children
import DocPress.Proofs.Refilling
import Mathlib.Data.List.Basic

/-! Addresses of nodes. The nodes of a tree can be equal, their addresses are not: a visit is told by
the addresses at which its visitor is called. They ascend along the visit, and each address of the
tree is among them. -/

namespace DocPress.Node

set_option autoImplicit false

universe u

/-- Where a node stands in a tree: the index of a child, then that of a child of it, and so on. -/
abbrev Address := List Nat

/-- The node at an address. -/
def at? : Node → Address → Option Node
  | n, [] => some n
  | n, i :: a => n.children[i]?.bind (at? · a)

/-- The addresses of several trees, each behind the index of its tree. -/
def behind (parts : List (List Address)) : List Address :=
  parts.zipIdx.flatMap fun part => part.1.map (part.2 :: ·)

/-- The addresses of a tree in document order. The children are gathered from all parts of a node, so
the recursion ends by the length of the walk. -/
def addresses (n : Node) : List Address :=
  [] :: behind (n.children.attach.map fun m => addresses m.1)
termination_by n.walk.length
decreasing_by
  rw [walk_children n, List.length_cons]
  exact Nat.lt_succ_of_le (walk_sublist_of_child m.2).length_le

theorem addresses_eq (n : Node) : n.addresses = [] :: behind (n.children.map addresses) := by
  rw [addresses, List.attach_map_val]

theorem mem_behind {parts : List (List Address)} {a : Address} :
    a ∈ behind parts ↔ ∃ i part b, parts[i]? = some part ∧ b ∈ part ∧ i :: b = a := by
  simp only [behind, List.mem_flatMap, List.mem_map, List.mem_zipIdx_iff_getElem?]
  constructor
  · rintro ⟨⟨part, i⟩, hpart, b, hb, rfl⟩
    exact ⟨i, part, b, hpart, hb, rfl⟩
  · rintro ⟨i, part, b, hpart, hb, rfl⟩
    exact ⟨(part, i), hpart, b, hb, rfl⟩

/-- Addresses of several trees ascend if those of each tree do: the index of the tree comes first. -/
theorem ascending_behind {parts : List (List Address)}
    (h : ∀ part ∈ parts, part.Pairwise (· < ·)) : (behind parts).Pairwise (· < ·) := by
  have hindexes : parts.zipIdx.Pairwise fun p q => p.2 < q.2 := by
    rw [← List.pairwise_map (f := Prod.snd) (R := (· < ·)), List.zipIdx_map_snd]
    exact List.pairwise_lt_range' 1
  refine List.pairwise_flatMap.mpr ⟨fun p hp => ?_, hindexes.imp fun hlt a ha b hb => ?_⟩
  · have hpart : p.1 ∈ parts := List.mem_of_getElem? (List.mem_zipIdx_iff_getElem?.mp hp)
    exact List.pairwise_map.mpr ((h p.1 hpart).imp fun hlt =>
      List.cons_lt_cons_iff.mpr (.inr ⟨rfl, hlt⟩))
  · obtain ⟨a, -, rfl⟩ := List.mem_map.mp ha
    obtain ⟨b, -, rfl⟩ := List.mem_map.mp hb
    exact List.cons_lt_cons_iff.mpr (.inl hlt)

/-- Document order is the order of addresses: a node comes before what stands below it, and what
stands below a child before what stands below a later one. -/
theorem addresses_ascending (n : Node) : n.addresses.Pairwise (· < ·) := by
  induction n using induction_children with
  | step n ih =>
    rw [addresses_eq, List.pairwise_cons]
    refine ⟨fun a ha => ?_, ascending_behind fun part hpart => ?_⟩
    · obtain ⟨i, -, b, -, -, rfl⟩ := mem_behind.mp ha
      exact List.nil_lt_cons i b
    · obtain ⟨m, hm, rfl⟩ := List.mem_map.mp hpart
      exact ih m hm

theorem mem_addresses_iff (n : Node) (a : Address) : a ∈ n.addresses ↔ (n.at? a).isSome := by
  induction a generalizing n with
  | nil => simp [addresses_eq, at?]
  | cons i a ih =>
    rw [addresses_eq, List.mem_cons, mem_behind]
    simp only [reduceCtorEq, false_or, at?, List.getElem?_map, Option.map_eq_some_iff]
    constructor
    · rintro ⟨i, _, b, ⟨m, hm, rfl⟩, hb, hab⟩
      obtain ⟨rfl, rfl⟩ := List.cons.inj hab
      rw [hm, Option.bind_some]
      exact (ih m).mp hb
    · intro ha
      obtain ⟨m, hm⟩ := Option.isSome_iff_exists.mp (Option.isSome_of_isSome_bind ha)
      rw [hm, Option.bind_some] at ha
      exact ⟨i, _, a, ⟨m, hm, rfl⟩, (ih m).mpr ha, rfl⟩

/-- The nodes at the addresses of a tree are those of its walk. -/
theorem at?_addresses (n : Node) : n.addresses.map n.at? = n.walk.map some := by
  induction n using induction_children with
  | step n ih =>
    have hbelow : (behind (n.children.map addresses)).map n.at? =
        n.children.zipIdx.flatMap fun p => p.1.walk.map some := by
      rw [behind, List.zipIdx_map, List.flatMap_map, List.map_flatMap]
      refine List.flatMap_congr fun p hp => ?_
      have hchild : n.children[p.2]? = some p.1 := List.mem_zipIdx_iff_getElem?.mp hp
      have hat : ∀ a, n.at? (p.2 :: a) = p.1.at? a := fun a => by rw [at?, hchild, Option.bind_some]
      rw [← ih p.1 (List.mem_of_getElem? hchild)]
      simp only [Prod.map, id_eq, List.map_map, Function.comp_def, hat]
    have hchildren : n.children.zipIdx.flatMap (fun p => p.1.walk.map some) =
        n.children.flatMap fun m => m.walk.map some := by
      rw [← List.flatMap_map Prod.fst fun m : Node => m.walk.map some, List.zipIdx_map_fst]
    rw [addresses_eq, List.map_cons, hbelow, hchildren, walk_children, List.map_cons,
      List.map_flatMap, at?]

/-- Trees of one frame have the same addresses. -/
theorem addresses_onData (change : NodeData → NodeData) (n : Node) :
    (map (onData change) n).addresses = n.addresses := by
  induction n using induction_children with
  | step n ih =>
    have hkeeps : ∀ m : Node, (onData change m).children = m.children := fun _ => rfl
    rw [addresses_eq, addresses_eq n, children_map hkeeps, List.map_map]
    exact congrArg (fun parts => [] :: behind parts) (List.map_congr_left ih)

theorem addresses_of_frame {m n : Node} (h : m.frame = n.frame) : m.addresses = n.addresses := by
  rw [← addresses_onData (fun _ => {}) m, ← addresses_onData (fun _ => {}) n]
  exact congrArg addresses h

/-! ### Calls -/

variable {σ : Type u}

/-- The calls of a visitor at addresses of a tree, one after the other: each gets the node that
stands there and the state that the call before left, and the data it returns stand in its place in
the other tree. -/
inductive Calls (f : Node → σ → NodeData × σ) (n r : Node) : List Address → σ → σ → Prop
  | nil (s : σ) : Calls f n r [] s s
  | cons {a : Address} {as : List Address} {m m' : Node} {s t : σ} (hm : n.at? a = some m)
      (hm' : r.at? a = some m') (hdata : m'.data = (f m s).1) (hrest : Calls f n r as (f m s).2 t) :
      Calls f n r (a :: as) s t

/-- The calls along addresses are the scan of the nodes that stand there. -/
theorem calls_iff_scan {f : Node → σ → NodeData × σ} {n r : Node} {as : List Address}
    {ns rs : List Node} {s t : σ} (hn : as.map n.at? = ns.map some)
    (hr : as.map r.at? = rs.map some) : Calls f n r as s t ↔ scan f ns s = (rs.map data, t) := by
  induction as generalizing ns rs s with
  | nil =>
    obtain rfl : ns = [] := by simpa using hn.symm
    obtain rfl : rs = [] := by simpa using hr.symm
    simp only [scan, List.map_nil, Prod.mk.injEq, true_and]
    exact ⟨fun h => by cases h; rfl, fun h => h ▸ .nil s⟩
  | cons a as ih =>
    obtain ⟨m, ns, rfl, hm, hn⟩ := List.map_eq_cons_iff.mp hn.symm
    obtain ⟨m', rs, rfl, hm', hr⟩ := List.map_eq_cons_iff.mp hr.symm
    have hrest : Calls f n r as (f m s).2 t ↔
        (scan f ns (f m s).2).1 = rs.map data ∧ (scan f ns (f m s).2).2 = t :=
      (ih hn.symm hr.symm).trans Prod.ext_iff
    simp only [scan, List.map_cons, Prod.mk.injEq, List.cons.injEq, and_assoc]
    rw [← hrest]
    constructor
    · rintro (_ | ⟨ha, ha', hdata, hcalls⟩)
      obtain rfl : _ = m := Option.some.inj (ha.symm.trans hm.symm)
      obtain rfl : _ = m' := Option.some.inj (ha'.symm.trans hm'.symm)
      exact ⟨hdata.symm, hcalls⟩
    · rintro ⟨hdata, hcalls⟩
      exact .cons hm.symm hm'.symm hdata.symm hcalls

/-- A visit makes one call at each address of a tree, in ascending order, which is the order of the
walk. The tree that it leaves is the one of the same frame that has, at each address, the data that
the call there returned. -/
theorem visit_preorder (f : Node → σ → NodeData × σ) (n : Node) (s : σ) :
    n.addresses.Pairwise (· < ·) ∧ (∀ a, a ∈ n.addresses ↔ (n.at? a).isSome) ∧
      n.addresses.map n.at? = n.walk.map some ∧
      ∀ r t, n.visit f s = (r, t) ↔ r.frame = n.frame ∧ Calls f n r n.addresses s t := by
  refine ⟨n.addresses_ascending, n.mem_addresses_iff, n.at?_addresses, fun r t => ?_⟩
  -- Under one frame both trees have the same addresses, so the calls are a scan of the one walk that
  -- leaves the data of the other.
  have hcalls : r.frame = n.frame →
      (Calls f n r n.addresses s t ↔ scan f n.walk s = (r.walk.map data, t)) := fun hframe =>
    calls_iff_scan n.at?_addresses (addresses_of_frame hframe ▸ r.at?_addresses)
  constructor
  · intro hvisit
    have hframe : r.frame = n.frame := by
      rw [← frame_visit f n s, hvisit]
    refine ⟨hframe, (hcalls hframe).mpr ?_⟩
    rw [← visit_trace f n s, hvisit]
  · rintro ⟨hframe, hrun⟩
    have hscan := (hcalls hframe).mp hrun
    rw [← visit_trace f n s] at hscan
    obtain ⟨hdata, hstate⟩ := Prod.mk.inj hscan
    exact Prod.ext (eq_of_frame ((frame_visit f n s).trans hframe.symm) hdata) hstate

example :
    let part := ((ofKind .section).withPlainTitle "T").withBlocks [.paragraph "a", .paragraph "b"]
    (part.visit (fun n seen => (n.data, seen ++ n.source.toList)) []).2 = ["T", "a", "b"] := by
  decide

end DocPress.Node
