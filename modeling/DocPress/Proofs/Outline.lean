import DocPress.Node.Build
import DocPress.Proofs.Preparation
import DocPress.Text.Blank
import Mathlib.Data.List.Lex

/-! The numbers of a numbered outline. Sections are counted within a scope, through the parts in it;
a numbered section opens a scope of its own. The numbers of all sections, read as lists of integers,
grow in document order. -/

namespace DocPress

set_option autoImplicit false

namespace Node

/-- Whether a section takes a number. -/
def takesNumber (n : Node) : Bool := n.level != 0 && n.numbered

mutual

/-- The sections that a block brings into the scope around it: itself, and what stands in a part. -/
def scopeSections : Node → List Node
  | ⟨data, title, text, items, entries, blocks, table⟩ =>
    if data.kind ≠ .section then []
    else ⟨data, title, text, items, entries, blocks, table⟩ ::
      if data.level = 0 then scopeOf blocks else []

/-- The sections of a scope in document order. -/
def scopeOf : List Node → List Node
  | [] => []
  | n :: ns => scopeSections n ++ scopeOf ns

end

mutual

/-- The sections that numbering reaches from a block: itself, and those among the blocks of a part
or of a numbered section. -/
def reached : Node → List Node
  | ⟨data, title, text, items, entries, blocks, table⟩ =>
    if data.kind ≠ .section then []
    else ⟨data, title, text, items, entries, blocks, table⟩ ::
      if data.level = 0 ∨ data.numbered = true then reachedIn blocks else []

/-- The sections that numbering reaches, in document order. -/
def reachedIn : List Node → List Node
  | [] => []
  | n :: ns => reached n ++ reachedIn ns

end

theorem scopeSections_eq (n : Node) : scopeSections n =
    if n.kind ≠ .section then [] else n :: if n.level = 0 then scopeOf n.blocks else [] := by
  cases n
  rfl

theorem reached_eq (n : Node) : reached n =
    if n.kind ≠ .section then []
    else n :: if n.level = 0 ∨ n.numbered = true then reachedIn n.blocks else [] := by
  cases n
  rfl

/-- The blocks of a scope of a tree, with the number that its sections carry on: the blocks of the
root carry on none, and those of a numbered section its own. -/
inductive Scope (root : Node) : String → List Node → Prop
  | whole : Scope root "" root.blocks
  | inside {number own : String} {blocks : List Node} {n : Node} (h : Scope root number blocks)
    (hn : n ∈ scopeOf blocks) (htakes : n.takesNumber = true) (hown : n.sectnum = some own) :
    Scope root own n.blocks

mutual

theorem reached_within : ∀ n : Node, (reached n).Sublist n.walk
  | ⟨data, title, text, items, entries, blocks, table⟩ => by
    have hblocks := reachedIn_within blocks
    unfold reached
    split
    · exact List.nil_sublist _
    · rw [walk_eq]
      apply List.Sublist.cons_cons
      split
      · apply hblocks.trans
        exact (List.sublist_append_right _ _).trans (List.sublist_append_left _ _)
      · exact List.nil_sublist _

theorem reachedIn_within : ∀ ns : List Node, (reachedIn ns).Sublist (walkAll ns)
  | [] => List.nil_sublist _
  | n :: ns => (reached_within n).append (reachedIn_within ns)

end

mutual

theorem scopeSections_subset : ∀ n : Node, scopeSections n ⊆ reached n
  | ⟨data, title, text, items, entries, blocks, table⟩ => by
    have hblocks := scopeOf_subset blocks
    unfold scopeSections reached
    split
    · exact List.nil_subset _
    · apply List.cons_subset_cons
      by_cases hl : data.level = 0
      · rw [if_pos hl, if_pos (Or.inl hl)]
        exact hblocks
      · rw [if_neg hl]
        exact List.nil_subset _

theorem scopeOf_subset : ∀ ns : List Node, scopeOf ns ⊆ reachedIn ns
  | [] => List.nil_subset _
  | n :: ns => by
    apply List.append_subset.mpr
    constructor
    · exact List.subset_append_of_subset_left _ (scopeSections_subset n)
    · exact List.subset_append_of_subset_right _ (scopeOf_subset ns)

end

mutual

/-- What numbering reaches in a numbered section of a scope is reached from the scope. -/
theorem reached_inside {m : Node} (htakes : m.takesNumber = true) :
    ∀ n : Node, m ∈ scopeSections n → reachedIn m.blocks ⊆ reached n
  | ⟨data, title, text, items, entries, blocks, table⟩ => by
    intro hm
    have hblocks := reachedIn_inside htakes blocks
    unfold scopeSections at hm
    unfold reached
    split at hm
    · exact absurd hm List.not_mem_nil
    · rename_i hk
      rw [if_neg hk]
      apply List.subset_cons_of_subset
      rcases List.mem_cons.mp hm with rfl | hm
      · have hn : data.numbered = true := (Bool.and_eq_true_iff.mp htakes).2
        rw [if_pos (Or.inr hn)]
        exact List.Subset.refl _
      · split at hm
        · rename_i hl
          rw [if_pos (Or.inl hl)]
          exact hblocks hm
        · exact absurd hm List.not_mem_nil

theorem reachedIn_inside {m : Node} (htakes : m.takesNumber = true) :
    ∀ ns : List Node, m ∈ scopeOf ns → reachedIn m.blocks ⊆ reachedIn ns
  | [] => fun hm => absurd hm List.not_mem_nil
  | n :: ns => by
    intro hm
    rcases List.mem_append.mp hm with hm | hm
    · exact List.subset_append_of_subset_left _ (reached_inside htakes n hm)
    · exact List.subset_append_of_subset_right _ (reachedIn_inside htakes ns hm)

end

theorem Scope.reachedIn_subset {root : Node} {number : String} {blocks : List Node}
    (h : Scope root number blocks) : reachedIn blocks ⊆ reachedIn root.blocks := by
  induction h with
  | whole => exact List.Subset.refl _
  | inside _ hn htakes _ ih => exact List.Subset.trans (reachedIn_inside htakes _ hn) ih

end Node

open Node (takesNumber scopeSections scopeOf reached reachedIn Scope)

/-! ### Counting within a scope -/

/-- Whether numbering leaves the blocks of a scope as they are. -/
def Settled (scope : String) (blocks : List Node) : Prop :=
  (numberSections scope blocks 0).1 = blocks

/-- Whether the sections behind `count` numbered ones of their scope go on with the count, and each
numbered one has settled blocks. -/
def NumberedFrom (scope : String) : Nat → List Node → Prop
  | _, [] => True
  | count, n :: ns =>
    n.sectnum = (if n.takesNumber then some (sectionNumber scope (count + 1)) else none) ∧
      (n.takesNumber = true → Settled (sectionNumber scope (count + 1)) n.blocks) ∧
      NumberedFrom scope (if n.takesNumber then count + 1 else count) ns

theorem numberedFrom_append {scope : String} {a b : List Node} (count : Nat) :
    NumberedFrom scope count (a ++ b) ↔
      NumberedFrom scope count a ∧ NumberedFrom scope (count + a.countP takesNumber) b := by
  induction a generalizing count with
  | nil => simp [NumberedFrom]
  | cons n a ih =>
    have hcount : (if n.takesNumber then count + 1 else count) + a.countP takesNumber =
        count + (n :: a).countP takesNumber := by
      rw [List.countP_cons]
      split <;> omega
    simp only [List.cons_append, NumberedFrom, ih, hcount, and_assoc]

/-- What numbering finds in a block that it leaves as it is: no section; a part, whose blocks go on
with the count; a numbered section, which opens a scope; or one that is not numbered. -/
theorem numberSection_cases {scope : String} {n : Node} {count : Nat}
    (h : (numberSection scope n count).1 = n) :
    (n.kind ≠ .section ∧ (numberSection scope n count).2 = count) ∨
    (n.kind = .section ∧ n.level = 0 ∧ n.sectnum = none ∧
      (numberSections scope n.blocks count).1 = n.blocks ∧
      (numberSection scope n count).2 = (numberSections scope n.blocks count).2) ∨
    (n.kind = .section ∧ n.level ≠ 0 ∧ n.numbered = true ∧
      n.sectnum = some (sectionNumber scope (count + 1)) ∧
      Settled (sectionNumber scope (count + 1)) n.blocks ∧
      (numberSection scope n count).2 = count + 1) ∨
    (n.kind = .section ∧ n.level ≠ 0 ∧ n.numbered = false ∧ n.sectnum = none ∧
      (numberSection scope n count).2 = count) := by
  obtain ⟨data, title, text, items, entries, blocks, table⟩ := n
  unfold numberSection at h ⊢
  by_cases hk : data.kind = .section
  · rw [if_neg (not_not_intro hk)] at h ⊢
    by_cases hl : data.level = 0
    · rw [if_pos hl] at h ⊢
      simp only [Node.mk.injEq, true_and, and_true] at h
      exact .inr (.inl ⟨hk, hl, (congrArg NodeData.sectnum h.1).symm, h.2, rfl⟩)
    · rw [if_neg hl] at h ⊢
      by_cases hn : data.numbered = true
      · rw [if_pos hn] at h ⊢
        simp only [Node.mk.injEq, true_and, and_true] at h
        exact .inr (.inr (.inl ⟨hk, hl, hn, (congrArg NodeData.sectnum h.1).symm, h.2, rfl⟩))
      · rw [if_neg hn] at h ⊢
        have hnumber := (congrArg (NodeData.sectnum ∘ Node.data) h).symm
        exact .inr (.inr (.inr ⟨hk, hl, eq_false_of_ne_true hn, hnumber, rfl⟩))
  · rw [if_pos hk]
    exact .inl ⟨hk, rfl⟩

mutual

theorem scopeSections_numbered (scope : String) : ∀ (n : Node) (count : Nat),
    (numberSection scope n count).1 = n →
      NumberedFrom scope count (scopeSections n) ∧
        (numberSection scope n count).2 = count + (scopeSections n).countP takesNumber
  | ⟨data, title, text, items, entries, blocks, table⟩, count => by
    intro h
    rw [Node.scopeSections_eq]
    obtain ⟨hk, hcount⟩ | ⟨hk, hl, hnumber, hblocks, hcount⟩ |
      ⟨hk, hl, hn, hnumber, hblocks, hcount⟩ | ⟨hk, hl, hn, hnumber, hcount⟩ :=
      numberSection_cases h
    · simp [hk, hcount, NumberedFrom]
    · obtain ⟨hrest, hsum⟩ := scopeOf_numbered scope blocks count hblocks
      simp [hk, hl, hnumber, hcount, hsum, NumberedFrom, takesNumber, hrest]
    · simp [hk, hl, hn, hnumber, hcount, hblocks, NumberedFrom, takesNumber]
    · simp [hk, hl, hn, hnumber, hcount, NumberedFrom, takesNumber]

theorem scopeOf_numbered (scope : String) : ∀ (ns : List Node) (count : Nat),
    (numberSections scope ns count).1 = ns →
      NumberedFrom scope count (scopeOf ns) ∧
        (numberSections scope ns count).2 = count + (scopeOf ns).countP takesNumber
  | [], _ => fun _ => ⟨trivial, rfl⟩
  | n :: ns, count => by
    intro h
    simp only [numberSections, List.cons.injEq] at h
    obtain ⟨hfirst, hcount⟩ := scopeSections_numbered scope n count h.1
    obtain ⟨hrest, hcount'⟩ := scopeOf_numbered scope ns (numberSection scope n count).2 h.2
    simp only [numberSections, scopeOf, numberedFrom_append, List.countP_append]
    rw [hcount] at hrest hcount'
    refine ⟨⟨hfirst, hrest⟩, ?_⟩
    rw [hcount, hcount']
    omega

end

/-- A section of a scope has the number that follows those before it. -/
theorem NumberedFrom.at {scope : String} {ns ahead behind : List Node} {n : Node} {count : Nat}
    (h : NumberedFrom scope count ns) (hsplit : ns = ahead ++ n :: behind) :
    n.sectnum = (if n.takesNumber
        then some (sectionNumber scope (count + ahead.countP takesNumber + 1)) else none) ∧
      (n.takesNumber = true →
        Settled (sectionNumber scope (count + ahead.countP takesNumber + 1)) n.blocks) := by
  rw [hsplit, numberedFrom_append] at h
  exact ⟨h.2.1, h.2.2.1⟩

/-- The scopes of a tree with settled blocks are settled. -/
theorem Node.Scope.settled {root : Node} (hroot : Settled "" root.blocks) {number : String}
    {blocks : List Node} (h : Scope root number blocks) : Settled number blocks := by
  induction h with
  | whole => exact hroot
  | inside _ hn htakes hown ih =>
    obtain ⟨ahead, behind, hsplit⟩ := List.append_of_mem hn
    obtain ⟨hnumber, hsettled⟩ := (scopeOf_numbered _ _ 0 ih).1.at hsplit
    rw [hown, if_pos htakes] at hnumber
    rw [Option.some.inj hnumber]
    exact hsettled htakes

/-! ### Every section is in a scope -/

mutual

theorem scope_of_reached {root : Node} (hroot : Settled "" root.blocks) {number : String}
    {blocks : List Node} (h : Scope root number blocks) : ∀ m : Node,
    scopeSections m ⊆ scopeOf blocks → ∀ n ∈ reached m,
      ∃ number' blocks', Scope root number' blocks' ∧ n ∈ scopeOf blocks'
  | ⟨data, title, text, items, entries, own, table⟩ => by
    intro hin n hn
    unfold reached at hn
    split at hn
    · exact absurd hn List.not_mem_nil
    · rename_i hk
      unfold scopeSections at hin
      rw [if_neg hk] at hin
      let m : Node := ⟨data, title, text, items, entries, own, table⟩
      have hself : m ∈ scopeOf blocks := hin List.mem_cons_self
      rcases List.mem_cons.mp hn with rfl | hn
      · exact ⟨number, blocks, h, hself⟩
      · split at hn
        · rename_i hopens
          by_cases hl : data.level = 0
          · rw [if_pos hl] at hin
            exact scope_of_reachedIn hroot h own (List.subset_of_cons_subset hin) n hn
          · have hnumbered : data.numbered = true := hopens.resolve_left hl
            have htakes : m.takesNumber = true := by
              simp [m, takesNumber, Node.level, Node.numbered, hl, hnumbered]
            obtain ⟨ahead, behind, hsplit⟩ := List.append_of_mem hself
            have hnumber := ((scopeOf_numbered _ _ 0 (h.settled hroot)).1.at hsplit).1
            rw [if_pos htakes] at hnumber
            exact scope_of_reachedIn hroot (.inside h hself htakes hnumber) own
              (List.Subset.refl _) n hn
        · exact absurd hn List.not_mem_nil

theorem scope_of_reachedIn {root : Node} (hroot : Settled "" root.blocks) {number : String}
    {blocks : List Node} (h : Scope root number blocks) : ∀ ms : List Node,
    scopeOf ms ⊆ scopeOf blocks → ∀ n ∈ reachedIn ms,
      ∃ number' blocks', Scope root number' blocks' ∧ n ∈ scopeOf blocks'
  | [] => fun _ _ hn => absurd hn List.not_mem_nil
  | m :: ms => by
    intro hin n hn
    rw [scopeOf] at hin
    rcases List.mem_append.mp hn with hn | hn
    · exact scope_of_reached hroot h m (List.Subset.trans (List.subset_append_left _ _) hin) n hn
    · have hms := List.Subset.trans (List.subset_append_right _ _) hin
      exact scope_of_reachedIn hroot h ms hms n hn

end

theorem mem_reachedIn_iff {root : Node} (hroot : Settled "" root.blocks) (n : Node) :
    n ∈ reachedIn root.blocks ↔
      ∃ number blocks, Scope root number blocks ∧ n ∈ scopeOf blocks := by
  constructor
  · intro hn
    exact scope_of_reachedIn hroot .whole root.blocks (List.Subset.refl _) n hn
  · rintro ⟨number, blocks, h, hn⟩
    exact h.reachedIn_subset (Node.scopeOf_subset blocks hn)

/-! ### Numbers as lists of integers -/

/-- The integers in front of the dots of a section number. -/
def integersOf (number : String) : List Nat :=
  (Text.pieces '.' number.toList).dropLast.map fun digits => Nat.ofDigitChars 10 digits 0

/-- Whether a number ends with a dot, or is that of the whole outline. -/
def Complete (number : String) : Prop := number = "" ∨ ∃ s, number = s ++ "."

theorem complete_sectionNumber (scope : String) (k : Nat) : Complete (sectionNumber scope k) :=
  Or.inr ⟨_, rfl⟩

theorem integersOf_sectionNumber {scope : String} (h : Complete scope) (k : Nat) :
    integersOf (sectionNumber scope k) = integersOf scope ++ [k] := by
  have hdigits : (toString k).toList = Nat.toDigits 10 k := Nat.toList_repr
  have hdot : '.' ∉ (toString k).toList := by
    rw [hdigits]
    intro hc
    exact absurd (Nat.isDigit_of_mem_toDigits (by decide) (by decide) hc) (by decide)
  have hlast : Text.pieces '.' ((toString k).toList ++ ['.']) = [(toString k).toList, []] := by
    rw [Text.pieces_append, Text.pieces_of_not_mem hdot]
    rfl
  have hend : ".".toList = ['.'] := by decide
  rcases h with rfl | ⟨s, rfl⟩
  · simp only [integersOf, sectionNumber, String.empty_append, String.toList_append, hend, hlast]
    simp [Text.pieces]
  · have hscope : Text.pieces '.' (s.toList ++ ['.']) = Text.pieces '.' s.toList ++ [[]] := by
      rw [Text.pieces_append]
      rfl
    have hall : Text.pieces '.' (s.toList ++ ['.'] ++ (toString k).toList ++ ['.']) =
        Text.pieces '.' s.toList ++ [(toString k).toList, []] := by
      rw [List.append_assoc, List.append_assoc, List.singleton_append, Text.pieces_append, hlast]
    simp only [integersOf, sectionNumber, String.toList_append, hend, hall, hscope]
    rw [List.dropLast_concat, List.dropLast_append_of_ne_nil (by simp)]
    simp

/-- Lists that grow, all within a scope and counted there from `a` to `b`. -/
structure CountsUp (scope : List Nat) (a b : Nat) (xs : List (List Nat)) : Prop where
  le : a ≤ b
  within : ∀ x ∈ xs, ∃ k rest, x = scope ++ k :: rest ∧ a < k ∧ k ≤ b
  sorted : xs.Pairwise (· < ·)

namespace CountsUp

variable {scope : List Nat} {a b c : Nat} {xs ys : List (List Nat)}

theorem nil (scope : List Nat) (a : Nat) : CountsUp scope a a [] where
  le := Nat.le_refl a
  within := nofun
  sorted := .nil

theorem append (hx : CountsUp scope a b xs) (hy : CountsUp scope b c ys) :
    CountsUp scope a c (xs ++ ys) where
  le := Nat.le_trans hx.le hy.le
  within := by
    have hab := hx.le
    have hbc := hy.le
    intro x hm
    rcases List.mem_append.mp hm with hm | hm
    · obtain ⟨k, rest, rfl, hk, hk'⟩ := hx.within x hm
      exact ⟨k, rest, rfl, hk, by omega⟩
    · obtain ⟨k, rest, rfl, hk, hk'⟩ := hy.within x hm
      exact ⟨k, rest, rfl, by omega, hk'⟩
  sorted := by
    apply List.pairwise_append.mpr
    refine ⟨hx.sorted, hy.sorted, ?_⟩
    intro x hm y hm'
    obtain ⟨k, rest, rfl, -, hk⟩ := hx.within x hm
    obtain ⟨l, rest', rfl, hl, -⟩ := hy.within y hm'
    apply List.append_left_lt
    apply List.cons_lt_cons_iff.mpr
    exact Or.inl (by omega)

/-- A numbered section comes before those in its own scope. -/
theorem section_cons (hx : CountsUp (scope ++ [a + 1]) 0 b xs) :
    CountsUp scope a (a + 1) ((scope ++ [a + 1]) :: xs) where
  le := Nat.le_succ a
  within := by
    intro x hm
    rcases List.mem_cons.mp hm with rfl | hm
    · exact ⟨a + 1, [], rfl, by omega, by omega⟩
    · obtain ⟨k, rest, rfl, -, -⟩ := hx.within x hm
      exact ⟨a + 1, k :: rest, by simp, by omega, by omega⟩
  sorted := by
    apply List.pairwise_cons.mpr
    refine ⟨?_, hx.sorted⟩
    intro x hm
    obtain ⟨k, rest, rfl, -, -⟩ := hx.within x hm
    rw [List.append_assoc]
    apply List.append_left_lt
    rw [List.singleton_append]
    apply List.cons_lt_cons_iff.mpr
    exact Or.inr ⟨rfl, List.nil_lt_cons k rest⟩

end CountsUp

/-- The numbers of sections, as lists of integers. -/
def outline (ns : List Node) : List (List Nat) := (ns.filterMap Node.sectnum).map integersOf

theorem outline_append (a b : List Node) : outline (a ++ b) = outline a ++ outline b := by
  simp [outline]

theorem outline_cons_none {n : Node} (h : n.sectnum = none) (ns : List Node) :
    outline (n :: ns) = outline ns := by
  simp [outline, h]

theorem outline_cons_some {n : Node} {number : String} (h : n.sectnum = some number)
    (ns : List Node) : outline (n :: ns) = integersOf number :: outline ns := by
  simp [outline, h]

mutual

theorem reached_countsUp {scope : String} (hscope : Complete scope) :
    ∀ (n : Node) (count : Nat), (numberSection scope n count).1 = n →
      CountsUp (integersOf scope) count (numberSection scope n count).2 (outline (reached n))
  | ⟨data, title, text, items, entries, blocks, table⟩, count => by
    intro h
    rw [Node.reached_eq]
    obtain ⟨hk, hcount⟩ | ⟨hk, hl, hnumber, hblocks, hcount⟩ |
      ⟨hk, hl, hn, hnumber, hblocks, hcount⟩ | ⟨hk, hl, hn, hnumber, hcount⟩ :=
      numberSection_cases h
    · rw [if_pos hk, hcount]
      exact .nil _ _
    · rw [if_neg (not_not_intro hk), if_pos (Or.inl hl), outline_cons_none hnumber, hcount]
      exact reachedIn_countsUp hscope blocks count hblocks
    · rw [if_neg (not_not_intro hk), if_pos (Or.inr hn), outline_cons_some hnumber, hcount]
      have hown := reachedIn_countsUp (complete_sectionNumber scope (count + 1)) blocks 0 hblocks
      rw [integersOf_sectionNumber hscope] at hown ⊢
      exact hown.section_cons
    · rw [if_neg (not_not_intro hk), if_neg (by simp [hl, hn]), outline_cons_none hnumber, hcount]
      exact .nil _ _

theorem reachedIn_countsUp {scope : String} (hscope : Complete scope) :
    ∀ (ns : List Node) (count : Nat), (numberSections scope ns count).1 = ns →
      CountsUp (integersOf scope) count (numberSections scope ns count).2 (outline (reachedIn ns))
  | [], count => fun _ => .nil _ count
  | n :: ns, count => by
    intro h
    simp only [numberSections, List.cons.injEq] at h
    have hfirst := reached_countsUp hscope n count h.1
    have hrest := reachedIn_countsUp hscope ns _ h.2
    simp only [numberSections, reachedIn, outline_append]
    exact hfirst.append hrest

end

namespace Document

variable {defaults : SortedMap String} {d : Document}

theorem settled_prepareWith (h : d.asksNumbers defaults = true) :
    Settled "" (d.prepareWith defaults).root.blocks := by
  have hsettled := numberIf_settled (d.asksNumbers defaults) d.root
  rw [← prepareWith_root, h] at hsettled
  exact congrArg Node.blocks hsettled

/-- The numbers of a prepared document whose sections are numbered. In a scope, a section has the
number of the scope with its own place among the numbered sections there; parts, through which a
scope goes on, and sections that are not numbered have none. The sections of the scopes are those
that are reached from the blocks of the root through parts and numbered sections. Their numbers are
distinct, and as lists of integers they grow in document order. -/
theorem prepareWith_outline (defaults : SortedMap String) (d : Document)
    (h : d.asksNumbers defaults = true) :
    let root := (d.prepareWith defaults).root
    (∀ number blocks, Scope root number blocks →
      ∀ ahead n behind, scopeOf blocks = ahead ++ n :: behind →
        n.sectnum = if n.takesNumber
          then some (number ++ toString (ahead.countP takesNumber + 1) ++ ".") else none) ∧
    (∀ n, n ∈ reachedIn root.blocks ↔
      ∃ number blocks, Scope root number blocks ∧ n ∈ scopeOf blocks) ∧
    (reachedIn root.blocks).Sublist root.walk ∧
    ((reachedIn root.blocks).filterMap Node.sectnum).Nodup ∧
    ((reachedIn root.blocks).filterMap Node.sectnum).Pairwise
      fun a b => integersOf a < integersOf b := by
  intro root
  have hroot : Settled "" root.blocks := settled_prepareWith h
  have hgrows : ((reachedIn root.blocks).filterMap Node.sectnum).Pairwise
      fun a b => integersOf a < integersOf b :=
    List.pairwise_map.mp (reachedIn_countsUp (Or.inl rfl) root.blocks 0 hroot).sorted
  refine ⟨?_, mem_reachedIn_iff hroot, ?_, ?_, hgrows⟩
  · intro number blocks hscope ahead n behind hsplit
    have hnumber := ((scopeOf_numbered _ _ 0 (hscope.settled hroot)).1.at hsplit).1
    rwa [Nat.zero_add] at hnumber
  · apply (Node.reachedIn_within root.blocks).trans
    rw [Node.walk_eq]
    apply List.Sublist.cons
    exact (List.sublist_append_right _ _).trans (List.sublist_append_left _ _)
  · apply hgrows.imp
    rintro a b hab rfl
    exact absurd hab (List.lt_irrefl _)

/-- A chapter with a section in it, and a part with a chapter and one that is not numbered. -/
def outlineSample : Document :=
  let chapter (level : UInt64) : Node := ((Node.ofKind .section).withLevel level).withNumber
  let part := (Node.ofKind .section).withBlocks
    [chapter 1, (Node.ofKind .section).withLevel 1]
  blank.withBlocks [(chapter 1).withBlock (chapter 2), part]

/-- The second chapter goes on with the count of the first one, from within the part. -/
theorem prepareWith_outlineSample :
    let defaults := (∅ : SortedMap String).insert "sectnums" ""
    let root := (outlineSample.prepareWith defaults).root
    outlineSample.asksNumbers defaults = true ∧
      ((reachedIn root.blocks).filterMap Node.sectnum).Nodup ∧
      (reachedIn root.blocks).map Node.sectnum =
        [some "1.", some "1.1.", none, some "2.", none] := by
  intro defaults root
  have h : outlineSample.asksNumbers defaults = true := by decide
  exact ⟨h, (prepareWith_outline defaults outlineSample h).2.2.2.1, by decide⟩

end Document

end DocPress
