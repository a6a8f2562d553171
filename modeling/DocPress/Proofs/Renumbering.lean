import DocPress.Proofs.Indexing
import DocPress.Proofs.Outline

/-! Numbers that stand in a document before it is prepared. Those of the sections that numbering
reaches give way to new ones; those of all other sections stay. Two documents that differ in numbers
alone become the same document exactly if they have the same numbers where numbering does not
reach. -/

namespace DocPress

set_option autoImplicit false

namespace NodeData

/-- What the data of a section say of its number. -/
def heldNumber? (d : NodeData) : Option (Option String) :=
  if d.kind = .section then some d.sectnum else none

/-- The data without a number, if they are those of a section. -/
def withoutNumber (d : NodeData) : NodeData :=
  if d.kind = .section then { d with sectnum := none } else d

theorem kind_withoutNumber (d : NodeData) : d.withoutNumber.kind = d.kind := by
  unfold withoutNumber
  split <;> rfl

/-- Data that are the same without numbers are the same, but for the number of a section. -/
theorem withoutNumber_cases {d d' : NodeData} (hsame : d.withoutNumber = d'.withoutNumber) :
    (d.kind ≠ .section ∧ d' = d) ∨
      (d.kind = .section ∧ ∃ number, d' = { d with sectnum := number }) := by
  have hkind : d'.kind = d.kind := by
    rw [← kind_withoutNumber d', ← hsame, kind_withoutNumber]
  by_cases hk : d.kind = .section
  · rw [withoutNumber, withoutNumber, if_pos hk, if_pos (hkind.trans hk)] at hsame
    refine .inr ⟨hk, d'.sectnum, ?_⟩
    exact congrArg (fun e : NodeData => { e with sectnum := d'.sectnum }) hsame.symm
  · rw [withoutNumber, withoutNumber, if_neg hk, if_neg fun h => hk (hkind.symm.trans h)] at hsame
    exact .inl ⟨hk, hsame.symm⟩

end NodeData

namespace Node

/-- The node without its own number, if it is a section. -/
def withoutNumber (n : Node) : Node := { n with data := n.data.withoutNumber }

/-- The numbers that the sections among the nodes hold. -/
abbrev numbers (ns : List Node) : List (Option String) := readAll NodeData.heldNumber? ns

theorem numbers_cons (n : Node) (ns : List Node) :
    numbers (n :: ns) = n.data.heldNumber?.toList ++ numbers ns :=
  readAll_cons _ n ns

theorem numbers_append (a b : List Node) : numbers (a ++ b) = numbers a ++ numbers b :=
  readAll_append _ a b

/-! ### Numbers put back -/

/-- Gives a section the first of the numbers. -/
def takeNumber (n : Node) (left : List (Option String)) : NodeData × List (Option String) :=
  if n.kind = .section then ({ n.data with sectnum := left.headD none }, left.tail)
  else (n.data, left)

theorem takeNumber_restores :
    Restores NodeData.heldNumber? NodeData.withoutNumber takeNumber := by
  intro data title text items entries blocks table left
  by_cases hk : data.kind = .section
  · have hsame : data.withoutNumber = { data with sectnum := none } := if_pos hk
    have hheld : data.heldNumber? = some data.sectnum := if_pos hk
    rw [hheld, hsame]
    exact if_pos hk
  · have hsame : data.withoutNumber = data := if_neg hk
    have hheld : data.heldNumber? = none := if_neg hk
    rw [hheld, hsame]
    exact if_neg hk

/-! ### Numbers out of reach -/

mutual

/-- The numbers in a block that numbering leaves: all of them if the block is no section, and those
beside the blocks of a section that it enters. -/
def keptNumbers : Node → List (Option String)
  | ⟨data, title, text, items, entries, blocks, table⟩ =>
    if data.kind ≠ .section then numbers (walk ⟨data, title, text, items, entries, blocks, table⟩)
    else
      numbers (walkOpt title) ++ numbers (walkOpt text) ++ numbers (walkAll items) ++
        numbers (walkEntries entries) ++
        (if data.level = 0 ∨ data.numbered = true then keptIn blocks
          else numbers (walkAll blocks)) ++
        numbers (walkTable table)

/-- The numbers among blocks that numbering leaves, in document order. -/
def keptIn : List Node → List (Option String)
  | [] => []
  | n :: ns => keptNumbers n ++ keptIn ns

end

theorem keptNumbers_eq (n : Node) : keptNumbers n =
    if n.kind ≠ .section then numbers n.walk
    else
      numbers (walkOpt n.title) ++ numbers (walkOpt n.text) ++ numbers (walkAll n.items) ++
        numbers (walkEntries n.entries) ++
        (if n.level = 0 ∨ n.numbered = true then keptIn n.blocks
          else numbers (walkAll n.blocks)) ++
        numbers (walkTable n.table) := by
  cases n
  rfl

variable {n n' : Node} {left left' : List (Option String)}

theorem eq_of_numbers (hsame : map withoutNumber n = map withoutNumber n')
    (hnumbers : numbers n.walk ++ left = numbers n'.walk ++ left') : n = n' ∧ left = left' :=
  eq_of_restores (visit_restores takeNumber_restores) hsame hnumbers

mutual

/-- What numbering makes of a block is decided by the block without its numbers and the numbers that
are kept. -/
theorem numberSection_decided : ∀ (n n' : Node) (scope : String) (count : Nat)
    (left left' : List (Option String)), map withoutNumber n = map withoutNumber n' →
      keptNumbers n ++ left = keptNumbers n' ++ left' →
        numberSection scope n count = numberSection scope n' count ∧ left = left'
  | ⟨data, title, text, items, entries, blocks, table⟩,
    ⟨data', title', text', items', entries', blocks', table'⟩, scope, count, left, left' => by
    intro hsame hkept
    have hr := takeNumber_restores
    have hparts := hsame
    simp only [map, withoutNumber, mk.injEq] at hparts
    obtain ⟨hdata, htitle, htext, hitems, hentries, hblocks, htable⟩ := hparts
    unfold keptNumbers at hkept
    rcases NodeData.withoutNumber_cases hdata with ⟨hk, rfl⟩ | ⟨hk, number, rfl⟩
    · rw [if_pos hk, if_pos hk] at hkept
      obtain ⟨hn, hkept⟩ := eq_of_numbers hsame hkept
      exact ⟨by rw [hn], hkept⟩
    · simp only [hk, ne_eq, not_true_eq_false, if_false, List.append_assoc] at hkept
      obtain ⟨htitle, hkept⟩ := eq_of_restores (visitOpt_restores hr) htitle hkept
      obtain ⟨htext, hkept⟩ := eq_of_restores (visitOpt_restores hr) htext hkept
      obtain ⟨hitems, hkept⟩ := eq_of_restores (visitAll_restores hr) hitems hkept
      obtain ⟨hentries, hkept⟩ := eq_of_restores (visitEntries_restores hr) hentries hkept
      unfold numberSection
      simp only [hk, ne_eq, not_true_eq_false, if_false]
      by_cases hl : data.level = 0
      · simp only [hl, true_or, if_true] at hkept ⊢
        obtain ⟨hblocks, hkept⟩ :=
          numberSections_decided blocks blocks' scope count _ _ hblocks hkept
        obtain ⟨htable, hkept⟩ := eq_of_restores (visitTable_restores hr) htable hkept
        rw [htitle, htext, hitems, hentries, hblocks, htable]
        exact ⟨rfl, hkept⟩
      · by_cases hn : data.numbered = true
        · simp only [hl, hn, or_true, if_true, if_false] at hkept ⊢
          obtain ⟨hblocks, hkept⟩ := numberSections_decided blocks blocks'
            (sectionNumber scope (count + 1)) 0 _ _ hblocks hkept
          obtain ⟨htable, hkept⟩ := eq_of_restores (visitTable_restores hr) htable hkept
          rw [htitle, htext, hitems, hentries, hblocks, htable]
          exact ⟨rfl, hkept⟩
        · simp only [hl, hn, if_false] at hkept ⊢
          obtain ⟨hblocks, hkept⟩ := eq_of_restores (visitAll_restores hr) hblocks hkept
          obtain ⟨htable, hkept⟩ := eq_of_restores (visitTable_restores hr) htable hkept
          rw [htitle, htext, hitems, hentries, hblocks, htable]
          exact ⟨rfl, hkept⟩

theorem numberSections_decided : ∀ (ns ns' : List Node) (scope : String) (count : Nat)
    (left left' : List (Option String)), mapAll withoutNumber ns = mapAll withoutNumber ns' →
      keptIn ns ++ left = keptIn ns' ++ left' →
        numberSections scope ns count = numberSections scope ns' count ∧ left = left'
  | [], [], _, _, _, _ => fun _ hkept => ⟨rfl, hkept⟩
  | [], _ :: _, _, _, _, _ => fun hsame _ => absurd hsame nofun
  | _ :: _, [], _, _, _, _ => fun hsame _ => absurd hsame nofun
  | n :: ns, n' :: ns', scope, count, left, left' => by
    intro hsame hkept
    simp only [mapAll, List.cons.injEq] at hsame
    simp only [keptIn, List.append_assoc] at hkept
    obtain ⟨hfirst, hkept⟩ := numberSection_decided n n' scope count _ _ hsame.1 hkept
    obtain ⟨hrest, hkept⟩ := numberSections_decided ns ns' scope
      (numberSection scope n' count).2 _ _ hsame.2 hkept
    refine ⟨?_, hkept⟩
    simp only [numberSections, hfirst, hrest]

end

mutual

theorem numberSection_withoutNumber : ∀ (n : Node) (scope : String) (count : Nat),
    map withoutNumber (numberSection scope n count).1 = map withoutNumber n
  | ⟨data, title, text, items, entries, blocks, table⟩, scope, count => by
    by_cases hk : data.kind = .section
    · have hput (number : Option String) :
          ({ data with sectnum := number } : NodeData).withoutNumber = data.withoutNumber := by
        unfold NodeData.withoutNumber
        rw [if_pos hk, if_pos hk]
      unfold numberSection
      rw [if_neg (not_not_intro hk)]
      split
      · simp only [map, withoutNumber, hput, numberSections_withoutNumber blocks]
      · split
        · simp only [map, withoutNumber, hput, numberSections_withoutNumber blocks]
        · simp only [map, withoutNumber, hput]
    · unfold numberSection
      rw [if_pos hk]

theorem numberSections_withoutNumber : ∀ (ns : List Node) (scope : String) (count : Nat),
    mapAll withoutNumber (numberSections scope ns count).1 = mapAll withoutNumber ns
  | [], _, _ => rfl
  | n :: ns, scope, count => by
    simp only [numberSections, mapAll, numberSection_withoutNumber n,
      numberSections_withoutNumber ns]

end

mutual

theorem numberSection_kept : ∀ (n : Node) (scope : String) (count : Nat),
    keptNumbers (numberSection scope n count).1 = keptNumbers n
  | ⟨data, title, text, items, entries, blocks, table⟩, scope, count => by
    by_cases hk : data.kind = .section
    · unfold numberSection
      rw [if_neg (not_not_intro hk)]
      split
      · rename_i hl
        simp [keptNumbers, hk, hl, numberSections_kept blocks]
      · split
        · rename_i hn
          simp [keptNumbers, hk, hn, numberSections_kept blocks]
        · simp [keptNumbers, hk]
    · unfold numberSection
      rw [if_pos hk]

theorem numberSections_kept : ∀ (ns : List Node) (scope : String) (count : Nat),
    keptIn (numberSections scope ns count).1 = keptIn ns
  | [], _, _ => rfl
  | n :: ns, scope, count => by
    simp only [numberSections, keptIn, numberSection_kept n, numberSections_kept ns]

end

mutual

/-- Every number of a block is that of a section which numbering reaches, or it is kept. -/
theorem numbers_reached : ∀ n : Node,
    (numbers n.walk).Perm ((reached n).map sectnum ++ keptNumbers n)
  | ⟨data, title, text, items, entries, blocks, table⟩ => by
    by_cases hk : data.kind = .section
    · have hheld : data.heldNumber?.toList = [data.sectnum] := by
        rw [NodeData.heldNumber?, if_pos hk]
        rfl
      have hblocks : (numbers (walkAll blocks)).Perm
          ((if data.level = 0 ∨ data.numbered = true then reachedIn blocks else []).map sectnum ++
            if data.level = 0 ∨ data.numbered = true then keptIn blocks
            else numbers (walkAll blocks)) := by
        split
        · exact numbers_reachedIn blocks
        · exact .refl _
      unfold reached keptNumbers
      rw [if_neg (not_not_intro hk), if_neg (not_not_intro hk), walk]
      simp only [numbers_cons, hheld, numbers_append, List.map_cons, List.cons_append,
        List.nil_append]
      apply List.Perm.cons
      apply ((hblocks.append_left _).append_right _).trans
      apply ((List.perm_append_comm_assoc _ _ _).append_right _).trans
      rw [List.append_assoc]
    · unfold reached keptNumbers
      rw [if_pos hk, if_pos hk]
      exact .refl _

theorem numbers_reachedIn : ∀ ns : List Node,
    (numbers (walkAll ns)).Perm ((reachedIn ns).map sectnum ++ keptIn ns)
  | [] => .refl _
  | n :: ns => by
    simp only [walkAll, reachedIn, keptIn, numbers_append, List.map_append, List.append_assoc]
    apply ((numbers_reached n).append (numbers_reachedIn ns)).trans
    rw [List.append_assoc]
    exact (List.perm_append_comm_assoc _ _ _).append_left _

end

/-! ### How many are kept -/

theorem length_numbers (ns : List Node) :
    (numbers ns).length = (readAll (fun d => d.heldNumber?.map fun _ => ()) ns).length := by
  induction ns with
  | nil => rfl
  | cons n ns ih =>
    simp only [numbers, readAll, List.map_cons, List.filterMap_cons] at ih ⊢
    cases n.data.heldNumber? with
    | none => exact ih
    | some number => exact congrArg (· + 1) ih

theorem withoutNumber_held (n : Node) :
    readAll (fun d => d.heldNumber?.map fun _ => ()) n.withoutNumber.walk =
      readAll (fun d => d.heldNumber?.map fun _ => ()) n.walk := by
  have hheld : n.data.withoutNumber.heldNumber?.map (fun _ => ()) =
      n.data.heldNumber?.map fun _ => () := by
    unfold NodeData.heldNumber?
    rw [NodeData.kind_withoutNumber]
    split <;> rfl
  rw [walk_eq, walk_eq n]
  simp only [readAll, List.map_cons, List.filterMap_cons, withoutNumber, hheld]

mutual

/-- How many numbers are kept does not depend on the numbers. -/
theorem length_keptNumbers : ∀ n : Node,
    (keptNumbers (map withoutNumber n)).length = (keptNumbers n).length
  | ⟨data, title, text, items, entries, blocks, table⟩ => by
    by_cases hk : data.kind = .section
    · have hsame : data.withoutNumber = { data with sectnum := none } := if_pos hk
      simp only [map, withoutNumber, hsame, keptNumbers, hk, ne_eq, not_true_eq_false, if_false,
        List.length_append, apply_ite List.length, length_numbers,
        mapOpt_readAll withoutNumber_held, mapAll_readAll withoutNumber_held,
        mapEntries_readAll withoutNumber_held, mapTable_readAll withoutNumber_held,
        length_keptIn blocks]
    · have hkind : (map withoutNumber ⟨data, title, text, items, entries, blocks, table⟩).kind ≠
          .section := fun h => hk (data.kind_withoutNumber.symm.trans h)
      rw [keptNumbers_eq, if_pos hkind, keptNumbers, if_pos hk, length_numbers,
        map_readAll withoutNumber_held, length_numbers]

theorem length_keptIn : ∀ ns : List Node,
    (keptIn (mapAll withoutNumber ns)).length = (keptIn ns).length
  | [] => rfl
  | n :: ns => by
    simp only [mapAll, keptIn, List.length_append, length_keptNumbers n, length_keptIn ns]

end

/-! ### The root -/

/-- The node as a part, which is how numbering enters the root. -/
def asPart (n : Node) : Node := { n with data := { kind := .section } }

theorem map_asPart (n : Node) : map withoutNumber n.asPart = (map withoutNumber n).asPart := by
  cases n
  rfl

/-- The numbers that numbering leaves in a tree: that of the root, and those out of reach. -/
def rootNumbers (root : Node) : List (Option String) :=
  root.data.heldNumber?.toList ++ root.asPart.keptNumbers

theorem length_rootNumbers (root : Node) :
    (map withoutNumber root).rootNumbers.length = root.rootNumbers.length := by
  have hheld : (map withoutNumber root).data.heldNumber?.toList.length =
      root.data.heldNumber?.toList.length := by
    cases root
    simp only [map, withoutNumber, NodeData.heldNumber?, NodeData.kind_withoutNumber]
    split <;> rfl
  rw [rootNumbers, ← map_asPart, List.length_append, length_keptNumbers, hheld,
    ← List.length_append, ← rootNumbers]

theorem numbers_root (root : Node) :
    (numbers root.walk).Perm ((reachedIn root.blocks).map sectnum ++ root.rootNumbers) := by
  have hpart := numbers_reached root.asPart
  rw [walk_eq, numbers_cons, reached_eq] at hpart
  have hrest := (List.perm_cons none).mp hpart
  rw [walk_eq, numbers_cons, rootNumbers]
  exact (hrest.append_left _).trans (List.perm_append_comm_assoc _ _ _)

end Node

open Node (asPart rootNumbers)

namespace Document

theorem numberIf_asPart (root : Node) :
    numberIf true root = { (numberSection "" root.asPart 0).1 with data := root.data } := rfl

theorem asPart_numberIf (root : Node) :
    (numberIf true root).asPart = (numberSection "" root.asPart 0).1 := rfl

theorem withoutNumber_numberIf (root : Node) :
    (numberIf true root).map Node.withoutNumber = root.map Node.withoutNumber := by
  obtain ⟨data, title, text, items, entries, blocks, table⟩ := root
  simp only [numberIf, if_true, Node.map, Node.numberSections_withoutNumber]

theorem rootNumbers_numberIf (root : Node) :
    (numberIf true root).rootNumbers = root.rootNumbers := by
  rw [rootNumbers, asPart_numberIf, Node.numberSection_kept]
  rfl

/-- What numbering makes of a tree is decided by the tree without numbers and the numbers that it
leaves. -/
theorem numberIf_decided {root root' : Node}
    (hsame : root.map Node.withoutNumber = root'.map Node.withoutNumber)
    (hkept : root.rootNumbers = root'.rootNumbers) : numberIf true root = numberIf true root' := by
  have hpart : root.asPart.map Node.withoutNumber = root'.asPart.map Node.withoutNumber := by
    rw [Node.map_asPart, hsame, ← Node.map_asPart]
  have hdata : root.data.withoutNumber = root'.data.withoutNumber := by
    cases root
    cases root'
    exact congrArg Node.data hsame
  obtain ⟨hown, hrest⟩ : root'.data = root.data ∧
      root.asPart.keptNumbers = root'.asPart.keptNumbers := by
    unfold rootNumbers at hkept
    rcases NodeData.withoutNumber_cases hdata with ⟨hk, he⟩ | ⟨hk, number, he⟩
    · rw [he] at hkept
      exact ⟨he, List.append_cancel_left hkept⟩
    · rw [he, NodeData.heldNumber?, NodeData.heldNumber?, if_pos hk, if_pos hk] at hkept
      obtain ⟨hnumber, hrest⟩ := List.cons.inj hkept
      obtain rfl : root.data.sectnum = number := hnumber
      exact ⟨he, hrest⟩
  have hdecided := Node.numberSection_decided root.asPart root'.asPart "" 0 [] [] hpart
    (by rw [hrest])
  rw [numberIf_asPart, numberIf_asPart, hdecided.1, hown]

end Document

open Node (numbers keptIn reachedIn)

/-! ### Indexing -/

theorem numbers_indexFootnotes (root : Node) :
    numbers (indexFootnotes root).1.walk = numbers root.walk := by
  rw [numbers, readAll_indexFootnotes (fun _ => rfl), readAll_scan fun _ _ => rfl]

namespace Header

/-- The header without the numbers of sections in its titles. -/
def withoutNumbers (h : Header) : Header :=
  { h with
    title := Node.mapAll Node.withoutNumber h.title
    subtitle := Node.mapOpt Node.withoutNumber h.subtitle }

def numbers (h : Header) : List (Option String) :=
  Node.numbers (Node.walkAll h.title) ++ Node.numbers (Node.walkOpt h.subtitle)

theorem eq_of_numbers {h h' : Header} (hsame : h.withoutNumbers = h'.withoutNumbers)
    {left left' : List (Option String)} (hnumbers : h.numbers ++ left = h'.numbers ++ left') :
    h = h' ∧ left = left' := by
  have hr := Node.takeNumber_restores
  obtain ⟨title, subtitle, authors⟩ := h
  obtain ⟨title', subtitle', authors'⟩ := h'
  simp only [withoutNumbers, mk.injEq] at hsame
  obtain ⟨htitle, hsubtitle, rfl⟩ := hsame
  simp only [numbers, List.append_assoc] at hnumbers
  obtain ⟨htitle, hnumbers⟩ := Node.eq_of_restores (Node.visitAll_restores hr) htitle hnumbers
  obtain ⟨hsubtitle, hleft⟩ := Node.eq_of_restores (Node.visitOpt_restores hr) hsubtitle hnumbers
  rw [htitle, hsubtitle]
  exact ⟨rfl, hleft⟩

theorem length_numbers (h : Header) : h.withoutNumbers.numbers.length = h.numbers.length := by
  simp only [numbers, withoutNumbers, List.length_append, Node.length_numbers,
    Node.mapAll_readAll Node.withoutNumber_held, Node.mapOpt_readAll Node.withoutNumber_held]

end Header

namespace Document

/-- The document without the numbers of its sections. Its catalog is left out as well, since
preparation fills it anew. -/
def withoutNumbers (d : Document) : Document :=
  { d with
    root := d.root.map Node.withoutNumber
    header := d.header.map Header.withoutNumbers
    catalog := .blank }

/-- The numbers of all sections of the header and of the tree. -/
def numbers (d : Document) : List (Option String) :=
  (d.header.map Header.numbers).getD [] ++ Node.numbers d.root.walk

/-- The numbers that preparation keeps: those of the header, and those that numbering leaves in the
tree. -/
def keptNumbers (d : Document) : List (Option String) :=
  (d.header.map Header.numbers).getD [] ++ d.root.rootNumbers

theorem length_keptNumbers (d : Document) :
    d.withoutNumbers.keptNumbers.length = d.keptNumbers.length := by
  unfold keptNumbers withoutNumbers
  cases d.header with
  | none => exact Node.length_rootNumbers d.root
  | some h =>
    simp only [Option.map_some, Option.getD_some, List.length_append, Header.length_numbers,
      Node.length_rootNumbers]

variable {d d' : Document} {defaults : SortedMap String}

theorem header_of_numbers (hsame : d.withoutNumbers = d'.withoutNumbers)
    {left left' : List (Option String)}
    (hnumbers : (d.header.map Header.numbers).getD [] ++ left =
      (d'.header.map Header.numbers).getD [] ++ left') : d.header = d'.header ∧ left = left' := by
  have hheader : d.header.map Header.withoutNumbers = d'.header.map Header.withoutNumbers :=
    congrArg Document.header hsame
  revert hheader hnumbers
  cases d.header with
  | none =>
    cases d'.header with
    | none => exact fun hnumbers _ => ⟨rfl, hnumbers⟩
    | some h' => exact fun _ hheader => absurd hheader nofun
  | some h =>
    cases d'.header with
    | none => exact fun _ hheader => absurd hheader nofun
    | some h' =>
      intro hnumbers hheader
      obtain ⟨hh, hleft⟩ := Header.eq_of_numbers (Option.some.inj hheader) hnumbers
      exact ⟨congrArg some hh, hleft⟩

/-- Preparation of documents with one header and attributes is decided by their numbered trees. -/
theorem prepareWith_congr (hheader : d.header = d'.header)
    (hattributes : d.attributes = d'.attributes) (hnested : d.nested = d'.nested)
    (hroot :
      numberIf (d.asksNumbers defaults) d.root = numberIf (d'.asksNumbers defaults) d'.root) :
    d.prepareWith defaults = d'.prepareWith defaults := by
  have hprepared : (d.prepareWith defaults).root = (d'.prepareWith defaults).root := by
    rw [prepareWith_root, prepareWith_root, hroot]
  refine eq_of_parts hprepared hheader hattributes ?_ ?_ hnested
  · have hregistered :
        (d.prepareWith defaults).registered = (d'.prepareWith defaults).registered := by
      unfold registered
      rw [hprepared]
      change Node.walkAll ((d.header.map Header.title).getD []) ++ _ =
        Node.walkAll ((d'.header.map Header.title).getD []) ++ _
      rw [hheader]
    rw [prepareWith_refs, prepareWith_refs, hregistered]
  · rw [prepareWith_footnotes, prepareWith_footnotes, hroot]

theorem prepareWith_iff_keptNumbers (hasks : d.asksNumbers defaults = true)
    (hsame : d.withoutNumbers = d'.withoutNumbers) :
    d.prepareWith defaults = d'.prepareWith defaults ↔ d.keptNumbers = d'.keptNumbers := by
  have hattributes : d.attributes = d'.attributes := congrArg (·.attributes) hsame
  have htree : d.root.map Node.withoutNumber = d'.root.map Node.withoutNumber :=
    congrArg (·.root) hsame
  have hasks' : d'.asksNumbers defaults = true := by
    rw [← hasks, asksNumbers, asksNumbers, hasAttr, hasAttr, hattributes]
  constructor
  · intro h
    have hheader : d.header = d'.header := congrArg (·.header) h
    have hprepared := congrArg (·.root) h
    rw [prepareWith_root, prepareWith_root, hasks, hasks'] at hprepared
    -- a prepared tree has the numbers of the numbered one, and numbered trees differ in no more
    have hnumbers : Node.numbers (numberIf true d.root).walk =
        Node.numbers (numberIf true d'.root).walk := by
      rw [← numbers_indexFootnotes, hprepared, numbers_indexFootnotes]
    have hnumbered : numberIf true d.root = numberIf true d'.root := by
      refine (Node.eq_of_numbers ?_ (congrArg (· ++ []) hnumbers)).1
      rw [withoutNumber_numberIf, withoutNumber_numberIf, htree]
    rw [keptNumbers, keptNumbers, hheader, ← rootNumbers_numberIf, hnumbered, rootNumbers_numberIf]
  · intro hkept
    obtain ⟨hheader, hroot⟩ := header_of_numbers hsame hkept
    apply prepareWith_congr hheader hattributes (congrArg (·.nested) hsame)
    rw [hasks, hasks']
    exact numberIf_decided htree hroot

/-- Numbers that stand in a document give way to new ones where numbering reaches a section, and
stay everywhere else: two documents that differ in numbers alone are prepared to the same document
exactly if they agree on the numbers that are kept. -/
theorem prepareWith_renumbered (defaults : SortedMap String) (d d' : Document)
    (hasks : d.asksNumbers defaults = true) (hsame : d.withoutNumbers = d'.withoutNumbers) :
    (d.prepareWith defaults = d'.prepareWith defaults ↔ d.keptNumbers = d'.keptNumbers) ∧
      (d.keptNumbers = [] → d.prepareWith defaults = d'.prepareWith defaults) ∧
      d.numbers.Perm ((reachedIn d.root.blocks).map Node.sectnum ++ d.keptNumbers) := by
  have hiff := prepareWith_iff_keptNumbers hasks hsame
  refine ⟨hiff, ?_, ?_⟩
  · intro hnone
    apply hiff.mpr
    have hlength := length_keptNumbers d'
    rw [← hsame, length_keptNumbers, hnone] at hlength
    rw [hnone, List.eq_nil_of_length_eq_zero hlength.symm]
  · unfold numbers keptNumbers
    apply ((Node.numbers_root d.root).append_left _).trans
    exact List.perm_append_comm_assoc _ _ _

/-- A section in a section, with the numbers left over from before; `numbered` says whether the
outer one takes a number, so that numbering enters it. -/
def leftOver (numbered : Bool) (outer inner : String) : Document :=
  let sub : Node := .leaf
    { kind := .section, id := some "s", level := 2, numbered := true, sectnum := some inner }
  let top : Node := .leaf { kind := .section, level := 1, numbered, sectnum := some outer }
  { blank with
    attributes := (∅ : Attributes).insert "sectnums" (.text "")
    root := { Node.ofKind .document with blocks := [{ top with blocks := [sub] }] } }

theorem prepareWith_leftOver :
    (leftOver true "7." "9.").asksNumbers ∅ = true ∧
      (leftOver true "7." "9.").withoutNumbers = (leftOver true "3." "5.").withoutNumbers ∧
      (leftOver true "7." "9.").prepareWith ∅ = (leftOver true "3." "5.").prepareWith ∅ := by
  have hasks : (leftOver true "7." "9.").asksNumbers ∅ = true := by decide
  have hsame : (leftOver true "7." "9.").withoutNumbers =
      (leftOver true "3." "5.").withoutNumbers := by rfl
  exact ⟨hasks, hsame, (prepareWith_renumbered ∅ _ _ hasks hsame).2.1 (by decide)⟩

/-- Below a section without a number the old number stays, in the tree and in the catalog. -/
theorem prepareWith_staleNumber :
    (leftOver false "7." "9.").asksNumbers ∅ = true ∧
      (leftOver false "7." "9.").withoutNumbers = (leftOver false "7." "5.").withoutNumbers ∧
      (leftOver false "7." "9.").prepareWith ∅ ≠ (leftOver false "7." "5.").prepareWith ∅ ∧
      (((leftOver false "7." "9.").prepareWith ∅).catalog.ref? "s").map RefTarget.sectnum =
        some (some "9.") := by
  refine ⟨by decide, rfl, ?_, by decide⟩
  intro h
  have hkept := congrArg (fun d => (d.catalog.ref? "s").map RefTarget.sectnum) h
  exact absurd hkept (by decide)

end Document

end DocPress
