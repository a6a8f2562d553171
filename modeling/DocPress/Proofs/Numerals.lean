import DocPress.Proofs.Shown

/-! The marks of footnotes whose number is a numeral, as a reading of ids: only anchors make marks.
Splitting an equation makes no such mark and takes none away, whatever the values of attributes are:
a value that a split reaches has a line end before and after it. -/

namespace DocPress

set_option autoImplicit false

def isNumeral (n : List Char) : Bool := n.all Char.isDigit

/-- The numerals in the marks of footnotes, in the order of the markup. -/
def numeralsIn (m : Markup) : List (List Char) := (marksOf m).filter isNumeral

/-- The numeral in a mark that a tag with the given attributes is. -/
def numeralOf (attrs : ReadAttrs) : List (List Char) := (markNumber? attrs).toList.filter isNumeral

theorem numeralOf_of_ne {name : List Char} (h : name ≠ "id".toList) (value : List Char)
    (rest : ReadAttrs) : numeralOf ((name, some value) :: rest) = [] := by
  rw [numeralOf, markNumber?, if_neg h]
  rfl

theorem TagRead.mark?_of_ids {t : TagRead} (h : t.ids = []) : t.mark? = none := by
  unfold mark?
  split
  · cases hm : markNumber? t.attrs with
    | none => rfl
    | some number =>
      obtain ⟨rest, hattrs⟩ := read_of_markNumber? hm
      have hid : markIdOf number ∈ t.ids := by
        rw [mem_ids, hattrs]
        exact List.mem_cons_self
      rw [h] at hid
      exact absurd hid List.not_mem_nil
  · rfl

/-- The numerals in marks. Tags that are no anchors have none. -/
def IdReading.numerals : IdReading (List Char) where
  ofTag t := t.mark?.toList.filter isNumeral
  ofIds _ := []
  plain t ht := by rw [TagRead.mark?, if_neg ht]; rfl
  silent t ht := by rw [t.mark?_of_ids ht]; rfl

@[simp] theorem ofIds_numerals (ids : List (List Char)) : IdReading.numerals.ofIds ids = [] := rfl

theorem read_numerals (m : Markup) : IdReading.numerals.read m = numeralsIn m := by
  rw [IdReading.read, numeralsIn, marksOf, List.filterMap_eq_flatMap_toList, List.filter_flatMap]
  rfl

/-! ### Split equations -/

theorem isNumeral_of_newline {n : List Char} (h : '\n' ∈ n) : isNumeral n = false := by
  rw [isNumeral, List.all_eq_false]
  exact ⟨'\n', h, by decide⟩

/-- Splitting keeps a numeral behind the beginning of the id of a mark. -/
theorem numeralBehind_split (pieces : List Piece) :
    (after? "_footnoteref_".toList (Equation.splitValue pieces)).toList.filter isNumeral =
      (after? "_footnoteref_".toList (pieces.flatMap Piece.chars)).toList.filter isNumeral := by
  cases hs : after? "_footnoteref_".toList (pieces.flatMap Piece.chars) with
  | none =>
    cases hs' : after? "_footnoteref_".toList (Equation.splitValue pieces) with
    | none => rfl
    | some number =>
      obtain ⟨number', hr⟩ := after?_splitValue (by decide) hs'
      cases hs.symm.trans hr
  | some number =>
    by_cases hn : '\n' ∈ number
    -- A number with a line end is no numeral, and the split leaves a line end in it.
    · have hvalue : '\n' ∈ Equation.splitValue pieces := by
        refine Equation.newline_mem_splitValue ?_
        rw [after?_eq_some.1 hs]
        exact List.mem_append_right _ hn
      have hleft : (some number).toList.filter isNumeral = [] := by
        simp [isNumeral_of_newline hn]
      rw [hleft]
      cases hs' : after? "_footnoteref_".toList (Equation.splitValue pieces) with
      | none => rfl
      | some number' =>
        rw [after?_eq_some.1 hs', List.mem_append] at hvalue
        have hnumber' : '\n' ∈ number' := hvalue.resolve_left (by decide)
        simp [isNumeral_of_newline hnumber']
    · rw [splitValue_of_after? (by decide) hn hs, hs]

/-- Splitting keeps the numeral in the mark that attributes make. -/
theorem numeralOf_split (attrs : List Attr) :
    numeralOf ((splitAttrs attrs).map Attr.read) = numeralOf (attrs.map Attr.read) := by
  cases attrs with
  | nil => rfl
  | cons a rest =>
    cases a with
    | flag _ => rfl
    | value name pieces =>
      simp only [splitAttrs, List.map_cons, read_splitAttr, read_value, numeralOf, markNumber?]
      split
      · exact numeralBehind_split pieces
      · rfl

theorem keepsSplit_numerals : IdReading.numerals.KeepsSplit := by
  intro name attrs
  have hnumeral : ∀ as : ReadAttrs, IdReading.numerals.ofTag ⟨name, as⟩ =
      if name = "a".toList then numeralOf as else [] := by
    intro as
    simp only [IdReading.numerals, TagRead.mark?]
    split <;> rfl
  rw [hnumeral, hnumeral, numeralOf_split]

/-! ### The numerals of nodes -/

/-- The numeral in the mark that an inline node makes: the number of the footnote that it defines,
or the rest of the id of an anchor that is like those of marks. -/
def NodeData.numerals (d : NodeData) : List (List Char) :=
  match d.kind with
  | .inlineAnchor =>
    if d.variant = some "ref" ∨ d.variant = some "bibref" then numeralOf (d.idAttrs.map Attr.read)
    else []
  | _ => d.markNumber?.toList.filter isNumeral

def numeralsOf (ds : List NodeData) : List (List Char) := ds.flatMap NodeData.numerals

theorem ofTag_anchor (attrs : List Attr) :
    IdReading.numerals.ofTag (Tag.a.start attrs) = numeralOf (attrs.map Attr.read) := by
  simp only [IdReading.numerals, mark?_start, if_true]
  rfl

theorem NodeData.read_numerals (d : NodeData) : d.read .numerals = d.numerals := by
  have hlink : IdReading.numerals.ofTag (Inline.linkStart d) = [] := by
    have hhref : AttrName.href.spelling.toList ≠ "id".toList := by decide
    rw [Inline.linkStart, ofTag_anchor, List.map_cons, read_attr, numeralOf_of_ne hhref]
  have hmark : ∀ index, IdReading.numerals.ofTag (Inline.markStart index) =
      [index.toList].filter isNumeral := by
    intro index
    rw [Inline.markStart, ofTag_anchor, numeralOf, markNumber?_markId]
    rfl
  unfold NodeData.read numerals
  cases hk : d.kind
  case inlineAnchor =>
    simp only [ofTag_anchor, hlink]
    split <;> simp_all
  case inlineFootnote =>
    have hb : (d.variant == some "xref") = decide (d.variant = some "xref") :=
      beq_eq_decide _ _
    by_cases hv : d.variant = some "xref" <;> cases hi : d.attr? indexName <;>
      simp [NodeData.markNumber?, hk, hb, hv, hi, hmark]
  all_goals simp [NodeData.markNumber?, hk]

/-- Nothing is read off what a node lends: a mark is an anchor. -/
theorem NodeData.read_lent_numerals (d : NodeData) : d.read IdReading.numerals.lent = [] := by
  have hids : ∀ ids, IdReading.numerals.lent.ofIds ids = [] := fun _ => rfl
  have hanchor := IdReading.numerals.lent_anchor
  unfold NodeData.read
  split
  · exact hids _
  · split <;> simp [Inline.linkStart, hanchor]
  · split <;> simp [Inline.markStart, hids, hanchor]
  · rfl

end DocPress
