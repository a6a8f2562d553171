import DocPress.Block.Title
import DocPress.Proofs.Marks

/-! Reading a table off its tags. The reader keeps the names that are open and takes down what opens
right below the table, below a group of it and in a row of it; what a cell holds is passed over,
other tables too, since it stands deeper. -/

namespace DocPress

set_option autoImplicit false

/-! ### What tags tell -/

/-- A cell as its tag tells it. -/
structure CellRead where
  heading : Bool
  colspan : Option Nat
  rowspan : Option Nat
  halign : Option HAlign
  valign : Option VAlign
  deriving DecidableEq, Repr

/-- What the tags of a table tell of it, one after the other. -/
inductive GridMark where
  | columns
  | column
  | group (group : RowGroup)
  | row
  | cell (cell : CellRead)
  deriving DecidableEq, Repr

def readNumber? (digits : List Char) : Option Nat :=
  if digits ≠ [] ∧ digits.all Char.isDigit = true then some (Nat.ofDigitChars 10 digits 0)
  else none

theorem readNumber?_toString (n : Nat) : readNumber? (toString n).toList = some n := by
  have hdigits : ∀ c ∈ (toString n).toList, c.isDigit = true := fun _ => isDigit_of_mem_toString
  have hrepr : (toString n).toList = Nat.toDigits 10 n := by
    rw [Nat.toString_eq_repr, Nat.toList_repr]
  have hnonempty : (toString n).toList ≠ [] := hrepr ▸ Nat.toDigits_ne_nil
  rw [readNumber?, if_pos ⟨hnonempty, List.all_eq_true.2 hdigits⟩, hrepr,
    Nat.ofDigitChars_ten_toDigits]

namespace TagRead

variable (t : TagRead)

/-- The value of an attribute, without entities. -/
def value? (name : String) : Option (List Char) :=
  (t.attrs.lookup name.toList).join.map Text.decoded

def number? (name : String) : Option Nat := (t.value? name).bind readNumber?

/-- The rest of the first class that begins so. -/
def classAfter? (start : String) : Option String :=
  (t.value? "class").bind fun value =>
    (Text.pieces ' ' value).findSome? fun word =>
      (start.toList.isPrefixOf? word).map String.ofList

/-- The cell that a tag opens. -/
def cell? : Option CellRead :=
  if t.name = "th".toList ∨ t.name = "td".toList then
    some ⟨t.name = "th".toList, t.number? "colspan", t.number? "rowspan",
      (t.classAfter? "halign-").bind HAlign.ofName?, (t.classAfter? "valign-").bind VAlign.ofName?⟩
  else none

end TagRead

section

variable (tag : Tag) (other : String)

theorem value?_nil : (tag.start []).value? other = none := rfl

theorem value?_cons (name : AttrName) (value : String) (attrs : List Attr) :
    (tag.start (attr name value :: attrs)).value? other =
      if other = name.spelling then some value.toList else (tag.start attrs).value? other := by
  simp only [TagRead.value?, Tag.start, List.map_cons, read_attr, List.lookup_cons]
  by_cases h : other = name.spelling
  · subst h
    simp [Text.decoded_escapedAttribute]
  · have hne : (other.toList == name.spelling.toList) = false := by
      simpa [String.toList_inj] using h
    rw [hne, if_neg h]

theorem value?_optAttr (name : AttrName) (value : Option String) (attrs : List Attr) :
    (tag.start (optAttr name value ++ attrs)).value? other =
      if other = name.spelling then (value.map String.toList).or ((tag.start attrs).value? other)
      else (tag.start attrs).value? other := by
  cases value with
  | none => simp [optAttr]
  | some value =>
    have hcons : optAttr name (some value) ++ attrs = attr name value :: attrs := rfl
    rw [hcons, value?_cons, Option.map_some, Option.some_or]

end

/-- The group of rows that a name stands for. -/
def groupNamed? (name : List Char) : Option RowGroup :=
  if name = "thead".toList then some .head
  else if name = "tbody".toList then some .body
  else if name = "tfoot".toList then some .foot
  else none

/-- What a tag tells of the table, by the names that are open there. -/
def gridMark? : List (List Char) → TagRead → Option GridMark
  | [_], t =>
    if t.name = "colgroup".toList then some .columns else (groupNamed? t.name).map .group
  | [part, _], t =>
    if part = "colgroup".toList then if t.name = "col".toList then some .column else none
    else if (groupNamed? part).isSome ∧ t.name = "tr".toList then some .row
    else none
  | [row, group, _], t =>
    if (groupNamed? group).isSome ∧ row = "tr".toList then t.cell?.map .cell else none
  | _, _ => none

/-- What the tags tell of a table up to its end. -/
def readGrid : List (List Char) → List TagRead → Option (List GridMark)
  | [], _ => some []
  | _ :: _, [] => none
  | top :: below, t :: ts =>
    match openAfter (top :: below) t with
    | some names => (readGrid names ts).map ((gridMark? (top :: below) t).toList ++ ·)
    | none => none

/-- What the tags tell of the table that the first of them opens. -/
def readTable : List TagRead → Option (List GridMark)
  | [] => none
  | t :: ts => if t.name = "table".toList then readGrid ["table".toList] ts else none

/-! ### The tree -/

mutual

/-- What the tags of a node tell of the table around it. -/
def Html.gridMarks (names : List (List Char)) : Html → List GridMark
  | .void tag attrs => (gridMark? names (tag.start attrs)).toList
  | .element tag attrs content =>
    (gridMark? names (tag.start attrs)).toList ++ gridMarksOf (tag.name.toList :: names) content
  | _ => []

def gridMarksOf (names : List (List Char)) : List Html → List GridMark
  | [] => []
  | h :: hs => h.gridMarks names ++ gridMarksOf names hs

end

section

variable (names : List (List Char))

@[simp] theorem gridMarksOf_append (a b : List Html) :
    gridMarksOf names (a ++ b) = gridMarksOf names a ++ gridMarksOf names b := by
  induction a with
  | nil => rfl
  | cons h hs ih => simp only [List.cons_append, gridMarksOf, ih, List.append_assoc]

@[simp] theorem gridMarksOf_element (tag : Tag) (attrs : List Attr) (content : List Html) :
    gridMarksOf names [.element tag attrs content] = (gridMark? names (tag.start attrs)).toList ++
      gridMarksOf (tag.name.toList :: names) content := List.append_nil _

/-- The lines of a stack tell what its parts do. -/
theorem gridMarksOf_ended (parts : List Markup) :
    gridMarksOf names (parts.flatMap (· ++ [.lineEnd])) = parts.flatMap (gridMarksOf names) := by
  induction parts with
  | nil => rfl
  | cons p ps ih =>
    rw [List.flatMap_cons, gridMarksOf_append, gridMarksOf_append, ih, List.flatMap_cons]
    exact congrArg (· ++ _) (List.append_nil _)

@[simp] theorem gridMarksOf_stack (tag : Tag) (attrs : List Attr) (parts : List Markup) :
    gridMarksOf names (Markup.stack tag attrs parts) = (gridMark? names (tag.start attrs)).toList ++
      parts.flatMap (gridMarksOf (tag.name.toList :: names)) := by
  rw [Markup.stack, gridMarksOf_element, gridMarksOf, gridMarksOf_ended]
  rfl

end

/-! ### Tags that tell nothing -/

/-- The names of the tags that tell something of a table. -/
def gridNames : List (List Char) :=
  ["colgroup".toList, "col".toList, "thead".toList, "tbody".toList, "tfoot".toList, "tr".toList,
    "th".toList, "td".toList]

theorem gridMark?_foreign {t : TagRead} (h : t.name ∉ gridNames) (names : List (List Char)) :
    gridMark? names t = none := by
  simp only [gridNames, List.mem_cons, List.not_mem_nil, or_false, not_or] at h
  obtain ⟨hcolgroup, hcol, hhead, hbody, hfoot, hrow, hth, htd⟩ := h
  unfold gridMark?
  split
  · rw [if_neg hcolgroup, groupNamed?, if_neg hhead, if_neg hbody, if_neg hfoot]
    rfl
  · rw [if_neg hcol]
    split
    · rfl
    · exact if_neg fun htr => hrow htr.2
  · rw [TagRead.cell?, if_neg (not_or.2 ⟨hth, htd⟩), Option.map_none, ite_self]
  · rfl

theorem gridMark?_stop (tag : Tag) (names : List (List Char)) :
    gridMark? names tag.stop = none := by
  refine gridMark?_foreign (fun h => ?_) names
  have hslash : ∀ name ∈ gridNames, name.head? ≠ some '/' := by decide
  exact hslash _ h rfl

/-- No tag tells anything of a table that is four elements up. -/
theorem gridMark?_deep {names : List (List Char)} (h : 3 < names.length) (t : TagRead) :
    gridMark? names t = none := by
  unfold gridMark?
  split <;> first | rfl | exact absurd h (by simp)

/-- Whether nothing that stands within some open elements tells anything of the table. -/
def PassedOver (names : List (List Char)) : Prop := ∀ inner t, gridMark? (inner ++ names) t = none

theorem PassedOver.cons {names : List (List Char)} (h : PassedOver names) (name : List Char) :
    PassedOver (name :: names) := by
  intro inner t
  have htell := h (inner ++ [name]) t
  rwa [List.append_assoc] at htell

/-- What stands in a cell is passed over. -/
theorem passedOver_deep {names : List (List Char)} (h : 3 < names.length) : PassedOver names := by
  intro inner t
  refine gridMark?_deep ?_ t
  rw [List.length_append]
  omega

/-- What stands in a part of the table that holds neither columns nor rows is passed over. -/
theorem passedOver_part {part : List Char} (hcolumns : part ≠ "colgroup".toList)
    (hrows : groupNamed? part = none) (table : List Char) : PassedOver [part, table] := by
  intro inner t
  match inner with
  | [] =>
    rw [List.nil_append, gridMark?, if_neg hcolumns, hrows]
    rfl
  | [_] =>
    rw [List.singleton_append, gridMark?, hrows]
    rfl
  | _ :: _ :: rest => exact gridMark?_deep (by simp) t

mutual

theorem gridMarks_passedOver : ∀ (h : Html) {names : List (List Char)}, PassedOver names →
    h.gridMarks names = []
  | .doctype, _, _ => rfl
  | .text _, _, _ => rfl
  | .attrText _, _, _ => rfl
  | .raw _, _, _ => rfl
  | .charRef _, _, _ => rfl
  | .void tag attrs, names, hn => by
    have htell : gridMark? names (tag.start attrs) = none := hn [] _
    rw [Html.gridMarks, htell]
    rfl
  | .element tag attrs content, names, hn => by
    have htell : gridMark? names (tag.start attrs) = none := hn [] _
    rw [Html.gridMarks, htell, gridMarksOf_passedOver content (hn.cons _)]
    rfl

theorem gridMarksOf_passedOver : ∀ (m : List Html) {names : List (List Char)}, PassedOver names →
    gridMarksOf names m = []
  | [], _, _ => rfl
  | h :: hs, _, hn => by
    rw [gridMarksOf, gridMarks_passedOver h hn, gridMarksOf_passedOver hs hn]
    rfl

end

/-! ### Reading written markup -/

section

variable (top : List Char) (below : List (List Char)) (ts : List TagRead)

theorem readGrid_start (tag : Tag) (attrs : List Attr) :
    readGrid (top :: below) (tag.start attrs :: ts) =
      (readGrid (tag.name.toList :: top :: below) ts).map
        ((gridMark? (top :: below) (tag.start attrs)).toList ++ ·) := by
  rw [readGrid, openAfter_start]

theorem readGrid_quiet {t : TagRead} {names : List (List Char)}
    (hopen : openAfter (top :: below) t = some names) (hmark : gridMark? (top :: below) t = none) :
    readGrid (top :: below) (t :: ts) = readGrid names ts := by
  rw [readGrid, hopen, hmark]
  exact Option.map_id'

theorem readGrid_stop (tag : Tag) :
    readGrid (tag.name.toList :: below) (tag.stop :: ts) = readGrid below ts := by
  refine readGrid_quiet _ _ _ ?_ (gridMark?_stop tag _)
  simp [openAfter, Tag.stop]

end

mutual

theorem readGrid_tags : ∀ (h : Html) (top : List Char) (below : List (List Char))
    (ts : List TagRead), readGrid (top :: below) (h.tags ++ ts) =
      (readGrid (top :: below) ts).map (h.gridMarks (top :: below) ++ ·)
  | .doctype, top, below, ts => by
    have hforeign : doctypeTag.name ∉ gridNames := by decide
    rw [Html.tags, List.singleton_append,
      readGrid_quiet top below ts rfl (gridMark?_foreign hforeign _)]
    exact Option.map_id'.symm
  | .text _, _, _, _ => Option.map_id'.symm
  | .attrText _, _, _, _ => Option.map_id'.symm
  | .raw _, _, _, _ => Option.map_id'.symm
  | .charRef _, _, _, _ => Option.map_id'.symm
  | .void tag attrs, top, below, ts => by
    have hopen : openAfter (top :: below) (tag.start attrs) = some (top :: below) := by
      cases tag <;> rfl
    rw [Html.tags, List.singleton_append, readGrid, hopen]
    rfl
  | .element tag attrs content, top, below, ts => by
    simp only [Html.tags, List.cons_append, List.append_assoc, List.nil_append, Html.gridMarks]
    rw [readGrid_start, readGrid_tagsOf content, readGrid_stop, Option.map_map]
    rfl

theorem readGrid_tagsOf : ∀ (m : List Html) (top : List Char) (below : List (List Char))
    (ts : List TagRead), readGrid (top :: below) (tagsOf m ++ ts) =
      (readGrid (top :: below) ts).map (gridMarksOf (top :: below) m ++ ·)
  | [], _, _, _ => Option.map_id'.symm
  | h :: hs, top, below, ts => by
    rw [tagsOf, List.append_assoc, readGrid_tags h, readGrid_tagsOf hs, Option.map_map, gridMarksOf]
    congr 1
    funext marks
    exact (List.append_assoc _ _ _).symm

end

/-- A table is read as what its parts tell, whatever tags are behind it. -/
theorem readTable_stack (attrs : List Attr) (parts : List Markup) (rest : List TagRead) :
    readTable (tagsOf (Markup.stack .table attrs parts) ++ rest) =
      some (parts.flatMap (gridMarksOf ["table".toList])) := by
  have htags : tagsOf (Markup.stack .table attrs parts) ++ rest = Tag.table.start attrs ::
      (tagsOf (.lineEnd :: parts.flatMap (· ++ [.lineEnd])) ++ (Tag.table.stop :: rest)) := by
    simp [Markup.stack, tagsOf, Html.tags]
  have hname : (Tag.table.start attrs).name = "table".toList := rfl
  have hstop : readGrid ["table".toList] (Tag.table.stop :: rest) = readGrid [] rest :=
    readGrid_stop [] rest .table
  rw [htags, readTable, if_pos hname, readGrid_tagsOf, hstop, readGrid, Option.map_some,
    List.append_nil, gridMarksOf, gridMarksOf_ended]
  rfl

end DocPress
