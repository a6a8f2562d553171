import DocPress.Block.Title
import DocPress.Markup.NodeAttrs
import DocPress.Proofs.Drawn
import DocPress.Proofs.Entities
import Mathlib.Data.List.Basic

/-! The ids in markup, the values of the attributes of that name, and readings of markup that look
for ids: what templates put around a part of a page adds what is read off the ids of its own
attributes and nothing else. -/

namespace DocPress

set_option autoImplicit false

/-! ### Ids of attributes -/

def AttrName.isId : AttrName → Bool
  | .id => true
  | .custom spelling => spelling == "id"
  | _ => false

theorem AttrName.isId_iff {name : AttrName} :
    name.isId = true ↔ name.spelling.toList = "id".toList := by
  cases name with
  | custom written => rw [isId, beq_iff_eq, ← String.toList_inj, spelling]
  | id => exact ⟨fun _ => rfl, fun _ => rfl⟩
  | _ => exact ⟨fun h => absurd h Bool.false_ne_true, by decide⟩

@[simp] theorem AttrName.isId_id : AttrName.id.isId = true := rfl

@[simp] theorem AttrName.isId_other {name : AttrName} (hid : name ≠ .id)
    (hcustom : ∀ spelling, name ≠ .custom spelling) : name.isId = false := by
  cases name with
  | id => exact absurd rfl hid
  | custom spelling => exact absurd rfl (hcustom spelling)
  | _ => rfl

/-- The value of an attribute that is an id. -/
def Attr.ids : Attr → List (List Char)
  | .flag _ => []
  | .value name pieces => if name.isId then [pieces.flatMap Piece.chars] else []

def attrIds (attrs : List Attr) : List (List Char) := attrs.flatMap Attr.ids

/-- The id of a node as it is written. -/
def NodeData.idValues (d : NodeData) : List (List Char) :=
  (d.id.map fun i => Text.escapedAttribute i.toList).toList

@[simp] theorem attrIds_nil : attrIds [] = [] := rfl

@[simp] theorem attrIds_append (a b : List Attr) : attrIds (a ++ b) = attrIds a ++ attrIds b :=
  List.flatMap_append

@[simp] theorem attrIds_value (name : AttrName) (pieces : List Piece) (attrs : List Attr) :
    attrIds (.value name pieces :: attrs) =
      (if name.isId then [pieces.flatMap Piece.chars] else []) ++ attrIds attrs := rfl

@[simp] theorem attrIds_attr (name : AttrName) (v : String) (attrs : List Attr) :
    attrIds (attr name v :: attrs) =
      (if name.isId then [Text.escapedAttribute v.toList] else []) ++ attrIds attrs := by
  rw [attr, attrIds_value, chars_escaped]

@[simp] theorem attrIds_flag (name : AttrName) (attrs : List Attr) :
    attrIds (.flag name :: attrs) = attrIds attrs := rfl

@[simp] theorem attrIds_optAttr (name : AttrName) (v : Option String) :
    attrIds (optAttr name v) =
      if name.isId then (v.map fun i => Text.escapedAttribute i.toList).toList else [] := by
  cases v <;> simp [optAttr]

@[simp] theorem attrIds_optFlag (name : AttrName) (present : Bool) :
    attrIds (optFlag name present) = [] := by
  cases present <;> rfl

@[simp] theorem attrIds_ite {c : Prop} [Decidable c] (a b : List Attr) :
    attrIds (if c then a else b) = if c then attrIds a else attrIds b := by
  split <;> rfl

@[simp] theorem attrIds_classes (list : ClassList) : attrIds list.attrs = [] := by
  simp [ClassList.attrs]

@[simp] theorem attrIds_idAttrs (d : NodeData) : attrIds d.idAttrs = d.idValues := by
  simp [NodeData.idAttrs, NodeData.idValues]

@[simp] theorem attrIds_roleAttrs (d : NodeData) : attrIds d.roleAttrs = [] := by
  simp [NodeData.roleAttrs]

@[simp] theorem attrIds_classAttrs (d : NodeData) (base : String) :
    attrIds (d.classAttrs base) = [] := by
  simp [NodeData.classAttrs]

@[simp] theorem attrIds_linkAttrs (d : NodeData) : attrIds d.linkAttrs = [] := by
  simp [NodeData.linkAttrs]

/-! ### Ids of tags -/

/-- The values of the id attributes of a tag. -/
def TagRead.ids (t : TagRead) : List (List Char) :=
  t.attrs.filterMap fun a => if a.1 = "id".toList then a.2 else none

theorem TagRead.mem_ids {t : TagRead} {v : List Char} :
    v ∈ t.ids ↔ ("id".toList, some v) ∈ t.attrs := by
  simp only [ids, List.mem_filterMap]
  constructor
  · rintro ⟨⟨name, value⟩, ha, hv⟩
    split at hv
    · rename_i hname
      rwa [← hname, ← hv]
    · cases hv
  · exact fun h => ⟨_, h, if_pos rfl⟩

theorem ids_read (name : List Char) (attrs : List Attr) :
    TagRead.ids ⟨name, attrs.map Attr.read⟩ = attrIds attrs := by
  have hread : ∀ a : Attr,
      (if a.read.1 = "id".toList then a.read.2 else none).toList = a.ids := by
    intro a
    cases a with
    | flag _ => exact congrArg Option.toList (ite_self none)
    | value n pieces =>
      simp only [Attr.read, Attr.ids, ← AttrName.isId_iff]
      split <;> rfl
  rw [TagRead.ids, attrIds, List.filterMap_eq_flatMap_toList, List.flatMap_map]
  exact congrArg (fun f => attrs.flatMap f) (funext hread)

/-! ### Readings -/

/-- A way to read markup tag by tag. It looks at nothing but ids, and for tags that are no anchors
at their values alone. -/
structure IdReading (α : Type) where
  ofTag : TagRead → List α
  ofIds : List (List Char) → List α
  plain : ∀ t : TagRead, t.name ≠ "a".toList → ofTag t = ofIds t.ids
  silent : ∀ t : TagRead, t.ids = [] → ofTag t = []

namespace IdReading

variable {α : Type} (r : IdReading α)

/-- What is read off the tags of a markup, in its order. -/
def read (m : Markup) : List α := (tagsOf m).flatMap r.ofTag

@[simp] theorem ofIds_nil : r.ofIds [] = [] := by
  have hname : (doctypeTag.name ≠ "a".toList) := by decide
  rw [← show doctypeTag.ids = [] by decide, ← r.plain _ hname]
  exact r.silent _ (by decide)

theorem ofTag_start {tag : Tag} (h : tag ≠ .a) (attrs : List Attr) :
    r.ofTag (tag.start attrs) = r.ofIds (attrIds attrs) := by
  have hids : (tag.start attrs).ids = attrIds attrs := ids_read _ attrs
  rw [r.plain _ (mt name_eq_a.1 h), hids]

theorem ofTag_stop (tag : Tag) : r.ofTag tag.stop = [] := r.silent _ rfl

theorem ofTag_void (tag : VoidTag) (attrs : List Attr) :
    r.ofTag (tag.start attrs) = r.ofIds (attrIds attrs) := by
  have hids : (tag.start attrs).ids = attrIds attrs := ids_read _ attrs
  have hname : tag.name.toList ≠ "a".toList := by
    cases tag <;> decide
  rw [r.plain _ hname, hids]

/-! ### Nodes of markup -/

@[simp] theorem read_nil : r.read [] = [] := rfl

@[simp] theorem read_append (a b : Markup) : r.read (a ++ b) = r.read a ++ r.read b := by
  rw [read, tagsOf_append, List.flatMap_append]
  rfl

theorem read_cons (h : Html) (m : Markup) : r.read (h :: m) = r.read [h] ++ r.read m :=
  r.read_append [h] m

theorem read_of_tags {h : Html} (ht : h.tags = []) (m : Markup) : r.read (h :: m) = r.read m := by
  rw [read_cons, read, tagsOf, ht]
  rfl

@[simp] theorem read_text (t : String) (m : Markup) : r.read (.text t :: m) = r.read m :=
  r.read_of_tags rfl m

@[simp] theorem read_attrText (t : String) (m : Markup) : r.read (.attrText t :: m) = r.read m :=
  r.read_of_tags rfl m

@[simp] theorem read_raw (t : String) (m : Markup) : r.read (.raw t :: m) = r.read m :=
  r.read_of_tags rfl m

@[simp] theorem read_charRef (code : Nat) (m : Markup) :
    r.read (.charRef code :: m) = r.read m := r.read_of_tags rfl m

@[simp] theorem read_lineEnd (m : Markup) : r.read (.lineEnd :: m) = r.read m := r.read_text "\n" m

@[simp] theorem read_void (tag : VoidTag) (attrs : List Attr) (m : Markup) :
    r.read (.void tag attrs :: m) = r.ofIds (attrIds attrs) ++ r.read m := by
  rw [read_cons, read, tagsOf, Html.tags, tagsOf, List.append_nil, List.flatMap_singleton,
    ofTag_void]

theorem read_tagged (tag : Tag) (attrs : List Attr) (content m : Markup) :
    r.read (.element tag attrs content :: m) =
      r.ofTag (tag.start attrs) ++ (r.read content ++ r.read m) := by
  rw [read_cons, read, tagsOf, Html.tags, tagsOf, List.append_nil, List.flatMap_cons,
    List.flatMap_append, List.flatMap_singleton, ofTag_stop, List.append_nil, List.append_assoc]
  rfl

@[simp] theorem read_element {tag : Tag} (h : tag ≠ .a) (attrs : List Attr)
    (content m : Markup) :
    r.read (.element tag attrs content :: m) =
      r.ofIds (attrIds attrs) ++ (r.read content ++ r.read m) := by
  rw [read_tagged, r.ofTag_start h]

/-- An anchor without an id. -/
@[simp] theorem read_link {attrs : List Attr} (h : attrIds attrs = []) (content m : Markup) :
    r.read (.element .a attrs content :: m) = r.read content ++ r.read m := by
  have hids : (Tag.a.start attrs).ids = [] := (ids_read _ attrs).trans h
  rw [read_tagged, r.silent _ hids, List.nil_append]

/-! ### Parts -/

@[simp] theorem read_flatten (parts : List Markup) :
    r.read parts.flatten = parts.flatMap r.read := by
  induction parts with
  | nil => rfl
  | cons p ps ih => rw [List.flatten_cons, read_append, ih, List.flatMap_cons]

theorem read_intercalate {sep : Markup} (hsep : r.read sep = []) (parts : List Markup) :
    r.read (sep.intercalate parts) = parts.flatMap r.read := by
  match parts with
  | [] => rfl
  | [p] => simp
  | p :: q :: ps =>
    rw [List.intercalate_cons_cons, read_append, read_append, hsep, List.append_nil,
      read_intercalate hsep (q :: ps), ← List.flatMap_cons]

theorem read_intersperse {sep : Html} (hsep : r.read [sep] = []) (m : Markup) :
    r.read (m.intersperse sep) = r.read m := by
  match m with
  | [] => rfl
  | [_] => rfl
  | h :: k :: m =>
    rw [List.intersperse_cons_cons, read_cons r h, read_cons r sep, hsep,
      read_intersperse hsep (k :: m), read_cons r h (k :: m), List.nil_append]

theorem read_map {β : Type} {f : β → Html} (hf : ∀ b, r.read [f b] = []) (bs : List β) :
    r.read (bs.map f) = [] := by
  induction bs with
  | nil => rfl
  | cons b bs ih => rw [List.map_cons, read_cons, hf, ih, List.nil_append]

@[simp] theorem read_lines (parts : List Markup) : r.read (.lines parts) = parts.flatMap r.read :=
  r.read_intercalate rfl parts

@[simp] theorem read_stack {tag : Tag} (h : tag ≠ .a) (attrs : List Attr)
    (parts : List Markup) :
    r.read (.stack tag attrs parts) = r.ofIds (attrIds attrs) ++ parts.flatMap r.read := by
  have hends : r.read (parts.flatMap (· ++ [Html.lineEnd])) = parts.flatMap r.read := by
    induction parts with
    | nil => rfl
    | cons p ps ih =>
      rw [List.flatMap_cons, read_append, read_append, ih, List.flatMap_cons]
      exact congrArg (· ++ _) (List.append_nil _)
  rw [Markup.stack, r.read_element h, read_lineEnd, hends, read_nil, List.append_nil]

@[simp] theorem read_contentBox (parts : List Markup) :
    r.read (Block.contentBox parts) = parts.flatMap r.read := by
  simp [Block.contentBox]

@[simp] theorem read_when (present : Bool) (part : Markup) :
    (Markup.when present part).flatMap r.read = if present then r.read part else [] := by
  cases present <;> simp [Markup.when]

end IdReading

namespace IdReading

variable {α : Type} (r : IdReading α)

/-! ### Borrowed words -/

/-- The reading that passes over anchors. -/
def lent : IdReading α where
  ofTag t := if t.name = "a".toList then [] else r.ofTag t
  ofIds := r.ofIds
  plain t ht := by rw [if_neg ht, r.plain t ht]
  silent t ht := by rw [r.silent t ht, ite_self]

theorem lent_start {tag : Tag} (h : tag ≠ .a) (attrs : List Attr) :
    r.lent.ofTag (tag.start attrs) = r.ofTag (tag.start attrs) := if_neg (mt name_eq_a.1 h)

theorem lent_anchor (attrs : List Attr) : r.lent.ofTag (Tag.a.start attrs) = [] := by
  have hname : (Tag.a.start attrs).name = "a".toList := rfl
  simp only [lent, hname, if_true]

mutual

theorem read_unwrapAnchors : ∀ h : Html, r.read h.unwrapAnchors = r.lent.read [h]
  | .element tag attrs content => by
    have hcontent := read_unwrapAnchorsOf content
    rw [unwrapAnchors_element, read_tagged, read_nil, List.append_nil]
    split
    · rename_i ht
      rw [hcontent, ht, lent_anchor, List.nil_append]
    · rename_i ht
      rw [read_tagged, read_nil, List.append_nil, hcontent, lent_start r ht]
  | .void tag attrs => by
    rw [Html.unwrapAnchors, read_void, read_void]
    rfl
  | .doctype => by
    rw [Html.unwrapAnchors, read, read]
    rfl
  | .text _ => by rw [Html.unwrapAnchors, read_text, read_text]; rfl
  | .attrText _ => by rw [Html.unwrapAnchors, read_attrText, read_attrText]; rfl
  | .raw _ => by rw [Html.unwrapAnchors, read_raw, read_raw]; rfl
  | .charRef _ => by rw [Html.unwrapAnchors, read_charRef, read_charRef]; rfl

theorem read_unwrapAnchorsOf : ∀ m : List Html, r.read (unwrapAnchorsOf m) = r.lent.read m
  | [] => rfl
  | h :: hs => by
    rw [unwrapAnchorsOf, read_append, read_unwrapAnchors h, read_unwrapAnchorsOf hs,
      ← read_cons]

end

theorem read_withoutAnchors (m : Markup) : r.read m.withoutAnchors ⊆ r.lent.read m := by
  unfold Markup.withoutAnchors
  split
  · rw [read_unwrapAnchorsOf]
    exact List.Subset.refl _
  · exact List.nil_subset _

/-! ### Split equations -/

/-- Whether splitting the values of attributes keeps what is read. -/
def KeepsSplit : Prop := ∀ (name : List Char) (attrs : List Attr),
  r.ofTag ⟨name, (splitAttrs attrs).map Attr.read⟩ = r.ofTag ⟨name, attrs.map Attr.read⟩

theorem read_joint (ends : Nat) : r.read (Equation.joint Equation.ascii ends) = [] := by
  have hbreaks : ∀ n : Nat,
      r.read (List.replicate n ([.text "\n", .void .br []] : Markup)).flatten = [] := by
    intro n
    induction n with
    | zero => rfl
    | succ n ih =>
      rw [List.replicate_succ, List.flatten_cons, read_append, ih]
      simp
  rw [Equation.joint, read_text, read_append, hbreaks]
  simp

theorem read_splitAt (items : List Html) :
    r.read (Equation.splitAt Equation.Html.glyph? (Equation.joint Equation.ascii) 0 items) =
      r.read items :=
  Equation.read_splitAt r.read_append r.read_joint (fun _ ht => r.read_of_tags ht []) (by simp)

mutual

theorem read_glyphs (hr : r.KeepsSplit) : ∀ h : Html,
    r.read (Equation.glyphs Equation.ascii h) = r.read [h]
  | .text t => by
    rw [read_text]
    exact r.read_map (fun _ => r.read_text _ []) t.toList
  | .attrText t => by
    rw [read_attrText]
    exact r.read_map (fun _ => r.read_attrText _ []) t.toList
  | .raw t => by
    rw [read_raw]
    exact r.read_map (fun _ => r.read_raw _ []) t.toList
  | .element tag attrs content => by
    have htag : r.ofTag (tag.start (splitAttrs attrs)) = r.ofTag (tag.start attrs) := hr _ attrs
    rw [Equation.glyphs, read_tagged, read_tagged, read_splitAt,
      read_glyphsOf hr content, htag]
  | .void tag attrs => by
    have htag : r.ofTag (tag.start (splitAttrs attrs)) = r.ofTag (tag.start attrs) := hr _ attrs
    rw [ofTag_void, ofTag_void] at htag
    rw [Equation.glyphs, read_void, read_void, htag]
  | .charRef code => rfl
  | .doctype => rfl

theorem read_glyphsOf (hr : r.KeepsSplit) : ∀ m : List Html,
    r.read (Equation.glyphsOf Equation.ascii m) = r.read m
  | [] => rfl
  | h :: hs => by
    rw [Equation.glyphsOf, read_append, read_glyphs hr h, read_glyphsOf hr hs, ← read_cons]

end

theorem read_split (hr : r.KeepsSplit) (m : Markup) :
    r.read (Equation.split Equation.ascii m) = r.read m := by
  rw [Equation.split, read_splitAt, read_glyphsOf r hr]

theorem read_delimit (d : Equation.Delimiters) (m : Markup) :
    r.read (Equation.delimit d m) = r.read m := by
  unfold Equation.delimit
  split
  · rfl
  · simp

end IdReading

/-- All ids. -/
def IdReading.all : IdReading (List Char) where
  ofTag := TagRead.ids
  ofIds ids := ids
  plain _ _ := rfl
  silent _ h := h

/-- The ids of a markup, in its order. -/
def idsIn (m : Markup) : List (List Char) := IdReading.all.read m

/-! ### Tags as they are written -/

def attrReadChars : List Char × Option (List Char) → List Char
  | (name, none) => ' ' :: name
  | (name, some value) => ' ' :: (name ++ '=' :: '"' :: (value ++ ['"']))

/-- A tag as markup has it. -/
def TagRead.written (t : TagRead) : List Char :=
  '<' :: (t.name ++ (t.attrs.flatMap attrReadChars ++ ['>']))

theorem attrReadChars_read (a : Attr) : attrReadChars a.read = a.chars := by
  cases a <;> rfl

theorem written_read (name : List Char) (attrs : List Attr) :
    TagRead.written ⟨name, attrs.map Attr.read⟩ = '<' :: (name ++ (attrChars attrs ++ ['>'])) := by
  have hattrs : (attrs.map Attr.read).flatMap attrReadChars = attrChars attrs := by
    rw [List.flatMap_map]
    exact congrArg (fun f => attrs.flatMap f) (funext attrReadChars_read)
  exact congrArg (fun cs => '<' :: (name ++ (cs ++ ['>']))) hattrs

mutual

theorem Html.written_within : ∀ h : Html, ∀ t ∈ h.tags, t.written <:+: h.chars
  | .doctype => fun t ht => by
    obtain rfl := List.mem_singleton.1 ht
    exact List.infix_refl _
  | .text _ => fun _ ht => absurd ht nofun
  | .attrText _ => fun _ ht => absurd ht nofun
  | .raw _ => fun _ ht => absurd ht nofun
  | .charRef _ => fun _ ht => absurd ht nofun
  | .void tag attrs => fun t ht => by
    obtain rfl := List.mem_singleton.1 ht
    have hwritten : (tag.start attrs).written = (Html.void tag attrs).chars := written_read _ attrs
    exact hwritten ▸ List.infix_refl _
  | .element tag attrs content => fun t ht => by
    rw [Html.chars_element]
    simp only [Html.tags, List.mem_cons, List.mem_append, List.not_mem_nil, or_false] at ht
    rcases ht with rfl | ht | rfl
    · rw [Tag.start, written_read]
      refine ⟨[], charsOf content ++ '<' :: '/' :: (tag.name.toList ++ ['>']), ?_⟩
      simp only [List.append_assoc, List.cons_append, List.nil_append]
    · refine (written_withinOf content t ht).trans
        ⟨'<' :: (tag.name.toList ++ (attrChars attrs ++ ['>'])),
          '<' :: '/' :: (tag.name.toList ++ ['>']), ?_⟩
      simp only [List.append_assoc, List.cons_append, List.nil_append]
    · refine ⟨'<' :: (tag.name.toList ++ (attrChars attrs ++ '>' :: charsOf content)), [], ?_⟩
      simp only [TagRead.written, Tag.stop, List.flatMap_nil, List.append_assoc, List.cons_append,
        List.nil_append, List.append_nil]

/-- Every tag of a markup stands in what is written. -/
theorem written_withinOf : ∀ m : List Html, ∀ t ∈ tagsOf m, t.written <:+: charsOf m
  | [] => fun _ ht => absurd ht nofun
  | h :: hs => fun t ht => by
    rcases List.mem_append.1 ht with ht | ht
    · exact (Html.written_within h t ht).trans (List.infix_append' [] _ _)
    · exact (written_withinOf hs t ht).trans (List.suffix_append _ _).isInfix

end

end DocPress
