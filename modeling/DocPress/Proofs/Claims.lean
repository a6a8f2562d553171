import DocPress.Proofs.FootnoteLinks
import DocPress.Proofs.Sights
import Mathlib.Data.List.Flatten

/-! The ids that nodes claim, and the places of a page: what a place or a text prints is claimed by
the nodes that it stands for, unless a reference lends it or an equation is split within it. -/

namespace DocPress

set_option autoImplicit false

open Inline

/-! ### Ids of one value -/

namespace IdReading

/-- The ids that have the given value. -/
def only (v : List Char) : IdReading (List Char) where
  ofTag t := t.ids.filter (· == v)
  ofIds ids := ids.filter (· == v)
  plain _ _ := rfl
  silent t ht := by rw [ht]; rfl

variable {v : List Char}

theorem read_only (m : Markup) : (only v).read m = (idsIn m).filter (· == v) := by
  rw [idsIn, read, read, List.filter_flatMap]
  rfl

theorem only_start (tag : Tag) (attrs : List Attr) :
    (only v).ofTag (tag.start attrs) = (attrIds attrs).filter (· == v) := by
  have hids : (tag.start attrs).ids = attrIds attrs := ids_read _ attrs
  simp only [only, hids]

theorem read_only_of_not_mem {m : Markup} (h : v ∉ idsIn m) : (only v).read m = [] := by
  rw [read_only, List.filter_eq_nil_iff]
  intro id hid heq
  exact h (eq_of_beq heq ▸ hid)

/-- A value without line ends comes out of a split exactly where it goes in. -/
theorem filter_splitValue (h : '\n' ∉ v) (pieces : List Piece) :
    [Equation.splitValue pieces].filter (· == v) =
      [pieces.flatMap Piece.chars].filter (· == v) := by
  by_cases hline : '\n' ∈ pieces.flatMap Piece.chars
  · have hother : ∀ w : List Char, '\n' ∈ w → [w].filter (· == v) = [] := by
      intro w hw
      have hne : w ≠ v := fun heq => h (heq ▸ hw)
      simp [hne]
    rw [hother _ hline, hother _ (Equation.newline_mem_splitValue hline)]
  · rw [Equation.splitValue_eq_of_no_newline hline]

theorem keepsSplit_only (h : '\n' ∉ v) : (only v).KeepsSplit := by
  intro name attrs
  have hattr : ∀ a : Attr, (Equation.splitAttr Equation.ascii a).ids.filter (· == v) =
      a.ids.filter (· == v) := by
    intro a
    cases a with
    | flag _ => rfl
    | value n pieces =>
      simp only [Equation.splitAttr, Attr.ids]
      split
      · exact filter_splitValue h pieces
      · rfl
  have hids : ∀ as : List Attr,
      (only v).ofTag ⟨name, as.map Attr.read⟩ = (attrIds as).filter (· == v) := by
    intro as
    simp only [only, ids_read]
  rw [hids, hids, attrIds, attrIds, List.filter_flatMap, List.filter_flatMap, splitAttrs,
    List.flatMap_map]
  exact congrArg (fun f => attrs.flatMap f) (funext hattr)

end IdReading

/-! ### Claims -/

namespace NodeData

/-- The id of the mark that a node makes. -/
def markIds (d : NodeData) : List (List Char) := d.markNumber?.toList.map markIdOf

/-- The ids that a node may print: its own, and those of the box and the mark of a footnote. -/
def claims (d : NodeData) : List (List Char) := d.idValues ++ (boxIds d ++ d.markIds)

theorem idValues_claimed (d : NodeData) : d.idValues.Sublist d.claims :=
  List.sublist_append_left _ _

theorem attrIds_mark (index : String) :
    attrIds (markId index :: noteAttrs index) = [markIdOf index.toList] := by
  have hnote : attrIds (noteAttrs index) = [] := by simp [noteAttrs]
  rw [markId, attrIds_value, chars_raw_behind, hnote, List.append_nil]
  rfl

/-- The ids that a node claims, as far as they have the given value. -/
def claimsOf (v : List Char) (d : NodeData) : List (List Char) := d.claims.filter (· == v)

/-- An inline node prints no other ids than it claims. -/
theorem read_claimed (v : List Char) (d : NodeData) :
    (d.read (.only v)).Sublist (d.claimsOf v) := by
  have hclaim : ∀ {ids : List (List Char)}, ids.Sublist d.claims →
      (ids.filter (· == v)).Sublist (d.claimsOf v) := fun h => h.filter _
  unfold NodeData.read
  cases hk : d.kind
  case inlineQuoted => exact hclaim d.idValues_claimed
  case inlineAnchor =>
    simp only
    split
    · rw [IdReading.only_start, attrIds_idAttrs]
      exact hclaim d.idValues_claimed
    · rw [IdReading.only_start, attrIds_idAttrs]
      exact hclaim d.idValues_claimed
    · have hids : attrIds (attr .href (d.target.getD "") ::
          (d.idAttrs ++ d.roleAttrs ++ optAttr .title (d.attr? "title") ++ d.linkAttrs)) =
          d.idValues := by simp
      rw [linkStart, IdReading.only_start, hids]
      exact hclaim d.idValues_claimed
    · exact List.nil_sublist _
  case inlineFootnote =>
    simp only
    split
    · rename_i index hi hv
      have hmark : d.markIds = [markIdOf index.toList] := by
        have hother : d.variant ≠ some "xref" := by simpa using hv
        simp [markIds, markNumber?, hk, hi, hother]
      rw [markStart, IdReading.only_start, attrIds_mark, ← hmark]
      have hboth := hclaim (List.sublist_append_right d.idValues (boxIds d ++ d.markIds))
      rwa [List.filter_append] at hboth
    · exact List.nil_sublist _
  all_goals exact List.nil_sublist _

end NodeData

def claimsIn (v : List Char) (ds : List NodeData) : List (List Char) :=
  ds.flatMap (NodeData.claimsOf v)

theorem claimsIn_within (v : List Char) {a b : List NodeData} (h : a.Sublist b) :
    (claimsIn v a).Sublist (claimsIn v b) := h.flatMap _

/-! ### Texts -/

namespace Node

mutual

/-- The nodes that an inline node shows are among those below it, in their order. -/
theorem shown_within : ∀ n : Node, n.shown.Sublist (n.walk.map Node.data)
  | ⟨d, title, text, items, entries, blocks, table⟩ => by
    have htext := shownOpt_within text
    rw [shown, walk_data]
    refine List.Sublist.cons_cons _ ?_
    split
    · refine htext.trans ?_
      simp only [List.append_assoc]
      exact (List.sublist_append_left _ _).trans (List.sublist_append_right _ _)
    · exact List.nil_sublist _

theorem shownAll_within : ∀ ns : List Node, (shownAll ns).Sublist (dataOf ns)
  | [] => List.nil_sublist _
  | n :: ns => by
    rw [shownAll, dataOf, walkAll, List.map_append]
    exact (shown_within n).append (shownAll_within ns)

theorem shownOpt_within : ∀ ns : Option (List Node), (shownOpt ns).Sublist (dataOf? ns)
  | none => List.nil_sublist _
  | some ns => shownAll_within ns

end

end Node

section

variable {v : List Char} {s : Scene}

/-- A text prints no ids of the value but those that its nodes claim, if none is borrowed. -/
theorem text_claimed {ns : Option Inlines}
    (hw : Wording.Silent (.only v) (Reference.wording s) (Node.walkOpt ns)) :
    ((IdReading.only v).text s ns).Sublist (claimsIn v (dataOf? ns)) := by
  rw [IdReading.text, runningText, read_shownText hw]
  exact (List.Sublist.flatMap_right _ fun d _ => d.read_claimed v).trans
    (claimsIn_within v (Node.shownOpt_within ns))

theorem equation_claimed {n : Node}
    (hsplit : Block.stemStyle s n.data = "asciimath" → '\n' ∈ v →
      v ∉ IdReading.all.equation s n)
    (hw : Wording.Silent (.only v) (Reference.wording s) (Node.walkOpt n.text)) :
    ((IdReading.only v).equation s n).Sublist (claimsIn v (dataOf? n.text)) := by
  have htext := text_claimed hw
  rw [← Block.read_verbatim] at htext
  by_cases hstyle : Block.stemStyle s n.data = "asciimath"
  · by_cases hline : '\n' ∈ v
    · rw [IdReading.equation, IdReading.read_only_of_not_mem (hsplit hstyle hline)]
      exact List.nil_sublist _
    · have hascii : Block.equations "asciimath" (Block.verbatim s n).value =
          Equation.delimit Equation.ascii (Equation.split Equation.ascii
            (Block.verbatim s n).value) := rfl
      rwa [IdReading.equation, hstyle, hascii, IdReading.read_delimit,
        IdReading.read_split _ (IdReading.keepsSplit_only hline)]
  · rwa [IdReading.equation, Block.equations, if_neg hstyle, IdReading.read_delimit]

end

/-! ### Listings -/

section

variable {α : Type} (r : IdReading α) {s : Scene}

theorem CodeTags.read_wrap {tags : CodeTags} (h : tags.Known) (content : Markup) :
    r.read (tags.wrap content) = r.read content := by
  have hattrs : ∀ {list : AttrList}, NamesKnown list → attrIds (attrsOf list) = [] := by
    intro list hlist
    rw [attrIds, List.flatMap_eq_nil_iff]
    intro a ha
    obtain ⟨e, he, rfl⟩ := List.mem_map.1 ha
    have hname : (AttrName.custom e.1).isId = false := by
      rw [AttrName.isId, beq_eq_false_iff_ne]
      rintro hid
      exact absurd (hid ▸ hlist e he) (by simp [codeNames])
    simp [attr, Attr.ids, hname]
  simp [wrap, hattrs h.pre, hattrs (namesKnown_langLast h.code)]

/-- A plain highlighter leaves the ids of a listing or takes them out. -/
theorem listing_within (hh : ∀ h, s.highlighter = some h → s.PlainHighlighter h) {n : Node}
    (hn : s.doc.Holds n) (hk : n.kind = .listing) :
    (r.listing s n).Sublist (r.text s n.text) := by
  rw [IdReading.listing, ← Block.read_verbatim, Block.listingBody]
  split
  · rename_i hstyle
    split
    · rename_i h hs
      rcases hh h hs with rfl | ⟨name, rfl⟩ | hinert
      · obtain ⟨tags, hknown, hformat⟩ := HighlightJs.format_eq n (n.attr? "language")
          (Block.listingStyle s HighlightJs.highlighter (Block.isNowrap s n.data))
        rw [show HighlightJs.highlighter.format = HighlightJs.format from rfl, hformat,
          CodeTags.read_wrap r hknown]
      · rw [show (Highlighter.ofName name).format = Highlighter.plainFormat name from rfl,
          Highlighter.plainFormat, CodeTags.read_wrap r (.new _ _ _)]
      · rw [IdReading.read, tagsOf_of_inert (hinert.format n hn hk hstyle)]
        exact List.nil_sublist _
    · cases n.attr? "language" <;> simp [Block.plainSource]
  · rw [Block.read_preformatted]

end

/-! ### Pages -/

/-- Whether ids of the value are printed for the nodes alone that claim them: no reference borrows
one, no split makes one, and highlighters add none. -/
structure Scene.Unborrowed (s : Scene) (v : List Char) : Prop where
  words : Wording.Silent (.only v) (Reference.wording s) s.doc.registered
  split : ∀ n, .equation n ∈ s.doc.sights → Block.stemStyle s n.data = "asciimath" → '\n' ∈ v →
    v ∉ IdReading.all.equation s n
  highlighter : ∀ h, s.highlighter = some h → s.PlainHighlighter h

section

variable {s : Scene} {v : List Char}

theorem Document.blocks_registered (d : Document) :
    Node.walkAll d.root.blocks ⊆ d.registered := fun n hn => by
  refine List.mem_append_right _ ?_
  rw [Node.walk_eq]
  simp [hn]

theorem Sight.read_claimed (h : s.Unborrowed v) {x : Sight} (hx : x ∈ s.doc.sights) :
    (x.read (.only v) s).Sublist (claimsIn v (x.nodes.map Node.data)) := by
  have hwords : Wording.Silent (.only v) (Reference.wording s) x.nodes :=
    h.words.of_subset fun n hn => s.doc.blocks_registered
      (s.doc.sights_covered.nodes.subset (List.mem_flatMap.2 ⟨x, hx, hn⟩))
  have hown : ∀ n : Node, x.nodes = [n] →
      (n.data.idValues.filter (· == v)).Sublist (claimsIn v (x.nodes.map Node.data)) := by
    intro n hn
    rw [hn, List.map_singleton, claimsIn, List.flatMap_singleton]
    exact n.data.idValues_claimed.filter _
  cases x with
  | text ns => exact text_claimed hwords
  | equation n => exact equation_claimed (h.split n hx) hwords
  | listing n =>
    obtain ⟨hk, hn⟩ := s.doc.sights_covered.listing n hx
    have hheld : s.doc.Holds n := .tree (by rw [Node.walk_eq]; simp [hn])
    exact (listing_within _ h.highlighter hheld hk).trans (text_claimed hwords)
  | block parent n =>
    rw [Sight.read_block]
    split
    · exact hown n rfl
    · exact List.nil_sublist _
  | item n => exact hown n rfl
  | calloutItem n => exact List.nil_sublist _
  | term n => exact List.nil_sublist _
  | description n => exact List.nil_sublist _

/-- The nodes of the header title are those of the title that a page shows. -/
theorem Document.registered_eq (d : Document) :
    d.registered = Node.walkOpt d.title? ++ d.root.walk := by
  unfold registered title?
  cases d.header with
  | none => rfl
  | some header =>
    simp only [Option.map_some, Option.getD_some]
    split
    · rename_i hempty
      rw [List.isEmpty_iff.1 hempty]
      rfl
    · rfl

end

end DocPress
