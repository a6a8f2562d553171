import DocPress.Proofs.DrawnInline
import DocPress.Proofs.Ids
import DocPress.Proofs.ReferenceDepth

/-! The inline nodes that a page shows, and what is read off the ids in running text: the rules of a
kind show the text of a node or leave it out, and print ids of spans, anchors and footnotes only. A
reference without a text shows words that are not in the tree. -/

namespace DocPress

set_option autoImplicit false

/-! ### Shown nodes of running text -/

/-- Whether an inline node shows its text. Terms of an index may be hidden, and the text of a
footnote stands with its definition. -/
def NodeData.showsText (d : NodeData) : Bool :=
  match d.kind with
  | .inlineQuoted | .inlineBreak | .inlineButton => true
  | .inlineAnchor => d.variant == some "xref" || d.variant == some "link"
  | .inlineFootnote => d.variant == some "xref" && (d.attr? indexName).isNone
  | .inlineIndexterm => d.variant == some "visible"
  | _ => false

namespace Node

mutual

/-- An inline node and those that its text shows, in the order of the page. -/
def shown : Node → List NodeData
  | ⟨d, _, text, _, _, _, _⟩ => d :: if d.showsText then shownOpt text else []

def shownAll : List Node → List NodeData
  | [] => []
  | n :: ns => shown n ++ shownAll ns

def shownOpt : Option (List Node) → List NodeData
  | none => []
  | some ns => shownAll ns

end

end Node

variable {α : Type} (r : IdReading α)

namespace Inline

/-! ### Inline templates -/

variable (d : NodeData) (content : Markup)

/-- The ids of the box around the mark of a footnote. -/
def boxIds : List (List Char) :=
  (d.id.map fun i => Text.escapedAttribute ("_footnote_" ++ i).toList).toList

def linkStart : TagRead :=
  Tag.a.start (attr .href (d.target.getD "") ::
    (d.idAttrs ++ d.roleAttrs ++ optAttr .title (d.attr? "title") ++ d.linkAttrs))

def markStart (index : String) : TagRead := Tag.a.start (markId index :: noteAttrs index)

theorem read_around {v : String} {before after : Markup} (h : quotesOf v = .around before after) :
    r.read before = [] ∧ r.read after = [] := by
  unfold quotesOf at h
  split at h <;> cases h <;> exact ⟨by simp, by simp⟩

theorem read_quoted : r.read (quoted d content) = r.ofIds d.idValues ++ r.read content := by
  simp only [quoted]
  split
  · rename_i tag hq
    simp [quotesOf_tag hq]
  · rename_i before after hq
    obtain ⟨hbefore, hafter⟩ := read_around r hq
    split
    · rename_i hattrs
      have hids : d.idValues = [] := by
        rw [← attrIds_idAttrs, (List.append_eq_nil_iff.1 (List.isEmpty_iff.1 hattrs)).1]
        rfl
      simp [hbefore, hafter, hids]
    · simp [hbefore, hafter]

theorem read_pathLink (path : String) : r.read (pathLink d path content) = r.read content := by
  simp [pathLink]

theorem read_refLink : r.read (refLink d content) = r.read content := by
  simp [refLink]

theorem read_link : r.read (link d content) = r.ofTag (linkStart d) ++ r.read content := by
  rw [link, r.read_tagged, r.read_nil, List.append_nil]
  rfl

theorem read_anchorAt : r.read (anchorAt d) = r.ofTag (Tag.a.start d.idAttrs) := by
  rw [anchorAt, r.read_tagged]
  simp

theorem read_bibAnchor : r.read (bibAnchor d) = r.ofTag (Tag.a.start d.idAttrs) := by
  simp [bibAnchor, read_anchorAt]

theorem read_footnoteRef (index : String) : r.read (footnoteRef index) = [] := by
  simp [footnoteRef, footnoteLink]

theorem read_footnoteMark (index : String) :
    r.read (footnoteMark d index) = r.ofIds (boxIds d) ++ r.ofTag (markStart index) := by
  have hlink : footnoteLink [.value .id [.escaped "_footnoteref_", .raw index]] index =
      .element .a (markId index :: noteAttrs index) [.raw index] := rfl
  have hbox : attrIds (attr .classes "footnote" :: optAttr .id (d.id.map ("_footnote_" ++ ·))) =
      boxIds d := by
    rw [attrIds_attr, attrIds_optAttr, Option.map_map]
    rfl
  rw [footnoteMark, hlink, r.read_element (by decide), hbox, r.read_text, r.read_tagged]
  simp [markStart]

theorem read_unresolvedFootnote : r.read (unresolvedFootnote content) = r.read content := by
  simp [unresolvedFootnote]

theorem read_linked : r.read (linked d content) = r.read content := by
  unfold linked
  split <;> simp

theorem read_plainImage (uri alt : String) (dimensions : List Attr) :
    r.read (plainImage uri alt dimensions) = r.ofIds (attrIds dimensions) := by
  simp [plainImage]

variable (s : Scene)

theorem read_picture {dimensions : List Attr} (h : attrIds dimensions = []) :
    r.read (picture s d dimensions).value = [] := by
  simp only [picture]
  split
  · simp only [Rendered.value_bind]
    split <;> simp
  · split
    · split <;> simp [read_plainImage, h]
    · simp [read_plainImage, h]

theorem read_icon {dimensions : List Attr} (h : attrIds dimensions = []) :
    r.read (icon s d dimensions) = [] := by
  simp only [icon]
  split
  · simp
  · split <;> simp [read_plainImage, h]

theorem read_image : r.read (image s d).value = [] := by
  simp only [image]
  split <;> simp [read_linked, read_icon, read_picture]

theorem read_callout : r.read (callout s d) = [] := by
  simp only [callout]
  split
  · simp
  · split
    · simp
    · split <;> simp

theorem read_keyboard : r.read (keyboard d) = [] := by
  simp only [keyboard]
  split
  · simp
  · simp
  · simp [r.read_intersperse, r.read_map]

theorem read_menu : r.read (menu s d) = [] := by
  have hcaret : r.read (caret s) = [] := by
    simp only [caret]
    split <;> simp
  simp only [menu]
  split <;> simp [r.read_intercalate hcaret, hcaret]

end Inline

open Inline

/-! ### Running text -/

/-- What is read off the ids that an inline node prints itself: those of a span, of an anchor, and
of the box and the mark of a footnote. -/
def NodeData.read (d : NodeData) : List α :=
  match d.kind with
  | .inlineQuoted => r.ofIds d.idValues
  | .inlineAnchor =>
    match d.variant with
    | some "ref" | some "bibref" => r.ofTag (Tag.a.start d.idAttrs)
    | some "link" => r.ofTag (linkStart d)
    | _ => []
  | .inlineFootnote =>
    match d.attr? indexName, d.variant == some "xref" with
    | some index, false => r.ofIds (boxIds d) ++ r.ofTag (markStart index)
    | _, _ => []
  | _ => []

/-- Whether nothing is read off the words that references among the nodes borrow. -/
def Wording.Silent (w : Wording) (ns : List Node) : Prop :=
  ∀ n ∈ ns, Reference.isBare n = true → r.read (w n.data (refIdOf n.data)).value = []

section Text

variable {r} {s : Scene} {w : Wording}

theorem Wording.Silent.of_subset {ms ns : List Node} (h : Wording.Silent r w ns) (hm : ms ⊆ ns) :
    Wording.Silent r w ms := fun n hn => h n (hm hn)

mutual

theorem read_inline : ∀ n : Node, Wording.Silent r w n.walk →
    r.read (inlineAs s w n.kind n).value = n.shown.flatMap (NodeData.read r)
  | ⟨d, title, text, items, entries, blocks, table⟩ => fun hw => by
    let n : Node := ⟨d, title, text, items, entries, blocks, table⟩
    have htext : Wording.Silent r w (Node.walkOpt text) := hw.of_subset fun m hm => by
      simp [Node.walk, hm]
    have hcontent := read_inlineContent d text htext
    have hor := read_inlineOr text htext
    change r.read (inlineAs s w d.kind n).value = n.shown.flatMap _
    -- Only anchors, footnotes and terms of the index look at more than their kind.
    cases hk : d.kind
    case inlineAnchor =>
      simp only [n, inlineAs]
      split
      · rename_i hv
        cases hp : d.attr? "path" with
        | some path =>
          simp [Node.shown, NodeData.read, NodeData.showsText, hk, hv, read_pathLink, hor]
        | none =>
          have hwords : text.any (!·.isEmpty) = false → r.read (w d (refIdOf d)).value = [] := by
            intro hblank
            refine hw n (Node.mem_walk_self n) ?_
            simp [n, Reference.isBare, Node.kind, Node.variant, Node.attr?, Node.hasText, hk, hv,
              hp, hblank]
          simp [Node.shown, NodeData.read, NodeData.showsText, hk, hv, read_refLink,
            hor _ hwords]
      · rename_i hv
        simp [Node.shown, NodeData.read, NodeData.showsText, hk, hv, read_anchorAt]
      · rename_i hv
        simp [Node.shown, NodeData.read, NodeData.showsText, hk, hv, read_link, hor]
      · rename_i hv
        simp [Node.shown, NodeData.read, NodeData.showsText, hk, hv, read_bibAnchor]
      · rename_i other hxref href hlink hbibref hv
        simp_all [Node.shown, NodeData.read, NodeData.showsText, Rendered.warn]
      · rename_i hv
        simp [Node.shown, NodeData.read, NodeData.showsText, hk, hv, Rendered.warn]
    case inlineFootnote =>
      have hb : (d.variant == some "xref") = decide (d.variant = some "xref") :=
        beq_eq_decide _ _
      by_cases hv : d.variant = some "xref" <;> cases hi : d.attr? indexName <;>
        simp [n, inlineAs, Node.shown, NodeData.read, NodeData.showsText,
          hk, hb, hv, hi, read_unresolvedFootnote, hcontent, read_footnoteRef,
          read_footnoteMark]
    case inlineIndexterm =>
      by_cases hv : d.variant = some "visible" <;>
        simp [n, inlineAs, Node.shown, NodeData.read, NodeData.showsText,
          hk, hv, hcontent]
    all_goals
      simp [n, inlineAs, Node.shown, NodeData.read, NodeData.showsText,
        hk, hcontent, Rendered.warn, read_quoted, read_callout, read_image,
        read_keyboard, read_menu]

theorem read_inlines : ∀ ns : List Node, Wording.Silent r w (Node.walkAll ns) →
    r.read (inlines s w ns).value = (Node.shownAll ns).flatMap (NodeData.read r)
  | [] => fun _ => rfl
  | n :: ns => fun hw => by
    have hn := read_inline n (hw.of_subset (List.subset_append_left _ _))
    have hns := read_inlines ns (hw.of_subset (List.subset_append_right _ _))
    simp only [inlines, Rendered.value_bind, Rendered.value_pure, r.read_append, Node.shownAll,
      List.flatMap_append, hn, hns]

theorem read_inlineContent (d : NodeData) : ∀ text : Option (List Node),
    Wording.Silent r w (Node.walkOpt text) →
      r.read (inlineContent s w d text).value = (Node.shownOpt text).flatMap (NodeData.read r)
  | none => fun _ => by simp [inlineContent, Node.shownOpt]
  | some ns => fun hw => by rw [inlineContent, Node.shownOpt, read_inlines ns hw]

theorem read_inlineOr : ∀ text : Option (List Node), Wording.Silent r w (Node.walkOpt text) →
    ∀ other : Rendered Markup, (text.any (!·.isEmpty) = false → r.read other.value = []) →
      r.read (inlineOr s w text other).value = (Node.shownOpt text).flatMap (NodeData.read r)
  | none => fun _ _ h => by rw [inlineOr, h rfl]; rfl
  | some [] => fun _ _ h => by rw [inlineOr, h rfl]; rfl
  | some (n :: ns) => fun hw _ _ => by rw [inlineOr, Node.shownOpt, read_inlines (n :: ns) hw]

end

/-- What is read off a running text with words from outside, nothing if there is no text. -/
theorem read_shownText {ns : Option Inlines} (hw : Wording.Silent r w (Node.walkOpt ns)) :
    r.read (inlines s w (ns.getD [])).value = (Node.shownOpt ns).flatMap (NodeData.read r) := by
  cases ns with
  | none => rfl
  | some ns => exact read_inlines ns hw

end Text

/-! ### Words of references -/

namespace Reference

variable {r} {s : Scene} {t : RefTarget} {title : Option Markup} {x : α}

theorem read_bracketed (id : String) : r.read (bracketed s id) = [] := by
  unfold bracketed
  split <;> simp

theorem plainWording_silent (ns : List Node) : Wording.Silent r (plainWording s) ns :=
  fun _ _ _ => read_bracketed _

theorem read_basic (sectname : String) (m : Markup) : r.read (basic sectname m) = r.read m := by
  unfold basic
  split <;> simp

theorem read_quotedTitle (sectname : String) (m : Markup) :
    r.read (quotedTitle sectname m) = r.read m := by
  unfold quotedTitle
  split <;> simp

theorem read_signed (sectname sectnum : String) : r.read (signed s sectname sectnum) = [] := by
  simp only [signed]
  split <;> simp

theorem mem_sectionWords {style : Option String} {m : Markup}
    (hm : sectionWords s t style title = some m) (hx : x ∈ r.read m) :
    ∃ k, title = some k ∧ x ∈ r.read k := by
  have hbasic : ∀ sectname, title.map (basic sectname) = some m →
      ∃ k, title = some k ∧ x ∈ r.read k := by
    intro sectname h
    obtain ⟨k, hk, rfl⟩ := Option.map_eq_some_iff.1 h
    exact ⟨k, hk, by rwa [read_basic] at hx⟩
  simp only [sectionWords] at hm
  split at hm
  · exact ⟨m, hm, hx⟩
  · exact hbasic _ hm
  · obtain rfl := Option.some.inj hm
    rw [r.read_append, read_signed, r.read_text, read_quotedTitle] at hx
    cases title with
    | none => exact absurd hx List.not_mem_nil
    | some k => exact ⟨k, rfl, hx⟩
  · obtain rfl := Option.some.inj hm
    rw [read_signed] at hx
    exact absurd hx List.not_mem_nil
  · exact hbasic _ hm

theorem mem_captionWords {style : Option String} {m : Markup}
    (hm : captionWords t style title = some m) (hx : x ∈ r.read m) :
    ∃ k, title = some k ∧ x ∈ r.read k := by
  unfold captionWords at hm
  split at hm
  · obtain rfl := Option.some.inj hm
    exact ⟨_, rfl, by simpa using hx⟩
  · obtain rfl := Option.some.inj hm
    exact absurd hx (by simp)
  · exact ⟨m, hm, hx⟩

theorem mem_offered {style : Option String} {m : Markup}
    (hm : (offered s t style).value = some m) (hx : x ∈ r.read m) :
    x ∈ (Node.shownOpt t.title).flatMap (NodeData.read r) := by
  unfold offered at hm
  split at hm
  · obtain rfl := Option.some.inj hm
    exact absurd hx (by simp)
  · have hwords : ∀ title : Option Markup, (if t.kind = .section then sectionWords s t style title
        else captionWords t style title) = some m → ∃ k, title = some k ∧ x ∈ r.read k := by
      intro title h
      split at h
      · exact mem_sectionWords h hx
      · exact mem_captionWords h hx
    cases htitle : t.title with
    | none =>
      rw [htitle] at hm
      obtain ⟨_, hk, _⟩ := hwords none hm
      cases hk
    | some ns =>
      rw [htitle] at hm
      obtain ⟨k, hk, hx⟩ := hwords _ hm
      obtain rfl := Option.some.inj hk
      rwa [read_inlines ns (plainWording_silent _)] at hx

/-- What is read off borrowed words is of nodes that the title of the target shows, and stands
outside of their anchors. -/
theorem mem_wordsFor {style : Option String} {id : String}
    (hx : x ∈ r.read (wordsFor s style id).value) : ∃ t, target? s id = some t ∧
      x ∈ (Node.shownOpt t.title).flatMap (NodeData.read r.lent) := by
  unfold wordsFor at hx
  split at hx
  · rw [Rendered.value_pure, read_bracketed] at hx
    exact absurd hx List.not_mem_nil
  · rename_i t ht
    refine ⟨t, ht, ?_⟩
    simp only [Rendered.value_bind] at hx
    split at hx
    · rename_i words hwords
      rw [Rendered.value_pure] at hx
      split at hx
      · rw [read_bracketed] at hx
        exact absurd hx List.not_mem_nil
      · exact mem_offered hwords (r.read_withoutAnchors words hx)
    · rw [Rendered.value_pure, read_bracketed] at hx
      exact absurd hx List.not_mem_nil

end Reference

end DocPress
