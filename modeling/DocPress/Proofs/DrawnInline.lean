import DocPress.Block.Verbatim
import DocPress.Proofs.Drawn
import DocPress.Proofs.Walk

/-! Running text is drawn from its nodes: footnotes make the marks, and a reference marks nothing,
whatever words it borrows. -/

namespace DocPress

set_option autoImplicit false

variable {P Q : Palette} {s : Scene}

/-- What the routines insert of a node unescaped is in the palette, and the highlighter draws its
listing. -/
structure Node.Supplied (s : Scene) (P : Palette) (n : Node) : Prop where
  id : ∀ i, n.id = some i → P.id i
  pass : n.kind = .pass → ∀ x, n.source = some x → P.text x
  guard : n.kind = .inlineCallout → ∀ x, n.attributes.get? "guard" = some (.text x) → P.text x
  index : n.kind = .inlineFootnote → ∀ x, n.attr? indexName = some x → P.number x
  sectnum : n.kind = .section → ∀ x, n.sectnum = some x → P.text x
  svg : n.kind = .image ∨ n.kind = .inlineImage → n.hasOption "inline" = true →
    ∀ x, (Svg.read s n.data (n.target.getD "")).value = some x → P.text x
  listing : n.kind = .listing → n.style = some "source" → ∀ h, s.highlighter = some h →
    ∀ ds content, (Block.verbatim s n).value = content → Drawn P.page ds content →
      Drawn P.page ds (h.format n (n.attr? "language") content
        (Block.listingStyle s h (Block.isNowrap s n.data)))

abbrev SuppliedAll (s : Scene) (P : Palette) (ns : List Node) : Prop := ∀ n ∈ ns, n.Supplied s P

/-- The SVG that a picture inserts, if any. -/
def Inline.pictureSvg? (s : Scene) (d : NodeData) : Option String :=
  if Svg.isSvg d (d.target.getD "") && d.hasOption "inline" then
    (Svg.read s d (d.target.getD "")).value
  else none

/-- The SVG that an image in running text inserts; an icon inserts none. -/
def Inline.imageSvg? (s : Scene) (d : NodeData) : Option String :=
  if d.variant = some "icon" then none else pictureSvg? s d

/-- What running text inserts of a node unescaped is in the palette. -/
structure Node.SuppliedInText (s : Scene) (P : Palette) (n : Node) : Prop where
  id : ∀ i, n.id = some i → P.id i
  guard : n.kind = .inlineCallout → ∀ x, n.attributes.get? "guard" = some (.text x) → P.text x
  index : n.kind = .inlineFootnote → ∀ x, n.attr? indexName = some x → P.number x
  svg : n.kind = .inlineImage → ∀ x, Inline.imageSvg? s n.data = some x → P.text x

abbrev SuppliedInText (s : Scene) (P : Palette) (ns : List Node) : Prop :=
  ∀ n ∈ ns, n.SuppliedInText s P

theorem Inline.pictureSvg?_read {d : NodeData} {x : String} (h : pictureSvg? s d = some x) :
    d.hasOption "inline" = true ∧ (Svg.read s d (d.target.getD "")).value = some x := by
  unfold pictureSvg? at h
  split at h
  · rename_i hinline
    exact ⟨(Bool.and_eq_true_iff.1 hinline).2, h⟩
  · exact absurd h nofun

theorem Node.Supplied.inText {n : Node} (h : n.Supplied s P) : n.SuppliedInText s P where
  id := h.id
  guard := h.guard
  index := h.index
  svg hk x hx := by
    unfold Inline.imageSvg? at hx
    split at hx
    · exact absurd hx nofun
    · obtain ⟨hinline, hread⟩ := Inline.pictureSvg?_read hx
      exact h.svg (.inr hk) hinline x hread

theorem SuppliedAll.inText {ns : List Node} (h : SuppliedAll s P ns) : SuppliedInText s P ns :=
  fun n hn => (h n hn).inText

/-- The data of nodes and of all their descendants in document order. -/
abbrev dataOf (ns : List Node) : List NodeData := (Node.walkAll ns).map Node.data

abbrev dataOf? (ns : Option (List Node)) : List NodeData := (Node.walkOpt ns).map Node.data

/-! ### Groups of children -/

namespace Node

theorem walk_data (n : Node) :
    n.walk.map Node.data = n.data :: (dataOf? n.title ++ dataOf? n.text ++ dataOf n.items ++
      (walkEntries n.entries).map Node.data ++ dataOf n.blocks ++
      (walkTable n.table).map Node.data) := by
  rw [walk_eq]
  simp only [List.map_cons, List.map_append]

theorem self_within (n : Node) : [n.data].Sublist (n.walk.map Node.data) := by
  rw [walk_data]
  exact List.Sublist.cons_cons _ (List.nil_sublist _)

theorem text_within (n : Node) : (dataOf? n.text).Sublist (n.walk.map Node.data) := by
  rw [walk_data]
  refine List.Sublist.cons _ ?_
  simp only [List.append_assoc]
  exact (List.sublist_append_left _ _).trans (List.sublist_append_right _ _)

end Node

namespace Inline

variable {ds : List NodeData} {content : Markup}

/-! ### Quotes and links -/

theorem quotesOf_tag {v : String} {tag : Tag} (h : quotesOf v = .tag tag) : tag ≠ .a := by
  unfold quotesOf at h
  split at h <;> cases h <;> decide

theorem quotesOf_around {v : String} {before after : Markup}
    (h : quotesOf v = .around before after) : Drawn P [] before ∧ Drawn P [] after := by
  unfold quotesOf at h
  split at h <;> cases h <;> first
    | exact ⟨.charRef _, .charRef _⟩
    | exact ⟨.text _, .text _⟩
    | exact ⟨.nil, .nil⟩

theorem quoted_drawn {d : NodeData} (hid : ∀ i, d.id = some i → P.id i)
    (h : Drawn P ds content) : Drawn P ds (quoted d content) := by
  have hattrs : OrdinaryAttrs P (d.idAttrs ++ d.roleAttrs) := by simpa using hid
  simp only [quoted]
  split
  · rename_i tag hq
    exact .box hattrs (quotesOf_tag hq) h
  · rename_i before after hq
    obtain ⟨hbefore, hafter⟩ := quotesOf_around (P := P) hq
    have hinner : Drawn P ds (before ++ content ++ after) := by
      simpa using (hbefore.append h).append hafter
    split
    · exact hinner
    · exact .box hattrs (by decide) hinner

theorem linkHead_id (d : NodeData) : LinkHead d.idAttrs := by
  unfold NodeData.idAttrs optAttr
  cases d.id with
  | none => exact .nil
  | some i => exact .id i

theorem pathLink_drawn {d : NodeData} {path : String} (h : Drawn P ds content) :
    Drawn P ds (pathLink d path content) :=
  .link (by simp) (.href _ _) h

theorem refLink_drawn {d : NodeData} (h : Drawn P ds content) : Drawn P ds (refLink d content) :=
  .link (by simp) (.href _ _) h

theorem link_drawn {d : NodeData} (hid : ∀ i, d.id = some i → P.id i) (h : Drawn P ds content) :
    Drawn P ds (link d content) :=
  .link (by simpa using hid) (.href _ _) h

theorem anchorAt_drawn {d : NodeData} (hid : ∀ i, d.id = some i → P.id i) :
    Drawn P [] (anchorAt d) :=
  .link (by simpa using hid) (linkHead_id d) .nil

theorem bibAnchor_drawn {d : NodeData} (hid : ∀ i, d.id = some i → P.id i) :
    Drawn P [] (bibAnchor d) :=
  (anchorAt_drawn hid).append (.text _)

theorem labelled {tag : Tag} {attrs : List Attr} (h : OrdinaryAttrs P attrs) (ht : tag ≠ .a)
    (v : String) : Drawn P [] [.element tag attrs [.text v]] :=
  .box h ht (.text v)

theorem callout_drawn {d : NodeData}
    (hguard : ∀ x, d.attributes.get? "guard" = some (.text x) → P.text x) :
    Drawn P [] (callout s d) := by
  have hlabel : ∀ v, Drawn P [] [.element .b [attr .classes "conum"] [.text v]] :=
    labelled (by simp) (by decide)
  simp only [callout]
  split
  · exact .cons (.box (by simp) (by decide) .nil) (labelled (by simp) (by decide) _)
  · split
    · exact .void (by simp)
    · split
      · exact .cons (.text _) (.cons (hlabel _) (.text _))
      · rename_i guard hg
        exact .cons (.raw (hguard guard hg)) (hlabel _)
      · exact hlabel _

/-! ### Footnotes -/

theorem footnoteRef_drawn {index : String} (h : P.number index) :
    Drawn P [] (footnoteRef index) :=
  .box (by simp) (by decide) (.cons (.text _) (.cons (.noteLink h) (.text _)))

theorem footnoteMark_drawn {d : NodeData} {index : String} (h : P.number index)
    (hd : d.markNumber? = some index.toList) : Drawn P [d] (footnoteMark d index) := by
  have hcontent : Drawn P [d]
      (.text "[" ::
        ([.element .a (markId index :: noteAttrs index) [.raw index]] ++ [.text "]"])) :=
    .consLeaf (.text "[") (.concatLeaf (.noteMark h hd) (.text "]"))
  cases hid : d.id with
  | none =>
    rw [footnoteMark, hid]
    exact .box (by simp [optAttr]) (by decide) hcontent
  | some i =>
    rw [footnoteMark, hid]
    exact .noteBox i hcontent

theorem unresolvedFootnote_drawn (h : Drawn P ds content) :
    Drawn P ds (unresolvedFootnote content) :=
  .box (by simp) (by decide) (.consLeaf (.text "[") (.concatLeaf h (.text "]")))

/-! ### Images, icons, keys and menus -/

theorem plainImage_drawn {uri alt : String} {dimensions : List Attr}
    (h : OrdinaryAttrs P dimensions) : Drawn P [] (plainImage uri alt dimensions) :=
  .void (by simpa using h)

theorem picture_drawn {d : NodeData} {dimensions : List Attr} (h : OrdinaryAttrs P dimensions)
    (hsvg : ∀ x, pictureSvg? s d = some x → P.text x) :
    Drawn P [] (picture s d dimensions).value := by
  have halt : Drawn P [] [.element .span [attr .classes "alt"] [.text (altOf d)]] :=
    labelled (by simp) (by decide) _
  simp only [picture]
  split
  · rename_i hinline
    rw [Rendered.value_bind]
    cases hread : (Svg.read s d (d.target.getD "")).value with
    | some svg => exact .raw (hsvg svg (by rw [pictureSvg?, if_pos hinline, hread]))
    | none => exact halt
  · split
    · refine .box (by simpa using h) (by decide) ?_
      cases d.attr? "fallback" with
      | some fallback => exact plainImage_drawn h
      | none => exact halt
    · exact plainImage_drawn h

theorem linked_drawn {d : NodeData} (h : Drawn P ds content) : Drawn P ds (linked d content) := by
  unfold linked
  cases d.attr? "link" with
  | some link => exact .link (by simp) (.box _ _ (by decide)) h
  | none => exact h

theorem icon_drawn {d : NodeData} {dimensions : List Attr} (h : OrdinaryAttrs P dimensions) :
    Drawn P [] (icon s d dimensions) := by
  simp only [icon]
  split
  · exact .box (by simp) (by decide) .nil
  · split
    · exact plainImage_drawn h
    · exact .cons (.text _) (.charRef _)

theorem image_drawn {d : NodeData} (hsvg : ∀ x, imageSvg? s d = some x → P.text x) :
    Drawn P [] (image s d).value := by
  simp only [image]
  split
  · exact .box (by simp) (by decide) (linked_drawn (icon_drawn (by simp)))
  · rename_i htype
    refine .box (by simp) (by decide) (linked_drawn (picture_drawn (by simp) fun x hx => ?_))
    refine hsvg x ?_
    rw [imageSvg?, if_neg fun hicon => htype (by rw [hicon]; rfl), hx]

theorem keyboard_drawn (d : NodeData) : Drawn P [] (keyboard d) := by
  have hkey : ∀ v, Drawn P [] [.element .kbd [] [.text v]] := labelled (by simp) (by decide)
  simp only [keyboard]
  split
  · exact .box (by simp) (by decide) (hkey _)
  · exact hkey _
  · refine .box (by simp) (by decide) (.nodesBetween (.text _) fun x hx => ?_)
    obtain ⟨v, _, rfl⟩ := List.mem_map.1 hx
    exact hkey v

theorem caret_drawn (s : Scene) : Drawn P [] (caret s) := by
  have hmark : Drawn P []
      [if s.fontIcons then .element .i [attr .classes "fa fa-angle-right caret"] []
      else .element .b [attr .classes "caret"] [.charRef 8250]] := by
    split
    · exact .box (by simp) (by decide) .nil
    · exact .box (by simp) (by decide) (.charRef _)
  exact .consLeaf (.charRef _) (.consLeaf hmark (.text _))

theorem menu_drawn (d : NodeData) : Drawn P [] (menu s d) := by
  have hpart : ∀ cls name : String,
      Drawn P [] [.element .b [attr .classes cls] [.text name]] :=
    fun cls name => labelled (by simp) (by decide) name
  simp only [menu]
  split
  · refine .box (by simp) (by decide) (.intercalate (caret_drawn s) (.leaves ?_))
    simp only [List.forall_mem_cons]
    exact ⟨hpart _ _, hpart _ _, nofun⟩
  · exact hpart _ _
  · refine .box (by simp) (by decide) (.intercalate (caret_drawn s) (.leaves fun m hm => ?_))
    rcases List.mem_cons.1 hm with rfl | hm
    · exact hpart _ _
    · rcases List.mem_append.1 hm with hm | hm
      · obtain ⟨name, _, rfl⟩ := List.mem_map.1 hm
        exact hpart _ name
      · obtain rfl := List.mem_singleton.1 hm
        exact hpart _ _

end Inline

/-! ### Running text -/

/-- What the words of references draw. -/
def Worded (Q : Palette) (w : Wording) : Prop := ∀ d id, Drawn Q [] (w d id).value

variable {w : Wording}

open Inline

mutual

theorem inlineAs_drawn (h : Palette.Le P Q) (hw : Worded Q w) : ∀ n : Node,
    SuppliedInText s P n.walk → Drawn Q (n.walk.map Node.data) (inlineAs s w n.data.kind n).value
  | ⟨d, title, text, items, entries, blocks, table⟩ => fun hs => by
    have hself := hs _ (Node.mem_walk_self _)
    have self_within := Node.self_within ⟨d, title, text, items, entries, blocks, table⟩
    have hid : ∀ i, d.id = some i → Q.id i := fun i hi => h.id (hself.id i hi)
    have htext : SuppliedInText s P (Node.walkOpt text) := fun m hm =>
      hs m (by rw [Node.walk_eq]; simp [hm])
    have within := Node.text_within ⟨d, title, text, items, entries, blocks, table⟩
    have alone := List.nil_sublist
      ((Node.walk ⟨d, title, text, items, entries, blocks, table⟩).map Node.data)
    have content : Drawn Q _ (inlineContent s w d text).value :=
      (inlineContent_drawn h hw d text htext).within within
    have other : ∀ r : Rendered Markup, Drawn Q [] r.value →
        Drawn Q _ (inlineOr s w text r).value :=
      fun r hr => (inlineOr_drawn h hw text htext r hr).within within
    simp only [inlineAs]
    -- One case for each kind. Only the mark of a footnote is drawn from the node itself; what
    -- stands around the text is drawn from the text.
    split
    · exact (Drawn.text _).within alone
    · exact quoted_drawn hid content
    · split
      · split
        · exact pathLink_drawn (other _ (.text _))
        · exact refLink_drawn (other _ (hw _ _))
      · exact (anchorAt_drawn hid).within alone
      · exact link_drawn hid (other _ (.text _))
      · exact (bibAnchor_drawn hid).within alone
      · exact Drawn.nil.within alone
      · exact Drawn.nil.within alone
    · exact content.concatLeaf (.void (by simp))
    · exact .box (by simp) (by decide) content
    · rename_i hkind
      exact (callout_drawn fun x hx => h.text (hself.guard hkind x hx)).within alone
    · rename_i hkind
      split
      · rename_i index hindex _
        exact (footnoteRef_drawn (h.number (hself.index hkind index hindex))).within alone
      · rename_i index hindex hvariant
        refine (footnoteMark_drawn (h.number (hself.index hkind index hindex)) ?_).within
          self_within
        have hx : d.variant ≠ some "xref" := by simpa using hvariant
        rw [NodeData.markNumber?, if_pos ⟨hkind, hx⟩, hindex]
        rfl
      · exact unresolvedFootnote_drawn content
      · exact Drawn.nil.within alone
    · rename_i hkind
      exact (image_drawn fun x hx => h.text (hself.svg hkind x hx)).within alone
    · split
      · exact content
      · exact Drawn.nil.within alone
    · exact (keyboard_drawn d).within alone
    · exact (menu_drawn d).within alone
    · exact Drawn.nil.within alone

theorem inlines_drawn (h : Palette.Le P Q) (hw : Worded Q w) : ∀ ns : List Node,
    SuppliedInText s P (Node.walkAll ns) → Drawn Q (dataOf ns) (inlines s w ns).value
  | [] => fun _ => .nil
  | n :: ns => fun hs => by
    simp only [Node.walkAll, SuppliedInText, List.forall_mem_append] at hs
    simp only [dataOf, Node.walkAll, List.map_append, inlines, Rendered.value_bind,
      Rendered.value_pure]
    exact (inlineAs_drawn h hw n hs.1).append (inlines_drawn h hw ns hs.2)

theorem inlineContent_drawn (h : Palette.Le P Q) (hw : Worded Q w) (d : NodeData) :
    ∀ text : Option (List Node), SuppliedInText s P (Node.walkOpt text) →
      Drawn Q (dataOf? text) (inlineContent s w d text).value
  | some ns => inlines_drawn h hw ns
  | none => fun _ => .text _

theorem inlineOr_drawn (h : Palette.Le P Q) (hw : Worded Q w) : ∀ text : Option (List Node),
    SuppliedInText s P (Node.walkOpt text) →
    ∀ r : Rendered Markup, Drawn Q [] r.value → Drawn Q (dataOf? text) (inlineOr s w text r).value
  | some (n :: ns) => fun hs _ _ => inlines_drawn h hw (n :: ns) hs
  | some [] => fun _ _ hr => hr
  | none => fun _ _ hr => hr

end

end DocPress
