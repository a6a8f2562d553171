import DocPress.Proofs.Entities
import DocPress.Proofs.FootnoteLinks
import DocPress.Proofs.PageLines
import DocPress.Proofs.ReadText

/-! Running text without references and footnotes shows nothing but what is in its nodes, whatever
the scene is. Where each node shows exactly the texts below it, a reader of the markup sees the
plain text of the nodes, so that a page has the same title in its head and in its header. -/

namespace DocPress

set_option autoImplicit false

open Inline

variable {s : Scene} {w : Wording}

/-! ### Nodes that show what is in them -/

/-- Whether a node and all nodes of its text, to any depth, are of a sort. -/
inductive Node.Throughout (p : Node → Prop) : Node → Prop
  | mk {n : Node} (self : p n) (text : ∀ m ∈ n.text.getD [], Throughout p m) : Throughout p n

theorem Node.Throughout.mono {p q : Node → Prop} (h : ∀ n, p n → q n) {n : Node}
    (hn : n.Throughout p) : n.Throughout q := by
  induction hn with
  | mk self _ ih => exact .mk (h _ self) ih

/-- Whether a node draws a span around the text in it, or the place of an anchor. -/
def Node.IsSpan (n : Node) : Prop :=
  n.kind ∈ [.text, .inlineQuoted, .inlineButton, .inlineBreak, .inlineIndexterm] ∨
    n.kind = .inlineAnchor ∧ n.variant ∈ [some "link", some "ref"]

mutual

/-- The elements of a node, each ahead of those within it. -/
def Html.elements : Html → List Tag
  | .element tag _ content => tag :: elementsOf content
  | _ => []

def elementsOf : List Html → List Tag
  | [] => []
  | h :: hs => h.elements ++ elementsOf hs

end

theorem elementsOf_append (a b : List Html) :
    elementsOf (a ++ b) = elementsOf a ++ elementsOf b := by
  induction a with
  | nil => rfl
  | cons h hs ih => simp only [List.cons_append, elementsOf, ih, List.append_assoc]

/-- Markup of templates that inserts nothing unescaped and preforms nothing. -/
structure Phrasing (m : Markup) : Prop where
  drawn : Drawn .inert [] m
  flowing : .pre ∉ elementsOf m

namespace Phrasing

variable {m k : Markup}

theorem nil : Phrasing [] := ⟨.nil, List.not_mem_nil⟩

theorem text (t : String) : Phrasing [.text t] := ⟨.text t, List.not_mem_nil⟩

theorem append (hm : Phrasing m) (hk : Phrasing k) : Phrasing (m ++ k) where
  drawn := hm.drawn.append hk.drawn
  flowing := by
    rw [elementsOf_append, List.mem_append, not_or]
    exact ⟨hm.flowing, hk.flowing⟩

theorem element {tag : Tag} {attrs : List Attr} (hm : Phrasing m) (ht : tag ≠ .pre)
    (h : Drawn .inert [] [.element tag attrs m]) : Phrasing [.element tag attrs m] where
  drawn := h
  flowing := by
    have hflowing := hm.flowing
    simp [elementsOf, Html.elements, hflowing, ht.symm]

theorem box {tag : Tag} {attrs : List Attr} (hm : Phrasing m) (h : OrdinaryAttrs .inert attrs)
    (ha : tag ≠ .a) (hpre : tag ≠ .pre) : Phrasing [.element tag attrs m] :=
  hm.element hpre (.box h ha hm.drawn)

end Phrasing

/-! ### Routines by kind -/

section

variable (s : Scene) (w : Wording) (n : Node)

theorem inlineAs_text : (inlineAs s w .text n).value = [.text (n.source.getD "")] := by
  cases n
  rfl

theorem inlineAs_quoted : (inlineAs s w .inlineQuoted n).value =
    quoted n.data (inlineContent s w n.data n.text).value := by
  cases n
  rfl

theorem inlineAs_break : (inlineAs s w .inlineBreak n).value =
    (inlineContent s w n.data n.text).value ++ [.void .br []] := by
  cases n
  rfl

theorem inlineAs_button : (inlineAs s w .inlineButton n).value =
    [.element .b [attr .classes "button"] (inlineContent s w n.data n.text).value] := by
  cases n
  rfl

theorem inlineAs_indexterm : (inlineAs s w .inlineIndexterm n).value =
    if n.variant = some "visible" then (inlineContent s w n.data n.text).value else [] := by
  obtain ⟨d, title, text, items, entries, blocks, table⟩ := n
  rw [inlineAs]
  split <;> rfl

theorem inlineAs_ref (h : n.variant = some "ref") :
    (inlineAs s w .inlineAnchor n).value = anchorAt n.data := by
  obtain ⟨d, title, text, items, entries, blocks, table⟩ := n
  have hvariant : d.variant = some "ref" := h
  rw [inlineAs, hvariant]
  rfl

theorem inlineAs_link (h : n.variant = some "link") : (inlineAs s w .inlineAnchor n).value =
    link n.data (inlineOr s w n.text (pure [.text (n.target.getD "")])).value := by
  obtain ⟨d, title, text, items, entries, blocks, table⟩ := n
  have hvariant : d.variant = some "link" := h
  rw [inlineAs, hvariant]
  rfl

end

/-! ### Spans are phrasing -/

theorem quotesOf_flowing {v : String} {tag : Tag} (h : quotesOf v = .tag tag) : tag ≠ .pre := by
  unfold quotesOf at h
  split at h <;> cases h <;> decide

theorem quotesOf_phrasing {v : String} {before after : Markup}
    (h : quotesOf v = .around before after) : Phrasing before ∧ Phrasing after := by
  unfold quotesOf at h
  split at h <;> cases h <;> first
    | exact ⟨⟨.charRef _, List.not_mem_nil⟩, ⟨.charRef _, List.not_mem_nil⟩⟩
    | exact ⟨.text _, .text _⟩
    | exact ⟨.nil, .nil⟩

theorem quoted_phrasing {d : NodeData} {m : Markup} (hm : Phrasing m) : Phrasing (quoted d m) := by
  have hattrs : OrdinaryAttrs .inert (d.idAttrs ++ d.roleAttrs) := by simp [Palette.inert]
  simp only [quoted]
  split
  · rename_i tag hq
    exact hm.box hattrs (quotesOf_tag hq) (quotesOf_flowing hq)
  · rename_i before after hq
    -- A span without a tag of its own gets one only for an id or a role.
    obtain ⟨hbefore, hafter⟩ := quotesOf_phrasing hq
    have hinner := (hbefore.append hm).append hafter
    split
    · exact hinner
    · exact hinner.box hattrs (by decide) (by decide)

theorem link_phrasing {d : NodeData} {m : Markup} (hm : Phrasing m) : Phrasing (link d m) :=
  hm.element (by decide) (link_drawn (fun _ _ => trivial) hm.drawn)

theorem anchorAt_phrasing (d : NodeData) : Phrasing (anchorAt d) :=
  Phrasing.nil.element (by decide) (anchorAt_drawn fun _ _ => trivial)

theorem inlines_phrasing : ∀ {ns : List Node},
    (∀ n ∈ ns, Phrasing (inlineAs s w n.kind n).value) → Phrasing (inlines s w ns).value
  | [], _ => .nil
  | n :: ns, h => by
    obtain ⟨hn, hns⟩ := List.forall_mem_cons.mp h
    exact hn.append (inlines_phrasing hns)

theorem inlineContent_phrasing {d : NodeData} {text : Option (List Node)}
    (h : ∀ n ∈ text.getD [], Phrasing (inlineAs s w n.kind n).value) :
    Phrasing (inlineContent s w d text).value := by
  cases text with
  | none => exact .text _
  | some ns => exact inlines_phrasing h

theorem inlineOr_phrasing {text : Option (List Node)} {r : Rendered Markup}
    (h : ∀ n ∈ text.getD [], Phrasing (inlineAs s w n.kind n).value) (hr : Phrasing r.value) :
    Phrasing (inlineOr s w text r).value := by
  cases text with
  | none => exact hr
  | some ns =>
    cases ns with
    | nil => exact hr
    | cons n ns => exact inlines_phrasing h

theorem Node.Throughout.phrasing {n : Node} (h : n.Throughout Node.IsSpan) :
    Phrasing (inlineAs s w n.kind n).value := by
  induction h with
  | @mk n self _ ih =>
    have content : Phrasing (inlineContent s w n.data n.text).value := inlineContent_phrasing ih
    simp only [Node.IsSpan, List.mem_cons, List.not_mem_nil, or_false] at self
    rcases self with (hk | hk | hk | hk | hk) | ⟨hk, hv | hv⟩ <;> rw [hk]
    · rw [inlineAs_text]
      exact .text _
    · rw [inlineAs_quoted]
      exact quoted_phrasing content
    · rw [inlineAs_button]
      exact content.box (by simp) (by decide) (by decide)
    · rw [inlineAs_break]
      exact content.append ⟨.void (by simp), List.not_mem_nil⟩
    · rw [inlineAs_indexterm]
      split
      · exact content
      · exact .nil
    · rw [inlineAs_link s w n hv]
      exact link_phrasing (inlineOr_phrasing ih (.text _))
    · rw [inlineAs_ref s w n hv]
      exact anchorAt_phrasing n.data

/-! ### The plain text of nodes -/

/-- The nodes that show the texts below them and nothing else. -/
inductive Node.ShowsTexts : Node → Prop
  | text {n : Node} (hk : n.kind = .text) (ht : n.hasText = false) : ShowsTexts n
  | quoted {n : Node} (hk : n.kind = .inlineQuoted) (ht : n.text.isSome)
    (hv : n.variant.getD "" ∉ ["double", "single", "asciimath", "latexmath"]) : ShowsTexts n
  | button {n : Node} (hk : n.kind = .inlineButton) (ht : n.text.isSome) : ShowsTexts n
  | lineBreak {n : Node} (hk : n.kind = .inlineBreak) (ht : n.text.isSome) : ShowsTexts n
  | indexterm {n : Node} (hk : n.kind = .inlineIndexterm) (ht : n.text.isSome)
    (hv : n.variant = some "visible") : ShowsTexts n
  | link {n : Node} (hk : n.kind = .inlineAnchor) (hv : n.variant = some "link")
    (ht : n.hasText = true) : ShowsTexts n
  | ref {n : Node} (hk : n.kind = .inlineAnchor) (hv : n.variant = some "ref")
    (ht : n.hasText = false) : ShowsTexts n

theorem Node.ShowsTexts.isSpan {n : Node} (h : n.ShowsTexts) : n.IsSpan := by
  cases h <;> simp [Node.IsSpan, *]

/-- Whether markup is written with the given text outside of its tags. -/
def Spells (m : Markup) (text : String) : Prop := textCharsOf m = Text.escapedText text.toList

namespace Spells

variable {m k : Markup} {t u : String}

theorem nil : Spells [] "" := rfl

theorem text (t : String) : Spells [.text t] t := List.append_nil _

theorem append (hm : Spells m t) (hk : Spells k u) : Spells (m ++ k) (t ++ u) := by
  rw [Spells, textCharsOf_append, hm, hk, String.toList_append, Text.escapedText_append]

theorem concat (hm : Spells m t) (hk : Spells k "") : Spells (m ++ k) t := by
  have h := hm.append hk
  rwa [String.append_empty] at h

theorem element (hm : Spells m t) (tag : Tag) (attrs : List Attr) :
    Spells [.element tag attrs m] t := by
  rw [Spells, textCharsOf, Html.textChars, hm]
  exact List.append_nil _

end Spells

theorem quotesOf_bare {v : String} (hv : v ∉ ["double", "single", "asciimath", "latexmath"])
    {before after : Markup} (h : quotesOf v = .around before after) : before = [] ∧ after = [] := by
  unfold quotesOf at h
  split at h <;> cases h <;> simp_all

theorem quoted_spells {d : NodeData}
    (hv : d.variant.getD "" ∉ ["double", "single", "asciimath", "latexmath"]) {m : Markup}
    {t : String} (hm : Spells m t) : Spells (quoted d m) t := by
  simp only [quoted]
  split
  · exact hm.element _ _
  · rename_i before after hq
    obtain ⟨rfl, rfl⟩ := quotesOf_bare hv hq
    rw [List.nil_append, List.append_nil]
    split
    · exact hm
    · exact hm.element _ _

theorem inlines_spells : ∀ {ns : List Node},
    (∀ n ∈ ns, Spells (inlineAs s w n.kind n).value n.plainText) →
      Spells (inlines s w ns).value (Node.plainTextOf ns)
  | [], _ => .nil
  | n :: ns, h => by
    obtain ⟨hn, hns⟩ := List.forall_mem_cons.mp h
    exact hn.append (inlines_spells hns)

theorem Node.plainText_eq (n : Node) : n.plainText =
    (if n.kind = .text then n.source.getD "" else "") ++ Node.plainTextOf (n.text.getD []) := by
  obtain ⟨d, title, text, items, entries, blocks, table⟩ := n
  cases text <;> rfl

theorem Node.plainText_below {n : Node} (hk : n.kind ≠ .text) :
    n.plainText = Node.plainTextOf (n.text.getD []) := by
  rw [plainText_eq, if_neg hk, String.empty_append]

theorem Node.getD_text {n : Node} (h : n.hasText = false) : n.text.getD [] = [] := by
  unfold hasText at h
  cases ht : n.text with
  | none => rfl
  | some ns => simpa [ht] using h

theorem inlineOr_hasText {n : Node} (h : n.hasText = true) (r : Rendered Markup) :
    inlineOr s w n.text r = inlines s w (n.text.getD []) := by
  unfold Node.hasText at h
  cases ht : n.text with
  | none => simp [ht] at h
  | some ns =>
    cases ns with
    | nil => simp [ht] at h
    | cons m ms => rfl

/-- A node that shows the texts below it is written as its plain text. -/
theorem Node.Throughout.spells {n : Node} (h : n.Throughout Node.ShowsTexts) :
    Spells (inlineAs s w n.kind n).value n.plainText := by
  induction h with
  | @mk n self _ ih =>
    -- The nodes below are written as their plain text; each kind adds tags around it and no text.
    have shown : Spells (inlines s w (n.text.getD [])).value (plainTextOf (n.text.getD [])) :=
      inlines_spells ih
    have content (ht : n.text.isSome) :
        Spells (inlineContent s w n.data n.text).value (plainTextOf (n.text.getD [])) := by
      obtain ⟨ns, hns⟩ := Option.isSome_iff_exists.mp ht
      rw [hns] at shown ⊢
      exact shown
    cases self with
    | text hk ht =>
      rw [plainText_eq, if_pos hk, getD_text ht, plainTextOf, String.append_empty, hk,
        inlineAs_text]
      exact .text _
    | quoted hk ht hv =>
      rw [plainText_below (by simp [hk]), hk, inlineAs_quoted]
      exact quoted_spells hv (content ht)
    | button hk ht =>
      rw [plainText_below (by simp [hk]), hk, inlineAs_button]
      exact (content ht).element _ _
    | lineBreak hk ht =>
      rw [plainText_below (by simp [hk]), hk, inlineAs_break]
      exact (content ht).concat rfl
    | indexterm hk ht hv =>
      rw [plainText_below (by simp [hk]), hk, inlineAs_indexterm, if_pos hv]
      exact content ht
    | link hk hv ht =>
      rw [plainText_below (by simp [hk]), hk, inlineAs_link s w n hv, inlineOr_hasText ht]
      exact shown.element _ _
    | ref hk hv ht =>
      rw [plainText_below (by simp [hk]), hk, inlineAs_ref s w n hv, getD_text ht]
      rfl

/-! ### What a reader sees -/

/-- What is seen of written markup: its text, with the entities in their plain form. -/
def seenText (html : String) : String := String.ofList (Text.decoded (readText html.toList))

theorem Drawn.sealed {ds : List NodeData} {m : Markup} (h : Drawn .inert ds m) : Sealed m :=
  Palette.inert_inert.sealed (h.mono Palette.inert.le_page).fine

theorem Phrasing.seenText {m : Markup} (hm : Phrasing m) {t : String} (h : Spells m t) :
    seenText m.render = t := by
  have hread : readText m.chars = Text.escapedText t.toList :=
    (hm.drawn.sealed.readText (FineAll.named m hm.drawn.fine)).trans h
  rw [DocPress.seenText, Markup.render, String.toList_ofList, hread, Text.decoded_escapedText,
    String.ofList_toList]

theorem runningText_phrasing {title : Inlines} (h : ∀ n ∈ title, n.Throughout Node.IsSpan) :
    Phrasing (runningText s title).value := inlines_phrasing fun n hn => (h n hn).phrasing

theorem runningText_spells {title : Inlines} (h : ∀ n ∈ title, n.Throughout Node.ShowsTexts) :
    Spells (runningText s title).value (Node.plainTextOf title) :=
  inlines_spells fun n hn => (h n hn).spells

theorem seenText_titleLine (title : String) : seenText (Page.titleLine title) = title := by
  have hphrasing : Phrasing [.element .title [] [.text title]] :=
    (Phrasing.text title).box (by simp) (by decide) (by decide)
  rw [← Page.render_title]
  exact hphrasing.seenText ((Spells.text title).element _ _)

theorem seenText_headingLine {m : Markup} (hm : Phrasing m) {t : String} (h : Spells m t) :
    seenText (Page.headingLine m) = t := by
  have hphrasing : Phrasing [.element (.heading 1) [] m] :=
    hm.box (by simp) (by decide) (by decide)
  rw [← Page.render_heading]
  exact hphrasing.seenText (h.element _ _)

/-- A title of nodes that show the texts below them is seen as its plain text. A page without a
title of its own, for which this text is not empty, has lines for it in its head and, as far as it
is shown there, in its header, and the same is seen in both. -/
theorem Converter.titles_agree (c : Converter) (d : Document) {title : Inlines}
    (h : ∀ n ∈ title, n.Throughout Node.ShowsTexts) :
    let s := c.scene d
    let shown := (runningText s title).value
    let plain := Node.plainTextOf title
    seenText shown.render = plain ∧
      (d.title? = some title → s.attr? "pagetitle" = none → plain ≠ "" →
        seenText (Page.titleLine plain) = plain ∧ seenText (Page.headingLine shown) = plain ∧
          ∃ lead trail rest : List String, (c.standalone d).html = "\n".intercalate (
            ["<!DOCTYPE html>", Tag.html.opening (if s.hasAttr "nolang" then [] else
              [attr .lang (Page.lang s)]), "<head>"] ++ lead ++ [Page.titleLine plain] ++ trail ++
            ["</head>", Tag.body.opening d.root.data.idAttrs] ++
            (if s.hasAttr "shownav" then [] else ["<article>"]) ++
            Page.headingLines s shown ++ rest)) := by
  intro s shown plain
  have hspells : Spells shown plain := runningText_spells h
  have hphrasing : Phrasing shown :=
    runningText_phrasing fun n hn => (h n hn).mono fun _ => Node.ShowsTexts.isSpan
  refine ⟨hphrasing.seenText hspells, fun htitle hpage hplain => ?_⟩
  have hdoc : s.doc.title? = some title := htitle
  have htext : Page.titleText s = plain := by
    have hempty : plain.isEmpty = false := by simpa using hplain
    simp [Page.titleText, hpage, hdoc, plain, hempty]
  obtain ⟨lead, trail, rest, hlines⟩ := Page.standalone_title hdoc
  rw [htext] at hlines
  exact ⟨seenText_titleLine plain, seenText_headingLine hphrasing hspells, lead, trail, rest,
    hlines⟩

/-- A title with nested spans, a link, the place of an anchor and signs that are escaped. -/
def plainSample : Inlines :=
  let link : NodeData := { kind := .inlineAnchor, variant := some "link", target := some "a?b&c" }
  let strong : NodeData :=
    { kind := .inlineQuoted, variant := some "strong", id := some "s", roles := ["<r>"] }
  [.plain "A & <B> ", { Node.leaf strong with text := some [.plain "bold",
      { Node.ofKind .inlineQuoted with text := some [] },
      { Node.leaf link with text := some [{ Node.ofKind .inlineButton with
        text := some [.plain " \"go\""] }] }] },
    .leaf { kind := .inlineAnchor, variant := some "ref", id := some "here" }]

theorem Converter.titles_agree_plainSample :
    let c : Converter := ⟨.initial, none, .blank⟩
    let d := Document.blank.withTitle plainSample
    let s := c.scene d
    (∀ n ∈ plainSample, n.Throughout Node.ShowsTexts) ∧ d.title? = some plainSample ∧
      s.attr? "pagetitle" = none ∧ Node.plainTextOf plainSample = "A & <B> bold \"go\"" ∧
      seenText (runningText s plainSample).value.render = "A & <B> bold \"go\"" ∧
      seenText (Page.headingLine (runningText s plainSample).value) = "A & <B> bold \"go\"" := by
  intro c d s
  have leaf {n : Node} (self : n.ShowsTexts) (ht : n.text.getD [] = []) :
      n.Throughout Node.ShowsTexts := .mk self (by simp [ht])
  have hnodes : ∀ n ∈ plainSample, n.Throughout Node.ShowsTexts := by
    simp only [plainSample, List.forall_mem_cons]
    refine ⟨leaf (.text rfl rfl) rfl, .mk (.quoted rfl rfl (by decide)) ?_,
      leaf (.ref rfl rfl rfl) rfl, nofun⟩
    simp only [Option.getD_some, List.forall_mem_cons]
    refine ⟨leaf (.text rfl rfl) rfl, leaf (.quoted rfl rfl (by decide)) rfl,
      .mk (.link rfl rfl rfl) ?_, nofun⟩
    simp only [Option.getD_some, List.forall_mem_cons]
    refine ⟨.mk (.button rfl rfl) ?_, nofun⟩
    simp only [Option.getD_some, List.forall_mem_cons]
    exact ⟨leaf (.text rfl rfl) rfl, nofun⟩
  have hplain : Node.plainTextOf plainSample = "A & <B> bold \"go\"" := by decide
  have htitle : d.title? = some plainSample := rfl
  have hpage : s.attr? "pagetitle" = none := by decide
  obtain ⟨hseen, hlines⟩ := c.titles_agree d hnodes
  rw [hplain] at hseen hlines
  obtain ⟨-, hheading, -⟩ := hlines htitle hpage (by decide)
  exact ⟨hnodes, htitle, hpage, hplain, hseen, hheading⟩

end DocPress
