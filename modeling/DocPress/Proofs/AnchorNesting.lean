import DocPress.Proofs.Problems
import DocPress.Proofs.UniqueIds

/-! Anchors within anchors on a page. Titles lose their anchors where a reference borrows them;
where the heading of a section is made a link they keep them. If the text of no anchor has anchors
in it, this is the only way in which a page comes to nest them. -/

namespace DocPress

set_option autoImplicit false

open Inline

/-- Whether an inline node is written with an anchor of its own. -/
def NodeData.drawsAnchor (d : NodeData) : Bool :=
  match d.kind with
  | .inlineAnchor => d.variant.any (· ∈ anchorTypes)
  | .inlineFootnote => (d.attr? indexName).isSome
  | .inlineImage => (d.attr? "link").isSome
  | _ => false

/-- Whether no node in the text of an anchor draws another one. -/
def PlainAnchors (ns : List Node) : Prop :=
  ∀ n ∈ ns, n.kind = .inlineAnchor → ∀ m ∈ Node.walkOpt n.text, m.data.drawsAnchor = false

theorem PlainAnchors.of_subset {ms ns : List Node} (h : PlainAnchors ns) (hm : ms ⊆ ns) :
    PlainAnchors ms := fun n hn => h n (hm hn)

/-! ### Inline templates -/

namespace Inline

variable {inside : Bool} {s : Scene} (d : NodeData) (content : Markup)

theorem innerOf_quoted : innerOf inside (quoted d content) = innerOf inside content := by
  simp only [quoted]
  split
  · rename_i tag hq
    simp [quotesOf_tag hq]
  · rename_i before after hq
    have hsides : innerOf inside before = 0 ∧ innerOf inside after = 0 := by
      unfold quotesOf at hq
      split at hq <;> cases hq <;> exact ⟨rfl, rfl⟩
    split <;> simp [hsides]

theorem innerOf_linkedImage : innerOf inside (Inline.image s d).value =
    inside.toNat * (d.attr? "link").isSome.toNat := by
  have hicon : ∀ dimensions, innerOf true (icon s d dimensions) = 0 := by
    intro dimensions
    simp only [icon]
    split
    · simp
    · split <;> simp
  have hlinked : ∀ {picture : Markup}, innerOf true picture = 0 →
      innerOf inside (linked d picture) = inside.toNat * (d.attr? "link").isSome.toNat := by
    intro picture h
    have hle := innerOf_le picture
    unfold linked
    cases d.attr? "link" with
    | some link => simp [h]
    | none => cases inside <;> simp <;> omega
  simp only [Inline.image]
  split
  · simp [hlinked (hicon _)]
  · simp [hlinked (Block.innerOf_picture d _)]

theorem innerOf_callout : innerOf inside (callout s d) = 0 := by
  simp only [callout]
  split
  · simp
  · split
    · simp
    · split <;> simp

theorem innerOf_keyboard : innerOf inside (keyboard d) = 0 := by
  simp only [keyboard]
  split
  · simp
  · simp
  · simp [innerOf_intersperse, innerOf_map]

theorem innerOf_menu : innerOf inside (menu s d) = 0 := by
  have hcaret : innerOf inside (caret s) = 0 := by
    simp only [caret]
    split <;> simp
  have hparts : ∀ names : List String, innerOf inside (names.map fun name =>
      [Html.element .b [attr .classes "submenu"] [.text name]]).flatten = 0 := by
    intro names
    rw [innerOf_flatten_map (g := fun _ => []) (fun name => by simp)]
    simp
  simp only [menu]
  split <;> simp [innerOf_intercalate hcaret, hparts, hcaret]

end Inline

/-! ### Running text -/

section Text

variable {s : Scene} {w : Wording}

/-- Whether the words of references hold no anchors. -/
def Wording.Anchorless (w : Wording) : Prop := ∀ d id, innerOf true (w d id).value = 0

mutual

/-- Within an anchor each shown node counts that draws one, and outside of it none. -/
theorem inner_inline (hw : w.Anchorless) (inside : Bool) : ∀ n : Node, PlainAnchors n.walk →
    innerOf inside (inlineAs s w n.kind n).value =
      inside.toNat * n.shown.countP NodeData.drawsAnchor
  | ⟨d, title, text, items, entries, blocks, table⟩ => fun hn => by
    let n : Node := ⟨d, title, text, items, entries, blocks, table⟩
    have htext : PlainAnchors (Node.walkOpt text) := hn.of_subset fun m hm => by
      simp [Node.walk, hm]
    have hcontent := inner_inlineContent hw inside d text htext
    change innerOf inside (inlineAs s w d.kind n).value = _ * n.shown.countP _
    -- Only anchors, footnotes and terms of the index look at more than their kind.
    cases hk : d.kind
    case inlineAnchor =>
      -- The text of an anchor draws none.
      have hnone : (Node.shownOpt text).countP NodeData.drawsAnchor = 0 := by
        apply List.countP_eq_zero.mpr
        intro e he
        obtain ⟨m, hm, rfl⟩ := List.mem_map.mp ((Node.shownOpt_within text).subset he)
        simp [hn n (Node.mem_walk_self n) hk m hm]
      have hor : ∀ other : Rendered Markup, innerOf true other.value = 0 →
          innerOf true (inlineOr s w text other).value = 0 := by
        intro other hother
        rw [inner_inlineOr hw true text htext other hother, hnone, Nat.mul_zero]
      simp only [n, inlineAs]
      split
      all_goals
        rename_i hv
        simp only [Node.shown, List.countP_cons, NodeData.drawsAnchor, NodeData.showsText, hk, hv]
      · cases hp : d.attr? "path" with
        | some path => simp [pathLink, hor, NodeData.anchorTypes, hnone]
        | none => simp [refLink, hor _ (hw d _), NodeData.anchorTypes, hnone]
      · simp [anchorAt, NodeData.anchorTypes]
      · simp [link, hor, NodeData.anchorTypes, hnone]
      · simp [bibAnchor, anchorAt, NodeData.anchorTypes]
      · simp_all [NodeData.anchorTypes, Rendered.warn]
      · simp [Rendered.warn]
    case inlineFootnote =>
      have hb : (d.variant == some "xref") = decide (d.variant = some "xref") :=
        beq_eq_decide _ _
      by_cases hv : d.variant = some "xref" <;> cases hi : d.attr? indexName <;>
        simp [n, inlineAs, Node.shown, NodeData.drawsAnchor, NodeData.showsText, hk, hb, hv, hi,
          unresolvedFootnote, footnoteRef, footnoteMark, footnoteLink, hcontent]
    case inlineIndexterm =>
      by_cases hv : d.variant = some "visible" <;>
        simp [n, inlineAs, Node.shown, NodeData.drawsAnchor, NodeData.showsText, hk, hv, hcontent]
    case inlineImage =>
      cases hl : d.attr? "link" <;>
        simp [n, inlineAs, innerOf_linkedImage, Node.shown, NodeData.drawsAnchor,
          NodeData.showsText, hk, hl]
    all_goals
      simp [n, inlineAs, Node.shown, NodeData.drawsAnchor, NodeData.showsText, hk, hcontent,
        Rendered.warn, innerOf_quoted, innerOf_callout, innerOf_keyboard, innerOf_menu]

theorem inner_inlines (hw : w.Anchorless) (inside : Bool) : ∀ ns : List Node,
    PlainAnchors (Node.walkAll ns) → innerOf inside (inlines s w ns).value =
      inside.toNat * (Node.shownAll ns).countP NodeData.drawsAnchor
  | [] => fun _ => rfl
  | n :: ns => fun hn => by
    have hfirst := inner_inline hw inside n (hn.of_subset (List.subset_append_left _ _))
    have hrest := inner_inlines hw inside ns (hn.of_subset (List.subset_append_right _ _))
    simp only [Node.kind] at hfirst
    simp only [inlines, Rendered.value_bind, Rendered.value_pure, innerOf_append, Node.shownAll,
      List.countP_append, Nat.mul_add, hfirst, hrest]

theorem inner_inlineContent (hw : w.Anchorless) (inside : Bool) (d : NodeData) :
    ∀ text : Option (List Node), PlainAnchors (Node.walkOpt text) →
      innerOf inside (inlineContent s w d text).value =
        inside.toNat * (Node.shownOpt text).countP NodeData.drawsAnchor
  | none => fun _ => rfl
  | some ns => fun hn => by rw [inlineContent, Node.shownOpt, inner_inlines hw inside ns hn]

theorem inner_inlineOr (hw : w.Anchorless) (inside : Bool) : ∀ text : Option (List Node),
    PlainAnchors (Node.walkOpt text) → ∀ other : Rendered Markup,
      innerOf inside other.value = 0 → innerOf inside (inlineOr s w text other).value =
        inside.toNat * (Node.shownOpt text).countP NodeData.drawsAnchor
  | none => fun _ _ h => by rw [inlineOr, h]; rfl
  | some [] => fun _ _ h => by rw [inlineOr, h]; rfl
  | some (n :: ns) => fun hn _ _ => by
    rw [inlineOr, Node.shownOpt, inner_inlines hw inside (n :: ns) hn]

end

theorem innerOf_bracketed (id : String) : innerOf true (Reference.bracketed s id) = 0 := by
  unfold Reference.bracketed
  split <;> rfl

/-- Borrowed words have lost their anchors. -/
theorem anchorless_wording : (Reference.wording s).Anchorless := by
  intro d id
  unfold Reference.wording Reference.wordsFor
  split
  · exact innerOf_bracketed id
  · rw [Rendered.value_bind]
    split
    · rw [Rendered.value_pure]
      split
      · exact innerOf_bracketed id
      · exact innerOf_withoutAnchors _
    · exact innerOf_bracketed id

theorem inner_runningText (inside : Bool) {ns : Option Inlines}
    (h : PlainAnchors (Node.walkOpt ns)) : innerOf inside (runningText s (ns.getD [])).value =
      inside.toNat * (Node.shownOpt ns).countP NodeData.drawsAnchor := by
  cases ns with
  | none => rfl
  | some ns => exact inner_inlines anchorless_wording inside ns h

end Text

/-! ### Pages -/

/-- The count of inner anchors. -/
def Tally.ofAnchors : Tally := ⟨1, fun _ => false⟩

theorem Tally.of_ofAnchors (x : Rendered Markup) : ofAnchors.of x = innerOf false x.value := by
  simp [of, ofAnchors]

section Sights

variable {s : Scene} {n : Node}

theorem Tally.text_ofAnchors {ns : Option Inlines} (h : PlainAnchors (Node.walkOpt ns)) :
    ofAnchors.text s ns = 0 := by
  rw [text, of_ofAnchors, inner_runningText false h]
  exact Nat.zero_mul _

/-- A listing has no more inner anchors than its text, formatted or not. -/
theorem Tally.listing_ofAnchors (hh : ∀ h, s.highlighter = some h → s.PlainHighlighter h)
    (hn : s.doc.Holds n) (hk : n.kind = .listing) (h : PlainAnchors (Node.walkOpt n.text)) :
    ofAnchors.listing s n = 0 := by
  have hcontent : innerOf false (Block.verbatim s n).value = 0 := by
    rw [Block.innerOf_verbatim, inner_runningText false h]
    exact Nat.zero_mul _
  rw [listing, of_ofAnchors, Rendered.value_map]
  simp only [Block.listingBody]
  by_cases hstyle : n.style = some "source"
  · rw [if_pos hstyle]
    cases hs : s.highlighter with
    | none => simp [Block.plainSource, hcontent]
    | some highlighter =>
      rcases hh highlighter hs with rfl | ⟨name, rfl⟩ | hinert
      · simp [HighlightJs.highlighter, HighlightJs.format, CodeTags.wrap, hcontent]
      · simp [Highlighter.ofName, Highlighter.plainFormat, CodeTags.wrap, hcontent]
      · exact innerOf_of_tags (tagsOf_of_inert (hinert.format n hn hk hstyle))
  · rw [if_neg hstyle, Block.innerOf_preformatted, hcontent]

/-- Whether the heading of a section is made a link although its title shows an anchor. -/
def WrapsAnchor (s : Scene) : Sight → Prop
  | .block _ n => n.kind = .section ∧ Block.isLinked s n.data = true ∧
      ∃ m ∈ Node.shownOpt n.title, m.drawsAnchor = true
  | _ => False

/-- Without `sectlinks` no heading is made a link. -/
theorem not_wrapsAnchor (h : s.hasAttr "sectlinks" = false) (x : Sight) : ¬ WrapsAnchor s x := by
  intro hx
  cases x with
  | block parent n => simp [WrapsAnchor, Block.isLinked, h] at hx
  | _ => exact hx

theorem Tally.own_ofAnchors (parent : Option Parent) (h : PlainAnchors (Node.walkOpt n.title)) :
    ofAnchors.own s parent n = 0 ↔ ¬ WrapsAnchor s (.block parent n) := by
  have htitle : ∀ inside, innerOf inside (Block.title s n).value =
      inside.toNat * (Node.shownOpt n.title).countP NodeData.drawsAnchor :=
    fun inside => inner_runningText inside h
  have hkind : n.data.kind = n.kind := rfl
  by_cases hk : n.kind = .section
  · have hown : ofAnchors.own s parent n = Block.wrapped s n := by
      simp only [own, hkind, hk, ofAnchors, Nat.one_mul]
    rw [hown, Block.wrapped, htitle, htitle, WrapsAnchor]
    by_cases hlinked : Block.isLinked s n.data = true
    · simp [hk, hlinked]
    · simp [hlinked]
  · have hown : ofAnchors.own s parent n = 0 := by
      simp only [own, hkind]
      split
      · exact absurd ‹_› hk
      · simp [ofAnchors]
      · simp [ofAnchors]
      · simp [ofAnchors]
    simp [hown, WrapsAnchor, hk]

variable (hh : ∀ h, s.highlighter = some h → s.PlainHighlighter h)
  (hplain : PlainAnchors s.doc.registered)

include hh hplain

theorem Tally.sight_ofAnchors {x : Sight} (hx : x ∈ s.doc.sights) :
    x.tally ofAnchors s = 0 ↔ ¬ WrapsAnchor s x := by
  have hblocks : PlainAnchors (Node.walkAll s.doc.root.blocks) :=
    hplain.of_subset fun _ hn => s.doc.blocks_registered hn
  have hnodes : x.nodes ⊆ Node.walkAll s.doc.root.blocks := by
    intro n hn
    exact s.doc.sights_covered.nodes.subset (List.mem_flatMap.mpr ⟨x, hx, hn⟩)
  have hnone : ∀ {k : Nat}, k = 0 → ¬ WrapsAnchor s x → (k = 0 ↔ ¬ WrapsAnchor s x) :=
    fun hk hw => iff_of_true hk hw
  cases x with
  | block parent n =>
    apply Tally.own_ofAnchors
    apply hblocks.of_subset
    intro m hm
    apply Node.walkAll_subset _ n (hnodes (List.mem_singleton_self n))
    rw [Node.walk_eq]
    simp [hm]
  | text ns => exact hnone (text_ofAnchors (hblocks.of_subset hnodes)) id
  | equation n => exact hnone (text_ofAnchors (hblocks.of_subset hnodes)) id
  | listing n =>
    obtain ⟨hk, hn⟩ := s.doc.sights_covered.listing n hx
    have hheld : s.doc.Holds n := .tree (by rw [Node.walk_eq]; simp [hn])
    exact hnone (listing_ofAnchors hh hheld hk (hblocks.of_subset hnodes)) id
  | _ => exact hnone rfl id

theorem Tally.sights_ofAnchors {xs : List Sight} (hxs : xs ⊆ s.doc.sights) :
    sightsTally ofAnchors s xs = 0 ↔ ∀ x ∈ xs, ¬ WrapsAnchor s x := by
  induction xs with
  | nil => exact iff_of_true rfl nofun
  | cons x xs ih =>
    rw [sightsTally_cons, Nat.add_eq_zero_iff, List.forall_mem_cons,
      Tally.sight_ofAnchors hh hplain (hxs List.mem_cons_self),
      ih (List.subset_of_cons_subset hxs)]

/-- A page has inner anchors exactly where a link is put around the title of a section. -/
theorem Page.inner_embedded :
    innerOf false (embedded s).value = 0 ↔ ∀ x ∈ s.doc.sights, ¬ WrapsAnchor s x := by
  have hbody : innerOf false (body s).value = sightsTally .ofAnchors s s.doc.sights := by
    have hsiblings := tally_siblings (s := s) .ofAnchors (some s.doc.root.data.asParent)
      s.doc.root.blocks
    rw [Tally.lines] at hsiblings
    simpa [body, blocksIn, Tally.ofAnchors, Document.sights, Block.isBook] using hsiblings
  have htitle : ∀ title, s.doc.title? = some title →
      innerOf false (runningText s title).value = 0 := by
    intro title ht
    have hregistered : PlainAnchors (Node.walkOpt (some title)) := by
      apply hplain.of_subset
      rw [Document.registered_eq, ht]
      exact List.subset_append_left _ _
    exact (inner_runningText false hregistered).trans (Nat.zero_mul _)
  have hpage : innerOf false (embedded s).value = innerOf false (body s).value := by
    cases ht : s.doc.title? with
    | none => simp [embedded, ht]
    | some title =>
      by_cases hshown : (s.hasAttr "showtitle" && !s.hasAttr "notitle") = true <;>
        simp [embedded, ht, hshown, htitle]
  rw [hpage, hbody, Tally.sights_ofAnchors hh hplain (List.Subset.refl _)]

end Sights

namespace Converter

/-- In the page of a prepared document without anchors in the text of anchors, whose unescaped texts
are inert, an anchor stands within another one exactly if the heading of a section is made a link
although its title shows an anchor. -/
theorem embedded_anchorsApart (c : Converter) (d : Document) (defaults : SortedMap String)
    (hplain : PlainAnchors (d.prepareWith defaults).registered)
    (hinert : (c.scene (d.prepareWith defaults)).InertNodes)
    (hnumbers : (c.scene (d.prepareWith defaults)).InertNumbers)
    (hh : ∀ h, c.highlighter = some h →
      (c.scene (d.prepareWith defaults)).PlainHighlighter h) :
    let s := c.scene (d.prepareWith defaults)
    ∃ ts, readTags (c.embedded s.doc).html.toList = some ts ∧
      (anchorsApart [] ts ↔ ∀ x ∈ s.doc.sights, ¬ WrapsAnchor s x) := by
  intro s
  have hhtml : (c.embedded s.doc).html.toList = (Page.embedded s).value.chars :=
    String.toList_ofList
  have hread := embedded_read rfl hinert hh hnumbers
  refine ⟨_, (congrArg readTags hhtml).trans hread, ?_⟩
  rw [anchorsApart_iff, Page.inner_embedded hh hplain]

/-- A section with an id whose title has a link, in a document with one attribute. -/
def linkedSample (given : String) : Document :=
  let link := ((Node.ofKind .inlineAnchor).withVariant "link").withPlainText "word"
  let heading := (((Node.ofKind .section).withId "s").withLevel 1).withTitle [link]
  (Document.blank.withBlocks [heading]).withAttr given (.text "")

theorem linkedSample_attr? (given name : String) (h : name ≠ given) :
    (linkedSample given).attr? name = none := by
  have hattrs : (linkedSample given).attributes = SortedMap.empty.insert given (.text "") :=
    rfl
  simp [Document.attr?, hattrs, Attributes.text?, h]

/-- The anchor that leads to a section stands beside the title and not around it. -/
theorem embedded_anchorBeside :
    let c : Converter := ⟨.initial, none, .blank⟩
    let s := c.scene ((linkedSample "sectanchors").prepareWith ∅)
    PlainAnchors s.doc.registered ∧ s.InertNodes ∧ s.InertNumbers ∧
      ∃ ts, readTags (c.embedded s.doc).html.toList = some ts ∧ anchorsApart [] ts := by
  intro c s
  have hplain : PlainAnchors s.doc.registered := by
    unfold PlainAnchors
    decide
  have hinert : s.InertNodes := inertNodes_of_insertsNone (linkedSample "sectanchors") "sectanchors"
    (by decide) (by decide) (linkedSample_attr? _) (by decide)
  have hnumbers : s.InertNumbers := nofun
  obtain ⟨ts, hread, hapart⟩ := embedded_anchorsApart c (linkedSample "sectanchors") ∅ hplain hinert
    hnumbers fun _ hh => absurd hh.symm (Option.some_ne_none _)
  exact ⟨hplain, hinert, hnumbers, ts, hread, hapart.mpr fun x _ => not_wrapsAnchor rfl x⟩

/-- Whether the page of a document without anchors in the text of anchors, whose nodes insert
nothing unescaped, is read as tags that open an anchor within another one. -/
def NestsAnchors (d : Document) : Prop :=
  let s := (⟨.initial, none, .blank⟩ : Converter).scene (d.prepareWith ∅)
  PlainAnchors s.doc.registered ∧ s.InertNodes ∧ ∃ ts,
    readTags ((⟨.initial, none, .blank⟩ : Converter).embedded s.doc).html.toList = some ts ∧
      ¬ anchorsApart [] ts

theorem nestsAnchors_of_read {d : Document}
    (hplain : PlainAnchors (d.prepareWith ∅).registered)
    (hinert : ((⟨.initial, none, .blank⟩ : Converter).scene (d.prepareWith ∅)).InertNodes)
    (hread : (readTags (Page.embedded ((⟨.initial, none, .blank⟩ : Converter).scene
      (d.prepareWith ∅))).value.chars).any (fun ts => ¬ anchorsApart [] ts) = true) :
    NestsAnchors d := by
  obtain ⟨hsome, hapart⟩ := (Option.any_eq_true_iff_get _ _).mp hread
  have hts := (Option.some_get hsome).symm
  exact ⟨hplain, hinert, _, (congrArg readTags String.toList_ofList).trans hts,
    of_decide_eq_true hapart⟩

/-- A link around the title of a section has the link of that title within it, and the number that a
footnote of the document title comes with may be an anchor within that of its mark. -/
theorem embedded_nestedAnchors :
    NestsAnchors (linkedSample "sectlinks") ∧ NestsAnchors (numberSample "<a>x</a>") := by
  have hlinked := inertNodes_of_insertsNone (linkedSample "sectlinks") "sectlinks"
    (by decide) (by decide) (linkedSample_attr? _) (by decide)
  have hnumber := inertNodes_of_insertsNone (numberSample "<a>x</a>") "showtitle"
    (by decide) (by decide) (numberSample_attr? _) (by decide)
  constructor
  · refine nestsAnchors_of_read ?_ hlinked ?_
    · unfold PlainAnchors
      decide
    · decide +kernel
  · refine nestsAnchors_of_read ?_ hnumber ?_
    · unfold PlainAnchors
      decide
    · decide +kernel

end Converter

end DocPress
