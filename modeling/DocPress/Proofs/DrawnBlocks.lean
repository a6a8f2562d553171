import DocPress.Block.Media
import DocPress.Block.Prose
import DocPress.Block.Verbatim
import DocPress.Proofs.DrawnWords

/-! Blocks are drawn from their nodes: the title first, then the content, each at most once. The
content comes rendered, so each block is shown to keep what its content is drawn from. -/

namespace DocPress

set_option autoImplicit false

variable {P : Palette} {s : Scene} {n : Node} {cs ds : List NodeData}

namespace Node

theorem supplied_self (hn : SuppliedAll s P n.walk) : n.Supplied s P := hn n (mem_walk_self n)

theorem supplied_title (hn : SuppliedAll s P n.walk) : SuppliedAll s P (walkOpt n.title) :=
  fun m hm => hn m (by rw [walk_eq]; simp [hm])

theorem supplied_text (hn : SuppliedAll s P n.walk) : SuppliedAll s P (walkOpt n.text) :=
  fun m hm => hn m (by rw [walk_eq]; simp [hm])

theorem ordinary_id (hn : SuppliedAll s P n.walk) : OrdinaryAttrs P.page n.data.idAttrs :=
  ordinaryAttrs_id.2 (supplied_self hn).id

/-- The attributes of the element of a block begin with the id of its node. -/
theorem ordinary_box (hn : SuppliedAll s P n.walk) {attrs : List Attr}
    (h : OrdinaryAttrs P.page attrs) : OrdinaryAttrs P.page (n.data.idAttrs ++ attrs) :=
  ordinaryAttrs_append.2 ⟨ordinary_id hn, h⟩

end Node

open Node (ordinary_id ordinary_box)

theorem pageText_drawn (hs : s.Supplied P) {ns : List Node}
    (hns : SuppliedAll s P (Node.walkAll ns)) : Drawn P.page (dataOf ns) (runningText s ns).value :=
  (runningText_drawn hs hns).mono P.words_le_page

theorem pageText?_drawn (hs : s.Supplied P) {ns : Option (List Node)}
    (hns : SuppliedAll s P (Node.walkOpt ns)) :
    Drawn P.page (dataOf? ns) (runningText s (ns.getD [])).value := by
  cases ns with
  | none => exact .nil
  | some ns => exact pageText_drawn hs hns

namespace Block

variable {content : Rendered Markup}

/-! ### Titles -/

section

variable (hs : s.Supplied P) (hn : SuppliedAll s P n.walk)

include hs hn

theorem title_drawn : Drawn P.page (dataOf? n.title) (title s n).value :=
  pageText?_drawn hs (Node.supplied_title hn)

theorem captionedTitle_drawn : Drawn P.page (dataOf? n.title) (captionedTitle s n).value := by
  simp only [captionedTitle, Rendered.value_bind, Rendered.value_pure]
  split
  · exact .consLeaf (.text _) (title_drawn hs hn)
  · exact title_drawn hs hn

theorem titleLine_drawn (captioned : Bool) :
    Drawn P.page (dataOf? n.title) (titleLine s n captioned).value.flatten := by
  simp only [titleLine]
  split
  · split
    · exact .part (.box (by simp [titleClass]) (by decide) (captionedTitle_drawn hs hn))
    · exact .part (.box (by simp [titleClass]) (by decide) (title_drawn hs hn))
  · exact Drawn.nil.within (List.nil_sublist _)

theorem verbatim_drawn : Drawn P.page (dataOf? n.text) (verbatim s n).value := by
  have htext := Node.supplied_text hn
  unfold verbatim
  cases hx : n.text with
  | some text =>
    rw [hx] at htext
    exact pageText_drawn hs htext
  | none =>
    cases n.source with
    | some source => exact .text _
    | none => exact .nil

end

theorem contentBox_drawn {parts : List Markup} (h : Drawn P ds parts.flatten) :
    Drawn P ds (contentBox parts) := .stack (by simp) (by decide) h

/-! ### Parts -/

theorem attribution_drawn (d : NodeData) : Drawn P [] (attribution d).flatten := by
  have hcite : ∀ cite : String, Drawn P [] [.element .cite [] [.text cite]] := fun _ =>
    .box (by simp) (by decide) (.text _)
  have hwho : ∀ {who : String} {m : Markup}, Drawn P [] m →
      Drawn P [] (.stack .div [attr .classes "attribution"] [.charRef 8212 :: .text who :: m]) :=
    fun hm => .stack (by simp) (by decide)
      (.part (.consLeaf (.charRef _) (.consLeaf (.text _) hm)))
  simp only [attribution]
  cases d.attr? "attribution" with
  | some who =>
    cases d.attr? "citetitle" with
    | some cite =>
      exact .part (hwho (.consLeaf (.void (by simp)) (.consLeaf (.text _) (hcite cite))))
    | none => exact .part (hwho .nil)
  | none =>
    cases d.attr? "citetitle" with
    | some cite => exact .part (.stack (by simp) (by decide) (.part (hcite cite)))
    | none => exact .nil

theorem preformatted_drawn (nowrap : Bool) {k : Markup} (hk : Drawn P.page ds k) :
    Drawn P.page ds (preformatted nowrap k) := by
  refine .box ?_ (by decide) hk
  split <;> simp

theorem equations_drawn (style : String) {k : Markup} (hk : Drawn P.page ds k) :
    Drawn P.page ds (equations style k) := by
  have delimited : ∀ (d : Equation.Delimiters) {m : Markup}, Drawn P.page ds m →
      Drawn P.page ds (Equation.delimit d m) := fun d m hm => by
    unfold Equation.delimit
    split
    · exact hm
    · exact .consLeaf (.text _) (.concatLeaf hm (.text _))
  simp only [equations]
  refine delimited _ ?_
  split
  · rename_i hstyle
    -- only AsciiMath is split, so the delimiters of the split are its own
    rw [hstyle, if_neg (by decide)]
    exact .split trivial hk
  · exact hk

theorem ordinary_dimensions (d : NodeData) : OrdinaryAttrs P (dimensions d) := by
  simp only [dimensions]
  refine ordinaryAttrs_append.2 ⟨fun a ha => ?_, by split <;> simp⟩
  obtain ⟨p, hp, rfl⟩ := List.mem_map.1 ha
  obtain ⟨q, hq, hpq⟩ := List.mem_filterMap.1 (List.mem_filter.1 hp).1
  obtain ⟨v, _, rfl⟩ := Option.map_eq_some_iff.1 hpq
  rcases List.mem_cons.1 hq with rfl | hq
  · simp
  · obtain rfl := List.mem_singleton.1 hq
    simp

theorem ordinary_placed (d : NodeData) (base : String) : OrdinaryAttrs P (placedAttrs d base) :=
  ordinaryAttrs_classes _

theorem playerFrame_drawn (hs : s.Supplied P) (d : NodeData) {size : List Attr}
    (hsize : OrdinaryAttrs P.page size) (address : String) :
    Drawn P.page [] (playerFrame s d size address) := by
  refine .box (ordinaryAttrs_append.2 ⟨hsize, ordinaryAttrs_cons.2 ⟨?_, ?_⟩⟩) (by decide) .nil
  · refine ⟨by simp [Attr.name], ?_, by simp [Attr.name]⟩
    simpa [Attr.rawValues, Piece.raw?] using Palette.Value.own (P.le_page.value hs.scheme)
  · simp [fullscreen]

/-! ### Sections and paragraphs -/

theorem linkedHeading_drawn {id : Option String} {heading : Markup} (h : Drawn P ds heading) :
    Drawn P ds (linkedHeading s id heading) := by
  have hlink : ∀ (v : String) (rest : List Attr), v ≠ "footnote" → OrdinaryAttrs P rest →
      ∀ {k : Markup} {es : List NodeData}, Drawn P es k →
        Drawn P es [.element .a (attr .classes v :: rest) k] :=
    fun v rest hv hrest _ _ hk => .link (by simpa using hrest) (.box v rest hv) hk
  unfold linkedHeading
  split
  · exact h
  · rename_i i
    have hself : Drawn P ds (if s.hasAttr "sectlinks" then
        [.element .a [attr .classes "link", attr .href ("#" ++ i)] heading] else heading) := by
      split
      · exact hlink "link" _ (by decide) (by simp) h
      · exact h
    have hanchor : Drawn P [] [.element .a [attr .classes "anchor", attr .href ("#" ++ i)] []] :=
      hlink "anchor" _ (by decide) (by simp) .nil
    simp only
    split
    · split
      · exact hself.concatLeaf hanchor
      · exact hanchor.consLeaf hself
    · exact hself

section

variable (hs : s.Supplied P) (hn : SuppliedAll s P n.walk)

include hs hn

theorem heading_drawn (hkind : n.kind = .section) :
    Drawn P.page (dataOf? n.title) (heading s n).value := by
  simp only [heading]
  split
  · exact captionedTitle_drawn hs hn
  · rename_i number _ hnumber
    split
    · have hraw : P.page.text number :=
        P.le_page.text ((Node.supplied_self hn).sectnum hkind number hnumber)
      exact .consLeaf (.raw hraw) (.consLeaf (.text _) (title_drawn hs hn))
    · exact title_drawn hs hn
  · exact title_drawn hs hn

variable (hc : Drawn P.page cs content.value)

include hc

theorem sectionBlock_drawn (hkind : n.kind = .section) :
    Drawn P.page (dataOf? n.title ++ cs) (sectionBlock s n content).value := by
  have hheading : Drawn P.page (dataOf? n.title) (linkedHeading s n.id (heading s n).value) :=
    linkedHeading_drawn (heading_drawn hs hn hkind)
  simp only [sectionBlock]
  split
  · exact .lines (.partCons (.box (ordinary_box hn (by simp)) nofun hheading) hc.part)
  · exact .stack (by simp) (by decide)
      (.partCons (.box (ordinary_id hn) nofun hheading) hc.part)

theorem paragraph_drawn : Drawn P.page (dataOf? n.title ++ cs) (paragraph s n content).value := by
  simp only [paragraph]
  split
  · refine .stack (ordinary_box hn (by simp)) (by decide) (.partCons ?_ (.part ?_))
    · exact .box (by simp [titleClass]) (by decide) (title_drawn hs hn)
    · exact .box (by simp) (by decide) hc
  · exact (Drawn.box (ordinary_box hn (by simp)) (by decide) hc).within
      (List.sublist_append_right _ _)

/-! ### Boxes -/

theorem admonition_drawn : Drawn P.page (dataOf? n.title ++ cs) (admonition s n content).value := by
  have hlabel : Drawn P.page [] (admonitionLabel s n.data) := by
    simp only [admonitionLabel]
    split
    · split
      · exact .box (by simp) (by decide) .nil
      · exact Inline.plainImage_drawn (by simp)
    · exact .box (by simp [titleClass]) (by decide) (.text _)
  simp only [admonition, Rendered.value_bind, Rendered.value_pure]
  refine .stack (ordinary_box hn (by simp)) (by decide) (.part (.stack (by simp) (by decide)
    (.part (.stack (by simp) (by decide) (.leafCons ?_ (.part ?_))))))
  · exact .stack (by simp) (by decide) hlabel.part
  · exact .stack (by simp) (by decide) ((titleLine_drawn hs hn false).partsConcat hc)

theorem exampleBlock_drawn :
    Drawn P.page (dataOf? n.title ++ cs) (exampleBlock s n content).value := by
  simp only [exampleBlock]
  split
  · have hsummary : ∀ {k : Markup}, Drawn P.page (dataOf? n.title) k →
        Drawn P.page (dataOf? n.title ++ cs) (.stack .details
          (n.data.idAttrs ++ n.data.roleAttrs ++ optFlag .opened (n.hasOption "open"))
          [[.element .summary titleClass k], contentBox [content.value]]) := fun hk => by
      refine .stack ?_ (by decide) (.partCons ?_ (.part (contentBox_drawn hc.part)))
      · rw [List.append_assoc]
        exact ordinary_box hn (by simp)
      · exact .box (by simp [titleClass]) (by decide) hk
    split
    · exact hsummary (title_drawn hs hn)
    · exact hsummary ((Drawn.text _).within (List.nil_sublist _))
  · exact .stack (ordinary_box hn (by simp)) (by decide)
      ((titleLine_drawn hs hn true).partsConcat (contentBox_drawn hc.part))

theorem quote_drawn : Drawn P.page (dataOf? n.title ++ cs) (quote s n content).value := by
  simp only [quote, Rendered.value_bind, Rendered.value_pure]
  refine .stack (ordinary_box hn (by simp)) (by decide)
    (.leavesAppend (.partsConcat (titleLine_drawn hs hn false) ?_) (attribution_drawn _))
  exact .stack (by simp) (by decide) hc.part

theorem sidebar_drawn : Drawn P.page (dataOf? n.title ++ cs) (sidebar s n content).value :=
  .stack (ordinary_box hn (by simp)) (by decide)
    (.part (contentBox_drawn ((titleLine_drawn hs hn false).partsConcat hc)))

theorem abstractBlock_drawn (parent : Option Parent) :
    Drawn P.page (dataOf? n.title ++ cs) (abstractBlock s n parent content).value := by
  simp only [abstractBlock]
  split
  · exact Drawn.nil.within (List.nil_sublist _)
  · refine .stack (ordinary_box hn (by simp)) (by decide)
      (.partsConcat (titleLine_drawn hs hn false) ?_)
    exact .stack (by simp) (by decide) hc.part

theorem openBlock_drawn (parent : Option Parent) :
    Drawn P.page (dataOf? n.title ++ cs) (openBlock s n parent content).value := by
  simp only [openBlock]
  split
  · exact abstractBlock_drawn hs hn hc parent
  · split
    · exact Drawn.nil.within (List.nil_sublist _)
    · exact .stack (ordinary_box hn (by simp)) (by decide)
        ((titleLine_drawn hs hn false).partsConcat (contentBox_drawn hc.part))

end

/-! ### Titles and lines of text -/

section

variable (hs : s.Supplied P) (hn : SuppliedAll s P n.walk)

include hs hn

theorem floatingTitle_drawn : Drawn P.page (dataOf? n.title) (floatingTitle s n).value :=
  .box (ordinary_box hn (by simp)) nofun (title_drawn hs hn)

theorem verse_drawn : Drawn P.page (dataOf? n.title ++ dataOf? n.text) (verse s n).value := by
  simp only [verse, Rendered.value_bind, Rendered.value_pure]
  refine .stack (ordinary_box hn (by simp)) (by decide)
    (.leavesAppend (.partsConcat (titleLine_drawn hs hn false) ?_) (attribution_drawn _))
  exact .box (by simp) (by decide) (verbatim_drawn hs hn)

/-! ### Verbatim blocks -/

theorem literalBlock_drawn :
    Drawn P.page (dataOf? n.title ++ dataOf? n.text) (literalBlock s n).value := by
  simp only [literalBlock, Rendered.value_bind, Rendered.value_pure]
  exact .stack (ordinary_box hn (by simp)) (by decide) (.partsConcat (titleLine_drawn hs hn false)
    (contentBox_drawn (.part (preformatted_drawn _ (verbatim_drawn hs hn)))))

theorem listingBody_drawn (hkind : n.kind = .listing) :
    Drawn P.page (dataOf? n.text) (listingBody s n (verbatim s n).value) := by
  have hverbatim := verbatim_drawn hs hn
  simp only [listingBody]
  split
  · rename_i hstyle
    split
    · rename_i h hh
      exact (Node.supplied_self hn).listing hkind hstyle h hh _ _ rfl hverbatim
    · refine .box (by simp) (by decide) (.box ?_ (by decide) hverbatim)
      split <;> simp
  · exact preformatted_drawn _ hverbatim

theorem listing_drawn (hkind : n.kind = .listing) :
    Drawn P.page (dataOf? n.title ++ dataOf? n.text) (listing s n).value := by
  simp only [listing, Rendered.value_bind, Rendered.value_pure]
  exact .stack (ordinary_box hn (by simp)) (by decide) (.partsConcat (titleLine_drawn hs hn true)
    (contentBox_drawn (.part (listingBody_drawn hs hn hkind))))

theorem stem_drawn : Drawn P.page (dataOf? n.title ++ dataOf? n.text) (stem s n).value := by
  simp only [stem, Rendered.value_bind, Rendered.value_pure]
  exact .stack (ordinary_box hn (by simp)) (by decide) (.partsConcat (titleLine_drawn hs hn false)
    (contentBox_drawn (.part (equations_drawn _ (verbatim_drawn hs hn)))))

/-! ### Images, audio and video -/

theorem audio_drawn : Drawn P.page (dataOf? n.title) (audio s n).value := by
  simp only [audio, Rendered.value_bind, Rendered.value_pure]
  refine .stack (ordinary_box hn (by simp)) (by decide) (.leavesAppend (titleLine_drawn hs hn false)
    (.part (contentBox_drawn (.part ?_))))
  exact .stack (by simp) (by decide) (.part (.text _))

theorem image_drawn (hkind : n.kind = .image) :
    Drawn P.page (dataOf? n.title) (image s n).value := by
  have hpicture : Drawn P.page [] (Inline.picture s n.data (dimensions n.data)).value :=
    Inline.picture_drawn (ordinary_dimensions _) fun x hx =>
      have hsvg := Inline.pictureSvg?_read hx
      P.le_page.text ((Node.supplied_self hn).svg (.inl hkind) hsvg.1 x hsvg.2)
  simp only [image, Rendered.value_bind, Rendered.value_pure]
  exact .stack (ordinary_box hn (ordinary_placed _ _)) (by decide)
    (.leafCons (contentBox_drawn (.part (Inline.linked_drawn hpicture)))
      (titleLine_drawn hs hn true))

theorem video_drawn : Drawn P.page (dataOf? n.title) (video s n).value := by
  have hsize : OrdinaryAttrs P.page
      (optAttr .width (n.attr? "width") ++ optAttr .height (n.attr? "height")) := by simp
  have hplayer : Drawn P.page [] (videoElement s n.data
      (optAttr .width (n.attr? "width") ++ optAttr .height (n.attr? "height"))) :=
    .stack (by simp) (by decide) (.part (.text _))
  simp only [video, Rendered.value_bind, Rendered.value_pure]
  refine .stack (ordinary_box hn (ordinary_placed _ _)) (by decide)
    (.leavesAppend (titleLine_drawn hs hn false) (.part (contentBox_drawn (.part ?_))))
  split
  · exact playerFrame_drawn hs _ hsize _
  · exact playerFrame_drawn hs _ hsize _
  · exact hplayer

end

end Block

end DocPress
