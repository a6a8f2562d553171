import DocPress.Proofs.DrawnInline

/-! The words of references. They are borrowed without their anchors, so they mark no footnote, even
when the title they come from has one. -/

namespace DocPress

set_option autoImplicit false

variable {P : Palette} {s : Scene}

/-- What the routines insert of the document and its options unescaped is in the palette. -/
structure Scene.Supplied (s : Scene) (P : Palette) : Prop where
  scheme : P.value s.assetScheme
  sign : ∀ name sign, s.attr? (name ++ "-refsig") = some sign → P.text sign
  defaultSign : ∀ name sign, Reference.defaultSign? name = some sign → P.text sign
  sectnum : ∀ id t, Reference.target? s id = some t → t.kind = .section →
    ∀ x, t.sectnum = some x → P.text (Text.trimEnd '.' x)
  title : ∀ id t, Reference.target? s id = some t → SuppliedAll s P (Node.walkOpt t.title)

namespace Reference

variable {t : RefTarget} {title : Option Markup}

theorem bracketed_drawn (id : String) : Drawn P [] (bracketed s id) := by
  unfold bracketed
  split
  · exact .text _
  · exact .text _

theorem plainWording_worded : Worded P (plainWording s) := fun _ id => bracketed_drawn id

/-- Fine markup between plain texts, or emphasized. -/
theorem basic_fine {m : Markup} (sectname : String) (h : FineAll P m) :
    FineAll P (basic sectname m) := by
  unfold basic
  split
  · exact ⟨⟨.plain (by simp) (by simp), h⟩, trivial⟩
  · exact h

theorem quoted_fine {m : Markup} (h : FineAll P m) :
    FineAll P (.charRef 8220 :: (m ++ [.charRef 8221])) :=
  ⟨trivial, fineAll_append.2 ⟨h, trivial, trivial⟩⟩

theorem quotedTitle_fine {m : Markup} (sectname : String) (h : FineAll P m) :
    FineAll P (quotedTitle sectname m) := by
  unfold quotedTitle
  split
  · exact ⟨⟨.plain (by simp) (by simp), h⟩, trivial⟩
  · exact quoted_fine h

theorem signed_fine (hs : s.Supplied P) {sectnum : String}
    (hnum : P.text (Text.trimEnd '.' sectnum)) (sectname : String) :
    FineAll P (signed s sectname sectnum) := by
  simp only [signed]
  split
  · rename_i sign hsign
    have hgiven := (Option.filter_eq_some_iff.1 hsign).1
    have hsign : P.text sign := by
      cases hown : s.attr? (sectname ++ "-refsig") with
      | some own =>
        rw [hown] at hgiven
        exact hs.sign sectname sign (hown.trans hgiven)
      | none =>
        rw [hown] at hgiven
        exact hs.defaultSign sectname sign hgiven
    exact ⟨.own hsign, trivial, .own hnum, trivial⟩
  · exact ⟨.own hnum, trivial⟩

theorem sectionWords_fine (hs : s.Supplied P)
    (hnum : ∀ x, t.sectnum = some x → P.text (Text.trimEnd '.' x))
    (htitle : ∀ m ∈ title, FineAll P m) (style : Option String) :
    ∀ m ∈ sectionWords s t style title, FineAll P m := by
  have hbasic : ∀ m ∈ title.map (basic (t.sectname.getD "section")), FineAll P m := by
    intro m hm
    obtain ⟨k, hk, rfl⟩ := Option.map_eq_some_iff.1 hm
    exact basic_fine _ (htitle k hk)
  have hgot : FineAll P (title.getD []) := by
    cases title with
    | none => trivial
    | some m => exact htitle m rfl
  have hnumber : ∀ x, (if t.numbered then t.sectnum else none) = some x →
      P.text (Text.trimEnd '.' x) := by
    intro x hx
    split at hx
    · exact hnum x hx
    · exact absurd hx nofun
  intro m hm
  simp only [sectionWords] at hm
  split at hm
  · exact htitle m hm
  · exact hbasic m hm
  · rename_i sectnum hx
    obtain rfl := Option.some.inj hm
    exact fineAll_append.2 ⟨signed_fine hs (hnumber _ hx) _, trivial, quotedTitle_fine _ hgot⟩
  · rename_i sectnum hx
    obtain rfl := Option.some.inj hm
    exact signed_fine hs (hnumber _ hx) _
  · exact hbasic m hm

theorem captionWords_fine (htitle : ∀ m ∈ title, FineAll P m) (style : Option String) :
    ∀ m ∈ captionWords t style title, FineAll P m := by
  intro m hm
  unfold captionWords at hm
  split at hm
  · obtain rfl := Option.some.inj hm
    exact ⟨trivial, quoted_fine (htitle _ rfl)⟩
  · obtain rfl := Option.some.inj hm
    exact ⟨trivial, trivial⟩
  · exact htitle m hm

theorem offered_fine (hs : s.Supplied P) {id : String} (ht : target? s id = some t)
    (style : Option String) : ∀ m ∈ (offered s t style).value, FineAll P m := by
  intro m hm
  unfold offered at hm
  split at hm
  · obtain rfl := Option.some.inj hm
    exact ⟨trivial, trivial⟩
  · have words : ∀ title : Option Markup, (∀ k ∈ title, FineAll P k) →
        ∀ k ∈ (if t.kind = .section then sectionWords s t style title
          else captionWords t style title), FineAll P k := by
      intro title htitle k hk
      split at hk
      · rename_i hkind
        exact sectionWords_fine hs (hs.sectnum id t ht hkind) htitle style k hk
      · exact captionWords_fine htitle style k hk
    cases htitle : t.title with
    | none =>
      rw [htitle] at hm
      exact words none (by simp) m hm
    | some ns =>
      rw [htitle] at hm
      have hns : SuppliedAll s P (Node.walkAll ns) := by
        have h := hs.title id t ht
        rwa [htitle] at h
      refine words _ (fun k hk => ?_) m hm
      obtain rfl := Option.some.inj hk
      exact (inlines_drawn (Palette.Le.refl P) plainWording_worded ns hns.inText).fine

theorem wordsFor_drawn (hs : s.Supplied P) (style : Option String) (id : String) :
    Drawn P.words [] (wordsFor s style id).value := by
  unfold wordsFor
  split
  · exact bracketed_drawn id
  · rename_i t ht
    have hfine := offered_fine hs ht style
    simp only [Rendered.value_bind]
    split
    · rename_i words hwords
      rw [Rendered.value_pure]
      split
      · exact bracketed_drawn id
      · exact .withoutAnchors (hfine words hwords)
    · exact bracketed_drawn id

theorem wording_worded (hs : s.Supplied P) : Worded P.words (wording s) :=
  fun _ id => wordsFor_drawn hs _ id

end Reference

theorem runningText_drawn (hs : s.Supplied P) {ns : List Node}
    (hns : SuppliedAll s P (Node.walkAll ns)) :
    Drawn P.words (dataOf ns) (runningText s ns).value :=
  inlines_drawn P.le_words (Reference.wording_worded hs) ns hns.inText

end DocPress
