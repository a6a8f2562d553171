import DocPress.Proofs.Indexing
import DocPress.Proofs.Nesting

/-! What stays where it is inserted. Escaped texts can neither open a tag nor end a value, and nor
can the numbers of footnotes that preparation gives. Channels are exempt, and so is nothing else:
the few texts that leak into a page unescaped are named, and a page is contained exactly when none
of them breaks out of its place. -/

namespace DocPress

set_option autoImplicit false

variable {s : Scene}

/-! ### Inserted files -/

namespace Svg

/-- Whether a text is that of a file, less some of it, with attributes put in whose values stay
where they are inserted. -/
def Sized (svg x : String) : Prop :=
  ∃ before attrs after, x.toList = before ++ attrChars attrs ++ after ∧
    (before ++ after).Sublist svg.toList ∧ (∀ a ∈ attrs, a.name.Known) ∧
    ∀ y ∈ attrs.flatMap Attr.inserted, y.Held

theorem fromRoot?_sublist : ∀ {cs root : List Char}, fromRoot? cs = some root → root.Sublist cs
  | [], _, h => absurd h nofun
  | c :: rest, root, h => by
    unfold fromRoot? at h
    split at h
    · obtain rfl := Option.some.inj h
      exact .refl _
    · exact (fromRoot?_sublist h).cons c

theorem dropPreamble_sublist (cs : List Char) : (dropPreamble cs).Sublist cs := by
  unfold dropPreamble
  split
  · exact .refl _
  · cases h : fromRoot? cs with
    | none => exact .refl _
    | some root => exact fromRoot?_sublist h

theorem dropDimensions_sublist : ∀ (skip : Nat) (cs : List Char),
    (dropDimensions skip cs).Sublist cs
  | 0, [] => .refl _
  | _ + 1, [] => .refl _
  | skip + 1, c :: rest => (dropDimensions_sublist skip rest).cons c
  | 0, c :: rest => by
    unfold dropDimensions
    split
    · exact (dropDimensions_sublist _ rest).cons c
    · exact (dropDimensions_sublist 0 rest).cons_cons c

theorem dropDimensions_inner (inner : List Char) :
    (dropDimensions 0 (inner ++ ['>'])).dropLast.Sublist inner := by
  have h := dropDimensions_sublist 0 (inner ++ ['>'])
  rcases List.sublist_append_iff.1 h with ⟨a, b, hab, ha, hb⟩
  rw [hab]
  rcases List.sublist_cons_iff.1 hb with hb | ⟨c, rfl, hc⟩
  · obtain rfl := List.sublist_nil.1 hb
    rw [List.append_nil]
    exact (List.dropLast_sublist a).trans ha
  · obtain rfl := List.sublist_nil.1 hc
    rw [List.dropLast_concat]
    exact ha

theorem sized_refl {svg x : String} (h : x.toList.Sublist svg.toList) : Sized svg x := by
  refine ⟨x.toList, [], [], ?_, ?_, nofun, nofun⟩
  · simp [attrChars]
  · rwa [List.append_nil]

theorem sized_resize (svg : String) (width height : Option String) :
    Sized svg (resize svg width height) := by
  have hroot : (dropPreamble svg.toList).Sublist svg.toList := dropPreamble_sublist svg.toList
  have whole : Sized svg (String.ofList (dropPreamble svg.toList)) :=
    sized_refl (by rwa [String.toList_ofList])
  unfold resize
  simp only []
  split
  · exact whole
  · split
    · rename_i tag rest htag
      unfold splitStartTag? at htag
      split at htag
      · obtain ⟨⟨inner, rest'⟩, hcut, hp⟩ := Option.map_eq_some_iff.1 htag
        obtain ⟨rfl, rfl⟩ := Prod.mk.inj hp
        have hcs := Text.eq_of_cut hcut
        refine ⟨(dropDimensions 0 (inner ++ ['>'])).dropLast,
          optAttr .width width ++ optAttr .height height, '>' :: rest', ?_, ?_, ?_, ?_⟩
        · rw [String.toList_ofList]
        · refine ((dropDimensions_inner inner).append (.refl _)).trans ?_
          rwa [← hcs]
        · cases width <;> cases height <;> simp [optAttr, attr, Attr.name, AttrName.Known]
        · cases width <;> cases height <;>
            simp [optAttr, attr, Attr.inserted, Piece.chars, Inserted.held_value,
              (not_mem_escapedAttribute _).2]
      · cases htag
    · exact whole

end Svg

/-! ### Leaks -/

/-- The number of a footnote that preparation does not reach: one in the header, or in the text of
a footnote as the catalog has it. -/
def StaleNumber (s : Scene) (x : String) : Prop :=
  ∃ n, (n ∈ s.doc.headerNodes ∨ ∃ f ∈ s.doc.catalog.footnotes, n ∈ Node.walkAll f.text) ∧
    n.kind = .inlineFootnote ∧ n.attr? indexName = some x

/-- A text of the document or its files that is inserted unescaped and is no channel. -/
inductive Leak (s : Scene) : String → Prop
  | text {x : String} (h : SplicedText s x) : Leak s x
  | value {x : String} (h : SplicedValue s x) : Leak s x
  | number {x : String} (h : StaleNumber s x) : Leak s x

theorem title_prepared {d : Document} {defaults : SortedMap String}
    (hd : s.doc = d.prepareWith defaults) {id : String} {t : RefTarget}
    (ht : s.doc.catalog.ref? id = some t) {n : Node} (hn : n ∈ Node.walkOpt t.title) :
    n ∈ s.doc.headerNodes ∨ n ∈ s.doc.root.walk := by
  have hregistered : n ∈ s.doc.registered := by
    rw [hd] at ht ⊢
    exact Document.target_prepared ht hn
  exact (List.mem_append.1 hregistered).imp_left Document.mem_headerNodes

/-- The numbers of footnotes on a page of a prepared document are decimal, but for stale ones. -/
theorem number_prepared {d : Document} {defaults : SortedMap String}
    (hd : s.doc = d.prepareWith defaults) {x : String} (h : SplicedNumber s x) :
    (∃ i : Nat, x = toString i) ∨ StaleNumber s x := by
  obtain ⟨n, hn, hk, hx⟩ := h
  have inTree : n ∈ s.doc.root.walk → ∃ i : Nat, x = toString i := by
    intro hn
    rw [hd] at hn
    obtain ⟨i, _, _, hi⟩ := index_indexFootnotes _ hn hk hx
    exact ⟨i, hi⟩
  cases hn with
  | tree hn => exact .inl (inTree hn)
  | header hn => exact .inr ⟨n, .inl hn, hk, hx⟩
  | note hf hn => exact .inr ⟨n, .inr ⟨_, hf, hn⟩, hk, hx⟩
  | target ht hn =>
    rcases title_prepared hd ht hn with hn | hn
    · exact .inr ⟨n, .inl hn, hk, hx⟩
    · exact .inl (inTree hn)

/-! ### Texts that are meant, and texts that leak -/

/-- Whether markup for borrowing holds what it inserts, channels apart. -/
def Kept (s : Scene) (m : Markup) : Prop :=
  ∀ x ∈ insertedOf m, x.Held ∨ ∃ r, Channel s r ∧ x = .text r.toList

/-- A text that is meant to be inserted as it is: a channel, the written form of kept markup whose
words are borrowed, or a character of such a text in an equation. -/
inductive Meant (s : Scene) : String → Prop
  | channel {x : String} (h : Channel s x) : Meant s x
  | borrowed {m : Markup} (hm : FineAll (.origins s) m) (htags : (rawsOf m).all isTagFree = false)
    (h : Kept s m) : Meant s (String.ofList (dropAnchors m.chars))
  | glyph {x : String} {c : Char} (h : Meant s x) (hc : c ∈ x.toList) : Meant s c.toString

/-- A text outside of tags that leaks: a spliced text, a stale number, the written form of borrowed
markup that is not kept, or a character of such a text in an equation. -/
inductive LeakedText (s : Scene) : String → Prop
  | own {x : String} (h : SplicedText s x) : LeakedText s x
  | number {x : String} (h : StaleNumber s x) : LeakedText s x
  | borrowed {m : Markup} (hm : FineAll (.origins s) m) (htags : (rawsOf m).all isTagFree = false)
    (h : ¬ Kept s m) : LeakedText s (String.ofList (dropAnchors m.chars))
  | glyph {x : String} {c : Char} (h : LeakedText s x) (hc : c ∈ x.toList) :
    LeakedText s c.toString

/-- A part of an attribute value that leaks. -/
inductive LeakedValue (s : Scene) : String → Prop
  | own {x : String} (h : SplicedValue s x) : LeakedValue s x
  | number {x : String} (h : StaleNumber s x) : LeakedValue s x
  | glyph {x : String} {c : Char} (h : LeakedValue s x) (hc : c ∈ x.toList) :
    LeakedValue s c.toString

/-- Whether a stretch of the text is meant to stand there as it is. None in a value is. -/
def Inserted.Meant (s : Scene) : Inserted → Prop
  | .text cs => ∃ x, DocPress.Meant s x ∧ cs = x.toList
  | .value _ => False

def Inserted.Leaked (s : Scene) : Inserted → Prop
  | .text cs => ∃ x, LeakedText s x ∧ cs = x.toList
  | .value cs => ∃ x, LeakedValue s x ∧ cs = x.toList

/-- Whether all that markup inserts stays where it is inserted, unless it is meant not to. -/
def Contained (s : Scene) (m : Markup) : Prop := ∀ x ∈ insertedOf m, x.Held ∨ x.Meant s

theorem not_mem_char {x : String} {c d : Char} (hx : d ∉ x.toList) (hc : c ∈ x.toList) :
    d ∉ c.toString.toList := by
  intro hd
  obtain rfl : d = c := by simpa using hd
  exact hx hc

section

variable {d : Document} {defaults : SortedMap String} (hd : s.doc = d.prepareWith defaults)

include hd

/-- Where the unescaped texts of a page come from that hold a bracket. -/
theorem text_origin {x : String} (h : (Palette.origins s).page.Text x) :
    '<' ∉ x.toList ∨ Meant s x ∨ LeakedText s x := by
  -- By how the text came to stand there: a character comes from where its text comes from.
  induction h with
  | own h =>
    rcases h with (h | h | ⟨name, hname⟩) | ⟨m, hm, htags, rfl⟩
    · exact .inr (.inl (.channel h))
    · exact .inr (.inr (.own h))
    · exact .inl (Reference.defaultSign_inert hname).no_bracket
    · by_cases hkept : Kept s m
      · exact .inr (.inl (.borrowed hm htags hkept))
      · exact .inr (.inr (.borrowed hm htags hkept))
  | number h =>
    rcases number_prepared hd h with ⟨i, rfl⟩ | h
    · exact .inl (Inert.decimal i).no_bracket
    · exact .inr (.inr (.number h))
  | glyph _ _ hc ih =>
    rcases ih with h | h | h
    · exact .inl (not_mem_char h hc)
    · exact .inr (.inl (.glyph h hc))
    · exact .inr (.inr (.glyph h hc))

theorem value_origin {x : String} (h : (Palette.origins s).page.Value x) :
    '"' ∉ x.toList ∨ LeakedValue s x := by
  induction h with
  | own h => exact .inr (.own h)
  | number h =>
    rcases number_prepared hd h with ⟨i, rfl⟩ | h
    · exact .inl (Inert.decimal i).no_quote
    · exact .inr (.number h)
  | glyph _ _ hc ih =>
    rcases ih with h | h
    · exact .inl (not_mem_char h hc)
    · exact .inr (.glyph h hc)
  | joint _ ends =>
    rw [String.toList_ofList]
    exact .inl (Equation.no_quote_joint ends)

theorem inserted_origin {m : Markup} (hm : FineAll (Palette.origins s).page m) :
    ∀ x ∈ insertedOf m, x.Held ∨ x.Meant s ∨ x.Leaked s := by
  intro x hx
  obtain ⟨htexts, hvalues⟩ := FineAll.raws m hm
  rcases markup_inserted m x hx with h | h
  · exact .inl h
  · cases x with
    | text cs =>
      obtain ⟨r, hr, rfl⟩ := h
      rcases text_origin hd (htexts r hr) with h | h | h
      · exact .inl (Inserted.held_text.2 h)
      · exact .inr (.inl ⟨r, h, rfl⟩)
      · exact .inr (.inr ⟨r, h, rfl⟩)
    | value cs =>
      obtain ⟨r, hr, rfl⟩ := h
      rcases value_origin hd (hvalues r hr) with h | h
      · exact .inl (Inserted.held_value.2 h)
      · exact .inr (.inr ⟨r, h, rfl⟩)

/-- A page is contained exactly when no leak breaks out of its place. -/
theorem contained_iff {m : Markup} (hm : FineAll (Palette.origins s).page m) :
    Contained s m ↔ ∀ x ∈ insertedOf m, x.Leaked s → x.Held ∨ x.Meant s := by
  constructor
  · exact fun h x hx _ => h x hx
  · intro h x hx
    rcases inserted_origin hd hm x hx with hx' | hx' | hx'
    · exact .inl hx'
    · exact .inr hx'
    · exact h x hx hx'

end

/-! ### Harmless leaks -/

section

variable {d : Document} {defaults : SortedMap String} (hd : s.doc = d.prepareWith defaults)
  (hl : ∀ x, Leak s x → Inert x)

include hd hl

theorem number_inert {x : String} (h : SplicedNumber s x) : Inert x := by
  rcases number_prepared hd h with ⟨i, rfl⟩ | h
  · exact .decimal i
  · exact hl x (.number h)

theorem kept_of_leaks {m : Markup} (hm : FineAll (.origins s) m) : Kept s m := by
  intro x hx
  obtain ⟨htexts, hvalues⟩ := FineAll.raws m hm
  rcases markup_inserted m x hx with h | h
  · exact .inl h
  · cases x with
    | text cs =>
      obtain ⟨r, hr, rfl⟩ := h
      rw [Inserted.held_text]
      cases htexts r hr with
      | own h =>
        rcases h with h | h | ⟨name, hname⟩
        · exact .inr ⟨r, h, rfl⟩
        · exact .inl (hl r (.text h)).no_bracket
        · exact .inl (Reference.defaultSign_inert hname).no_bracket
      | number h => exact .inl (number_inert hd hl h).no_bracket
      | glyph hs _ _ => exact absurd hs id
    | value cs =>
      obtain ⟨r, hr, rfl⟩ := h
      rw [Inserted.held_value]
      cases hvalues r hr with
      | own h => exact .inl (hl r (.value h)).no_quote
      | number h => exact .inl (number_inert hd hl h).no_quote
      | glyph hs _ _ => exact absurd hs id
      | joint hs _ => exact absurd hs id

theorem leakedText_held {x : String} (h : LeakedText s x) : '<' ∉ x.toList := by
  induction h with
  | own h => exact (hl _ (.text h)).no_bracket
  | number h => exact (hl _ (.number h)).no_bracket
  | borrowed hm _ hkept => exact absurd (kept_of_leaks hd hl hm) hkept
  | glyph _ hc ih => exact not_mem_char ih hc

omit hd in
theorem leakedValue_held {x : String} (h : LeakedValue s x) : '"' ∉ x.toList := by
  induction h with
  | own h => exact (hl _ (.value h)).no_quote
  | number h => exact (hl _ (.number h)).no_quote
  | glyph _ hc ih => exact not_mem_char ih hc

theorem contained_of_leaks {m : Markup} (hm : FineAll (Palette.origins s).page m) :
    Contained s m := by
  rw [contained_iff hd hm]
  intro x _ hx
  cases x with
  | text cs =>
    obtain ⟨r, hr, rfl⟩ := hx
    exact .inl (Inserted.held_text.2 (leakedText_held hd hl hr))
  | value cs =>
    obtain ⟨r, hr, rfl⟩ := hx
    exact .inl (Inserted.held_value.2 (leakedValue_held hl hr))

theorem origins_inert (hc : ∀ x, Channel s x → Inert x) : (Palette.origins s).Inert where
  text := by
    rintro x (h | h | ⟨name, hname⟩)
    · exact hc x h
    · exact hl x (.text h)
    · exact Reference.defaultSign_inert hname
  value h := hl _ (.value h)
  number := number_inert hd hl
  whole := id

end

/-! ### Contained output -/

/-- The pages of a prepared document, whole or embedded. All their tags and attribute names are
those of templates, and all that they insert is held, meant, or leaks. They are contained exactly
when no leak breaks out, so they are if leaks are inert, and if channels are inert too, then they
are read as they were made. Nothing but attributes whose values are held is put into the files of
images. -/
theorem Converter.output_contained (c : Converter) (d : Document) (defaults : SortedMap String)
    (hh : c.highlighter = none ∨ c.highlighter = some HighlightJs.highlighter) :
    let s := c.scene (d.prepareWith defaults)
    (∀ m ∈ [(Page.standalone s).value, (Page.embedded s).value],
      NamedAll m ∧
      (∀ x ∈ insertedOf m, x.Held ∨ x.Meant s ∨ x.Leaked s) ∧
      (Contained s m ↔ ∀ x ∈ insertedOf m, x.Leaked s → x.Held ∨ x.Meant s) ∧
      ((∀ x, Leak s x → Inert x) → Contained s m) ∧
      ((∀ x, Leak s x → Inert x) → (∀ x, Channel s x → Inert x) →
        readTags m.chars = some (tagsOf m))) ∧
    ∀ n target x, (Svg.read s n target).value = some x →
      ∃ svg, s.files.read (Svg.pathOf s target) = .ok svg ∧ Svg.Sized svg x := by
  intro s
  refine ⟨fun m hm => ?_, fun n target x hx => ?_⟩
  · have hfine : FineAll (Palette.origins s).page m := by
      simp only [List.mem_cons, List.not_mem_nil, or_false] at hm
      rcases hm with rfl | rfl
      · exact standalone_fine hh
      · exact embedded_fine hh
    refine ⟨FineAll.named m hfine, inserted_origin rfl hfine, contained_iff rfl hfine,
      fun hl => ?_, fun hl hc => ?_⟩
    · exact contained_of_leaks rfl hl hfine
    · have hsealed : Sealed m := (origins_inert rfl hl hc).sealed hfine
      exact hsealed.read (FineAll.named m hfine)
  · obtain ⟨svg, hfile, rfl⟩ := Svg.read_eq_some hx
    exact ⟨svg, hfile, Svg.sized_resize svg _ _⟩

/-- A document with a block that is passed through, and a footnote whose text is to be escaped. -/
def channelSample : Document := Document.blank.withBlocks [
  .leaf { kind := .pass, source := some "<b>bold</b>" },
  { Node.leaf {} with text := some [
    { Node.ofKind .inlineFootnote with text := some [.plain "\"><i>"] }] }]

theorem Converter.output_contained_channelSample :
    let s := (⟨.initial, some HighlightJs.highlighter, .blank⟩ : Converter).scene
      (channelSample.prepareWith ∅)
    (∀ x, Leak s x → Inert x) ∧ Contained s (Page.standalone s).value := by
  intro s
  have htree : ∀ n ∈ s.doc.root.walk, n.kind ≠ .section := by decide
  have hnotes : ∀ f ∈ s.doc.catalog.footnotes, ∀ n ∈ Node.walkAll f.text,
      n.kind ≠ .section ∧ n.kind ≠ .inlineFootnote := by decide
  have hsection : ∀ n, s.doc.Holds n → n.kind ≠ .section := by
    intro n hn
    cases hn with
    | tree h => exact htree n h
    | header h => exact absurd h nofun
    | target ht _ => exact absurd ht nofun
    | note hf h => exact (hnotes _ hf n h).1
  have htarget : ∀ id t, Reference.target? s id = some t → t.kind ≠ .section := by
    intro id t ht
    unfold Reference.target? at ht
    split at ht
    · rename_i h
      exact absurd h nofun
    · split at ht
      · obtain rfl := Option.some.inj ht
        decide
      · exact absurd ht nofun
  have hinert : ∀ x, Leak s x → Inert x := by
    intro x hx
    cases hx with
    | text h =>
      cases h with
      | sign h => exact absurd h nofun
      | sectnum hn hk _ => exact absurd hk (hsection _ hn)
      | target ht hk _ => exact absurd hk (htarget _ _ ht)
    | value h =>
      cases h with
      | scheme => exact .of_all (by decide)
      | favicon h => exact absurd h nofun
    | number h =>
      obtain ⟨n, hn, hk, _⟩ := h
      rcases hn with hn | ⟨f, hf, hn⟩
      · exact absurd hn nofun
      · exact absurd hk (hnotes f hf n hn).2
  refine ⟨hinert, ?_⟩
  have h := (Converter.output_contained ⟨.initial, some HighlightJs.highlighter, .blank⟩
    channelSample ∅ (.inr rfl)).1 (Page.standalone s).value List.mem_cons_self
  exact h.2.2.2.1 hinert

/-- A document with a video on YouTube and a scheme that ends the address of the player. -/
def breakout : Document :=
  let attributes := SortedMap.empty.insert "poster" (.text "youtube")
  let video : NodeData := { kind := .video, target := some "x", attributes }
  (Document.blank.withAttr "asset-uri-scheme" (.text "\"><script>")).withBlocks [.leaf video]

/-- The scheme ends the value that it is inserted into and opens a tag that no template has. -/
theorem Converter.embedded_breakout :
    let s := (⟨.initial, none, .blank⟩ : Converter).scene (breakout.prepareWith ∅)
    let m := (Page.embedded s).value
    ¬ Contained s m ∧
      ((readTags m.chars).getD []).any (·.name = "script".toList) = true ∧
      (tagsOf m).any (·.name = "script".toList) = false := by
  intro s m
  refine ⟨fun h => ?_, by decide, by decide⟩
  have hm : Inserted.value "\"><script>:".toList ∈ insertedOf m := by decide
  rcases h _ hm with hheld | hmeant
  · exact absurd (Inserted.held_value.1 hheld) (by decide)
  · exact hmeant

end DocPress
