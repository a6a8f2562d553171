import DocPress.Proofs.Drawn

/-! Taking anchors out of what is written and out of the tree comes to the same. The written form is
searched for tags by their first characters; in markup whose unescaped texts hold no part of a tag,
it finds the tags of the anchors and nothing else. -/

namespace DocPress

set_option autoImplicit false

/-! ### Stretches without brackets -/

theorem isTagFree_iff {s : String} : isTagFree s = true ↔ TagFree s.toList := by
  simp [isTagFree, TagFree]

namespace TagFree

theorem digits (n : Nat) : TagFree (toString n).toList := by
  intro c hc
  have hdigit := isDigit_of_mem_toString hc
  constructor
  · rintro rfl
    exact absurd hdigit (by decide)
  · rintro rfl
    exact absurd hdigit (by decide)

theorem tagName (tag : Tag) : TagFree tag.name.toList := by
  cases tag with
  | heading level =>
    rw [heading_name]
    exact append (a := ['h']) (forall_mem_of_all (by decide)) (digits _)
  | _ => exact forall_mem_of_all (by decide)

theorem voidName (tag : VoidTag) : TagFree tag.name.toList := by
  cases tag <;> exact forall_mem_of_all (by decide)

theorem attrName {name : AttrName} (h : ∀ x ∈ name.custom?.toList, isTagFree x = true) :
    TagFree name.spelling.toList := by
  cases name with
  | custom spelling => exact isTagFree_iff.mp (h spelling List.mem_cons_self)
  | _ => exact forall_mem_of_all (by decide)

theorem piece {p : Piece} (h : ∀ x ∈ p.raw?, isTagFree x = true) : TagFree p.chars := by
  cases p with
  | escaped s => exact escapedAttribute _
  | raw s => exact isTagFree_iff.mp (h s rfl)

theorem attr {a : Attr} (h : ∀ x ∈ a.raws, isTagFree x = true) : TagFree a.chars := by
  have hsign (c : Char) (hc : c ≠ '<' ∧ c ≠ '>') {cs : List Char} (hcs : TagFree cs) :
      TagFree (c :: cs) := List.forall_mem_cons.mpr ⟨hc, hcs⟩
  cases a with
  | flag name => exact hsign ' ' (by decide) (attrName h)
  | value name pieces =>
    obtain ⟨hname, hpieces⟩ := List.forall_mem_append.mp h
    have hvalue : TagFree (pieces.flatMap Piece.chars) := flatMap fun p hp =>
      piece fun x hx => hpieces x (List.mem_filterMap.mpr ⟨p, hp, hx⟩)
    apply hsign ' ' (by decide)
    apply append (attrName hname)
    apply hsign '=' (by decide)
    apply hsign '"' (by decide)
    exact append hvalue (hsign '"' (by decide) nofun)

theorem attrs {attrs : List Attr} (h : ∀ x ∈ attrs.flatMap Attr.raws, isTagFree x = true) :
    TagFree (attrChars attrs) :=
  flatMap fun _ ha => attr fun x hx => h x (List.mem_flatMap.mpr ⟨_, ha, hx⟩)

end TagFree

/-! ### Tags as they are found -/

theorem dropAnchorTags_skip {cs : List Char} {n : Nat} (h : cs.length = n) (rest : List Char) :
    dropAnchorTags n (cs ++ rest) = dropAnchorTags 0 rest := by
  induction cs generalizing n with
  | nil =>
    subst h
    rfl
  | cons c cs ih =>
    subst h
    exact ih rfl

theorem dropAnchorTags_keep {c : Char} {rest : List Char}
    (h : anchorTagLength? (c :: rest) = none) :
    dropAnchorTags 0 (c :: rest) = c :: dropAnchorTags 0 rest := by
  rw [dropAnchorTags, h]

theorem dropAnchorTags_drop {c : Char} {cs rest : List Char}
    (h : anchorTagLength? (c :: (cs ++ rest)) = some (cs.length + 1)) :
    dropAnchorTags 0 (c :: (cs ++ rest)) = dropAnchorTags 0 rest := by
  rw [dropAnchorTags, h]
  exact dropAnchorTags_skip rfl rest

theorem anchorTagLength?_text {c : Char} (h : c ≠ '<') (rest : List Char) :
    anchorTagLength? (c :: rest) = none := by
  unfold anchorTagLength?
  split <;> simp_all

/-- What holds no bracket is kept. -/
theorem dropAnchorTags_text {cs : List Char} (h : '<' ∉ cs) (rest : List Char) :
    dropAnchorTags 0 (cs ++ rest) = cs ++ dropAnchorTags 0 rest := by
  induction cs with
  | nil => rfl
  | cons c cs ih =>
    have hc : c ≠ '<' := fun hc => h (hc ▸ List.mem_cons_self)
    have hcs : '<' ∉ cs := fun hm => h (List.mem_cons_of_mem c hm)
    rw [List.cons_append, dropAnchorTags_keep (anchorTagLength?_text hc _), ih hcs]
    rfl

theorem not_mem_of_tagFree {cs : List Char} (h : TagFree cs) : '<' ∉ cs := fun hm => (h _ hm).1 rfl

theorem isWordChar_gap : Text.isWordChar ' ' = false ∧ Text.isWordChar '>' = false := by
  decide +kernel

theorem Tag.start_not_anchor {tag : Tag} (h : tag ≠ .a) (rest : List Char) :
    anchorTagLength? ('<' :: (tag.name.toList ++ rest)) = none := by
  cases tag with
  | a => exact absurd rfl h
  | heading level =>
    rw [heading_name]
    rfl
  | _ => rfl

theorem Tag.stop_not_anchor {tag : Tag} (h : tag ≠ .a) (rest : List Char) :
    anchorTagLength? ('<' :: '/' :: (tag.name.toList ++ rest)) = none := by
  cases tag with
  | a => exact absurd rfl h
  | heading level =>
    rw [heading_name]
    rfl
  | _ => rfl

theorem VoidTag.start_not_anchor (tag : VoidTag) (rest : List Char) :
    anchorTagLength? ('<' :: (tag.name.toList ++ rest)) = none := by
  cases tag <;> rfl

theorem cut_tagFree {cs : List Char} (h : TagFree cs) (rest : List Char) :
    Text.cut '>' (cs ++ '>' :: rest) = some (cs, rest) := by
  induction cs with
  | nil => rfl
  | cons c cs ih =>
    obtain ⟨hc, hcs⟩ := List.forall_mem_cons.mp h
    rw [List.cons_append, Text.cut, if_neg hc.2, ih hcs]
    rfl

theorem attrChars_gap (attrs : List Attr) :
    attrChars attrs = [] ∨ ∃ cs, attrChars attrs = ' ' :: cs := by
  cases attrs with
  | nil => exact .inl rfl
  | cons a attrs =>
    cases a with
    | flag name => exact .inr ⟨_, rfl⟩
    | value name pieces => exact .inr ⟨_, rfl⟩

section Tags

variable {attrs : List Attr} {rest : List Char}

theorem anchorTagLength?_start (h : TagFree (attrChars attrs)) :
    anchorTagLength? ('<' :: (('a' :: (attrChars attrs ++ ['>'])) ++ rest)) =
      some (('a' :: (attrChars attrs ++ ['>'])).length + 1) := by
  have hcut := cut_tagFree h rest
  have hlength : ('a' :: (attrChars attrs ++ ['>'])).length + 1 = (attrChars attrs).length + 3 := by
    simp
  rw [hlength]
  simp only [List.cons_append, List.append_assoc, List.nil_append]
  rcases attrChars_gap attrs with hattrs | ⟨cs, hattrs⟩
  · rw [hattrs] at hcut ⊢
    simp only [List.nil_append] at hcut ⊢
    rw [anchorTagLength?, if_neg (by simp [isWordChar_gap]), hcut]
    rfl
  · rw [hattrs] at hcut ⊢
    simp only [List.cons_append] at hcut ⊢
    rw [anchorTagLength?, if_neg (by simp [isWordChar_gap]), hcut]
    rfl

/-- The start tag of an anchor is found whole. -/
theorem dropAnchorTags_start (h : TagFree (attrChars attrs)) :
    dropAnchorTags 0 ('<' :: (Tag.a.name.toList ++ (attrChars attrs ++ '>' :: rest))) =
      dropAnchorTags 0 rest := by
  have hsplit : '<' :: (Tag.a.name.toList ++ (attrChars attrs ++ '>' :: rest)) =
      '<' :: (('a' :: (attrChars attrs ++ ['>'])) ++ rest) := by
    simp [Tag.name]
  rw [hsplit]
  exact dropAnchorTags_drop (anchorTagLength?_start h)

theorem dropAnchorTags_stop (rest : List Char) :
    dropAnchorTags 0 ('<' :: '/' :: (Tag.a.name.toList ++ '>' :: rest)) =
      dropAnchorTags 0 rest := rfl

/-- A stretch that begins with a bracket of no anchor and holds no other bracket is kept. -/
theorem dropAnchorTags_other (cs rest : List Char)
    (hfirst : anchorTagLength? ('<' :: (cs ++ rest)) = none) (h : '<' ∉ cs) :
    dropAnchorTags 0 ('<' :: (cs ++ rest)) = '<' :: (cs ++ dropAnchorTags 0 rest) := by
  rw [dropAnchorTags_keep hfirst, dropAnchorTags_text h]

variable {name : List Char}

theorem dropAnchorTags_otherStart
    (hfirst : ∀ rest, anchorTagLength? ('<' :: (name ++ rest)) = none) (hname : TagFree name)
    (hattrs : TagFree (attrChars attrs)) :
    dropAnchorTags 0 ('<' :: (name ++ (attrChars attrs ++ '>' :: rest))) =
      '<' :: (name ++ (attrChars attrs ++ '>' :: dropAnchorTags 0 rest)) := by
  have hfree : '<' ∉ name ++ (attrChars attrs ++ ['>']) := by
    simp [not_mem_of_tagFree hname, not_mem_of_tagFree hattrs]
  have h := dropAnchorTags_other _ rest (by rw [List.append_assoc, hfirst]) hfree
  simpa only [List.append_assoc, List.singleton_append] using h

theorem dropAnchorTags_otherStop
    (hfirst : ∀ rest, anchorTagLength? ('<' :: '/' :: (name ++ rest)) = none)
    (hname : TagFree name) :
    dropAnchorTags 0 ('<' :: '/' :: (name ++ '>' :: rest)) =
      '<' :: '/' :: (name ++ '>' :: dropAnchorTags 0 rest) := by
  have hfree : '<' ∉ '/' :: (name ++ ['>']) := by
    simp [not_mem_of_tagFree hname]
  have h := dropAnchorTags_other _ rest (by rw [List.cons_append, List.append_assoc, hfirst]) hfree
  simpa only [List.cons_append, List.append_assoc, List.nil_append] using h

end Tags

/-! ### Markup -/

mutual

/-- The written form of a node with nothing written for the tags of anchors. -/
def Html.bareChars : Html → List Char
  | .element tag attrs content =>
    if tag = .a then bareCharsOf content
    else
      '<' :: (tag.name.toList ++ (attrChars attrs ++ '>' ::
        (bareCharsOf content ++ '<' :: '/' :: (tag.name.toList ++ ['>']))))
  | .doctype => Html.doctype.chars
  | .text s => (Html.text s).chars
  | .attrText s => (Html.attrText s).chars
  | .raw s => (Html.raw s).chars
  | .charRef code => (Html.charRef code).chars
  | .void tag attrs => (Html.void tag attrs).chars

def bareCharsOf : List Html → List Char
  | [] => []
  | h :: hs => h.bareChars ++ bareCharsOf hs

end

def Markup.bareChars (m : Markup) : List Char := bareCharsOf m

mutual

theorem chars_unwrapAnchors : ∀ h : Html, charsOf h.unwrapAnchors = h.bareChars
  | .element tag attrs content => by
    have hcontent := chars_unwrapAnchorsOf content
    rw [unwrapAnchors_element, Html.bareChars]
    split
    · exact hcontent
    · rw [charsOf, charsOf, List.append_nil, Html.chars_element, hcontent]
  | .doctype => List.append_nil _
  | .text _ => List.append_nil _
  | .attrText _ => List.append_nil _
  | .raw _ => List.append_nil _
  | .charRef _ => List.append_nil _
  | .void _ _ => List.append_nil _

theorem chars_unwrapAnchorsOf : ∀ m : List Html, charsOf (unwrapAnchorsOf m) = bareCharsOf m
  | [] => rfl
  | h :: hs => by
    rw [unwrapAnchorsOf, charsOf_append, chars_unwrapAnchors h, chars_unwrapAnchorsOf hs,
      bareCharsOf]

end

mutual

theorem dropAnchorTags_html : ∀ h : Html, (∀ x ∈ h.raws, isTagFree x = true) → ∀ rest,
    dropAnchorTags 0 (h.chars ++ rest) = h.bareChars ++ dropAnchorTags 0 rest
  | .doctype => fun _ rest => by
    have hchars : Html.doctype.chars = '<' :: '!' :: "DOCTYPE html>".toList := by decide
    rw [Html.bareChars, hchars]
    exact dropAnchorTags_other ('!' :: "DOCTYPE html>".toList) rest rfl (by decide)
  | .text s => fun _ rest => dropAnchorTags_text (not_mem_of_tagFree (.escapedText _)) rest
  | .attrText s => fun _ rest => dropAnchorTags_text (not_mem_of_tagFree (.escapedAttribute _)) rest
  | .raw s => fun hraws rest =>
    dropAnchorTags_text (not_mem_of_tagFree (isTagFree_iff.mp (hraws s List.mem_cons_self))) rest
  | .charRef code => fun _ rest =>
    dropAnchorTags_text (Inserted.held_text.mp (held_charRef code)) rest
  | .void tag attrs => fun hraws rest => by
    have hattrs := TagFree.attrs hraws
    simp only [Html.bareChars, Html.chars_void, List.cons_append, List.append_assoc,
      List.nil_append]
    exact dropAnchorTags_otherStart tag.start_not_anchor (.voidName tag) hattrs
  | .element tag attrs content => fun hraws rest => by
    obtain ⟨hattrs, hcontent⟩ := List.forall_mem_append.mp hraws
    have hattrs := TagFree.attrs hattrs
    have hmarkup := dropAnchorTags_markup content hcontent
    simp only [Html.chars_element, Html.bareChars, List.cons_append, List.append_assoc,
      List.nil_append]
    by_cases htag : tag = .a
    · subst htag
      rw [dropAnchorTags_start hattrs, hmarkup, dropAnchorTags_stop, if_pos rfl]
    · rw [dropAnchorTags_otherStart (Tag.start_not_anchor htag) (.tagName tag) hattrs, hmarkup,
        dropAnchorTags_otherStop (Tag.stop_not_anchor htag) (.tagName tag), if_neg htag]
      simp only [List.cons_append, List.append_assoc, List.nil_append]

theorem dropAnchorTags_markup : ∀ m : List Html, (∀ x ∈ rawsOf m, isTagFree x = true) → ∀ rest,
    dropAnchorTags 0 (charsOf m ++ rest) = bareCharsOf m ++ dropAnchorTags 0 rest
  | [] => fun _ _ => rfl
  | h :: hs => fun hraws rest => by
    obtain ⟨hh, hhs⟩ := List.forall_mem_append.mp hraws
    rw [charsOf, List.append_assoc, dropAnchorTags_html h hh, dropAnchorTags_markup hs hhs,
      bareCharsOf, List.append_assoc]

end

/-! ### Markup in which no tag might open an anchor -/

theorem occursIn_part {part whole cs : List Char} (h : cs <:+: whole)
    (hnot : Text.occursIn part whole = false) : Text.occursIn part cs = false := by
  rw [Bool.eq_false_iff] at hnot ⊢
  intro hin
  exact hnot (Text.occursIn_iff.mpr ((Text.occursIn_iff.mp hin).trans h))

mutual

/-- Where no `<a` is written there is no anchor. -/
theorem bareChars_unopened : ∀ h : Html, Text.occursIn "<a".toList h.chars = false →
    h.bareChars = h.chars
  | .element tag attrs content => fun hopen => by
    rw [Html.chars_element] at hopen
    have hcontent : Text.occursIn "<a".toList (charsOf content) = false := by
      refine occursIn_part ?_ hopen
      exact ⟨'<' :: (tag.name.toList ++ (attrChars attrs ++ ['>'])),
        '<' :: '/' :: (tag.name.toList ++ ['>']), by simp⟩
    have htag : tag ≠ .a := by
      rintro rfl
      refine absurd (Text.occursIn_iff.mpr ?_) (Bool.eq_false_iff.mp hopen)
      exact ⟨[], _, rfl⟩
    rw [Html.bareChars, if_neg htag, bareCharsOf_unopened content hcontent, Html.chars_element]
  | .doctype => fun _ => rfl
  | .text _ => fun _ => rfl
  | .attrText _ => fun _ => rfl
  | .raw _ => fun _ => rfl
  | .charRef _ => fun _ => rfl
  | .void _ _ => fun _ => rfl

theorem bareCharsOf_unopened : ∀ m : List Html, Text.occursIn "<a".toList (charsOf m) = false →
    bareCharsOf m = charsOf m
  | [] => fun _ => rfl
  | h :: hs => fun hopen => by
    rw [charsOf] at hopen
    have hh := occursIn_part (List.prefix_append h.chars (charsOf hs)).isInfix hopen
    have hhs := occursIn_part (List.suffix_append h.chars (charsOf hs)).isInfix hopen
    rw [bareCharsOf, charsOf, bareChars_unopened h hh, bareCharsOf_unopened hs hhs]

end

/-- Of markup whose unescaped texts hold no part of a tag, the written form loses the tags of the
anchors and nothing else. -/
theorem dropAnchors_chars {m : Markup} (hraws : ∀ x ∈ rawsOf m, isTagFree x = true) :
    dropAnchors m.chars = m.bareChars := by
  have hdrop : dropAnchorTags 0 m.chars = m.bareChars := by
    have h := dropAnchorTags_markup m hraws []
    have hnil : dropAnchorTags 0 [] = [] := rfl
    rw [hnil, List.append_nil, List.append_nil] at h
    exact h
  rw [dropAnchors]
  cases hopen : Text.occursIn "<a".toList m.chars with
  | true => exact hdrop
  | false => exact (bareCharsOf_unopened m hopen).symm

/-- Anchors are taken out of the tree as they are taken out of the written form. -/
theorem withoutAnchors_chars (m : Markup) : m.withoutAnchors.chars = dropAnchors m.chars := by
  unfold Markup.withoutAnchors
  split
  · rename_i hraws
    rw [dropAnchors_chars (List.all_eq_true.mp hraws)]
    exact chars_unwrapAnchorsOf m
  · exact (List.append_nil _).trans String.toList_ofList

end DocPress
