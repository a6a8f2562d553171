import DocPress.Proofs.AnchorErasure
import DocPress.Proofs.ReferenceDepth

/-! What a reference shows. The words of a target are looked at before their anchors are taken out,
so that words of which nothing but anchors is written leave a reference with nothing to see. -/

namespace DocPress

set_option autoImplicit false

/-! ### Stretches that end their tags -/

/-- Whether every bracket that might open a tag has one that ends it behind it. -/
def Closed : List Char → Prop
  | [] => True
  | c :: cs => (c = '<' → '>' ∈ cs) ∧ Closed cs

namespace Closed

variable {a b : List Char}

theorem append (ha : Closed a) (hb : Closed b) : Closed (a ++ b) := by
  induction a with
  | nil => exact hb
  | cons c cs ih => exact ⟨fun hc => List.mem_append_left b (ha.1 hc), ih ha.2⟩

theorem of_text (h : '<' ∉ a) : Closed a := by
  induction a with
  | nil => trivial
  | cons c cs ih =>
    refine ⟨fun hc => absurd ?_ h, ih fun hm => h (List.mem_cons_of_mem c hm)⟩
    rw [hc]
    exact List.mem_cons_self

theorem of_end (a : List Char) : Closed (a ++ ['>']) := by
  induction a with
  | nil => exact ⟨fun h => absurd h (by decide), trivial⟩
  | cons c cs ih => exact ⟨fun _ => List.mem_append_right cs List.mem_cons_self, ih⟩

end Closed

theorem cut_append {c : Char} {a : List Char} (h : c ∈ a) (b : List Char) :
    ∃ p, Text.cut c a = some p ∧ Text.cut c (a ++ b) = some (p.1, p.2 ++ b) := by
  induction a with
  | nil => exact absurd h List.not_mem_nil
  | cons x xs ih =>
    rw [List.cons_append, Text.cut, Text.cut]
    by_cases hx : x = c
    · exact ⟨([], xs), by rw [if_pos hx], by rw [if_pos hx]⟩
    · have hxs : c ∈ xs := (List.mem_cons.mp h).resolve_left (Ne.symm hx)
      obtain ⟨p, hp, hpb⟩ := ih hxs
      refine ⟨(x :: p.1, p.2), ?_, ?_⟩
      · rw [if_neg hx, hp]
        rfl
      · rw [if_neg hx, hpb]
        rfl

theorem anchorTagLength?_other {x : Char} (hx : x ≠ 'a' ∧ x ≠ '/') (rest : List Char) :
    anchorTagLength? ('<' :: x :: rest) = none := by
  unfold anchorTagLength?
  split <;> simp_all

theorem anchorTagLength?_slash {x y : Char} (h : x = 'a' → y ≠ '>') (rest : List Char) :
    anchorTagLength? ('<' :: '/' :: x :: y :: rest) = none := by
  unfold anchorTagLength?
  split <;> simp_all

theorem anchorTagLength?_open {a : List Char} (h : '>' ∈ a) (b : List Char) :
    anchorTagLength? ('<' :: 'a' :: (a ++ b)) = anchorTagLength? ('<' :: 'a' :: a) := by
  cases a with
  | nil => exact absurd h List.not_mem_nil
  | cons c cs =>
    obtain ⟨p, hp, hpb⟩ := cut_append h b
    rw [List.cons_append] at hpb ⊢
    rw [anchorTagLength?, anchorTagLength?, hp, hpb]
    rfl

theorem anchorTagLength?_close {a : List Char} (h : '>' ∈ a) (b : List Char) :
    anchorTagLength? ('<' :: '/' :: (a ++ b)) = anchorTagLength? ('<' :: '/' :: a) := by
  match a with
  | [] => exact absurd h List.not_mem_nil
  | [x] =>
    obtain rfl := List.mem_singleton.mp h
    rfl
  | x :: y :: rest =>
    by_cases hxy : x = 'a' ∧ y = '>'
    · obtain ⟨rfl, rfl⟩ := hxy
      rfl
    · have hnot : x = 'a' → y ≠ '>' := fun hx hy => hxy ⟨hx, hy⟩
      rw [List.cons_append, List.cons_append, anchorTagLength?_slash hnot,
        anchorTagLength?_slash hnot]

/-- Whether a tag of an anchor begins somewhere, and where it ends, is settled by what stands before
the next end of a tag. -/
theorem anchorTagLength?_append {c : Char} {a : List Char} (h : c = '<' → '>' ∈ a)
    (b : List Char) : anchorTagLength? (c :: (a ++ b)) = anchorTagLength? (c :: a) := by
  by_cases hc : c = '<'
  · subst hc
    cases a with
    | nil => exact absurd (h rfl) List.not_mem_nil
    | cons x rest =>
      have hend := List.mem_cons.mp (h rfl)
      by_cases ha : x = 'a'
      · subst ha
        exact anchorTagLength?_open (hend.resolve_left (by decide)) b
      by_cases hs : x = '/'
      · subst hs
        exact anchorTagLength?_close (hend.resolve_left (by decide)) b
      rw [List.cons_append, anchorTagLength?_other ⟨ha, hs⟩, anchorTagLength?_other ⟨ha, hs⟩]
  · rw [anchorTagLength?_text hc, anchorTagLength?_text hc]

theorem anchorTagLength?_end {cs : List Char} {n : Nat} (h : anchorTagLength? cs = some n) :
    ∃ inner rest, cs = inner ++ '>' :: rest ∧ inner.length + 1 = n := by
  unfold anchorTagLength? at h
  split at h
  · rename_i rest
    exact ⟨['<', '/', 'a'], rest, rfl, Option.some.inj h⟩
  · rename_i c rest
    split at h
    · exact absurd h.symm (Option.some_ne_none n)
    · obtain ⟨p, hcut, hlength⟩ := Option.map_eq_some_iff.mp h
      refine ⟨'<' :: 'a' :: p.1, p.2, ?_, hlength⟩
      rw [Text.eq_of_cut hcut]
      rfl
  · exact absurd h.symm (Option.some_ne_none n)

theorem anchorTagLength?_le {c : Char} {cs : List Char} {n : Nat}
    (h : anchorTagLength? (c :: cs) = some n) : n - 1 ≤ cs.length := by
  obtain ⟨inner, rest, hsplit, hn⟩ := anchorTagLength?_end h
  have hlength := congrArg List.length hsplit
  rw [List.length_append, List.length_cons, List.length_cons] at hlength
  omega

/-- What follows a stretch that ends its tags is left apart from it. -/
theorem dropAnchorTags_append {a : List Char} (h : Closed a) (b : List Char) {k : Nat}
    (hk : k ≤ a.length) :
    dropAnchorTags k (a ++ b) = dropAnchorTags k a ++ dropAnchorTags 0 b := by
  induction a generalizing k with
  | nil =>
    obtain rfl : k = 0 := Nat.le_zero.mp hk
    rfl
  | cons c cs ih =>
    cases k with
    | succ k => exact ih h.2 (Nat.le_of_succ_le_succ hk)
    | zero =>
      rw [List.cons_append, dropAnchorTags, dropAnchorTags, anchorTagLength?_append h.1 b]
      cases htag : anchorTagLength? (c :: cs) with
      | none => exact congrArg (c :: ·) (ih h.2 (Nat.zero_le _))
      | some n => exact ih h.2 (anchorTagLength?_le htag)

/-! ### Markup that shows nothing beside anchors -/

theorem textEntity_ne_nil (c : Char) : Text.textEntity c ≠ [] := by
  unfold Text.textEntity
  split <;> exact nofun

theorem escapedText_eq_nil {cs : List Char} : Text.escapedText cs = [] ↔ cs = [] := by
  cases cs with
  | nil => simp
  | cons c cs => simp [textEntity_ne_nil]

/-- What is known of markup that stands among other markup: its tags end in it, `b` says whether it
is gone without the tags of anchors, and if so then an anchor is the first of it. -/
structure Weighed (m : Markup) (b : Bool) : Prop where
  closed : Closed m.chars
  gone : dropAnchorTags 0 m.chars = [] ↔ b = true
  opens : b = true → m.chars = [] ∨ "<a".toList <+: m.chars

namespace Weighed

variable {m k : Markup} {a b : Bool}

theorem nil : Weighed [] true := ⟨trivial, iff_of_true rfl rfl, fun _ => .inl rfl⟩

theorem append (hm : Weighed m a) (hk : Weighed k b) : Weighed (m ++ k) (a && b) where
  closed := by
    rw [Markup.chars, charsOf_append]
    exact hm.closed.append hk.closed
  gone := by
    rw [Markup.chars, charsOf_append]
    have hsplit := dropAnchorTags_append hm.closed k.chars (Nat.zero_le _)
    rw [Markup.chars, Markup.chars] at hsplit
    rw [hsplit, List.append_eq_nil_iff, Bool.and_eq_true]
    exact and_congr hm.gone hk.gone
  opens := by
    rw [Markup.chars, charsOf_append, Bool.and_eq_true]
    rintro ⟨ha, hb⟩
    rcases hm.opens ha with hnil | hopen
    · rw [Markup.chars] at hnil
      rw [hnil]
      exact hk.opens hb
    · exact .inr (hopen.trans (List.prefix_append _ _))

/-- Markup of which the first character is kept. -/
theorem kept {c : Char} {cs : List Char} (hm : m.chars = c :: cs) (hclosed : Closed m.chars)
    (hfirst : anchorTagLength? (c :: cs) = none) : Weighed m false where
  closed := hclosed
  gone := by
    rw [hm, dropAnchorTags_keep hfirst]
    exact iff_of_false nofun nofun
  opens := nofun

theorem text (s : String) : Weighed [.text s] (s == "") := by
  have hchars : Markup.chars [.text s] = Text.escapedText s.toList := List.append_nil _
  have hfree := not_mem_escapedText s.toList
  have hdrop : dropAnchorTags 0 (Text.escapedText s.toList) = Text.escapedText s.toList := by
    have h := dropAnchorTags_text hfree []
    rwa [List.append_nil, dropAnchorTags, List.append_nil] at h
  have hblank : Text.escapedText s.toList = [] ↔ (s == "") = true := by
    rw [escapedText_eq_nil, beq_iff_eq, String.toList_eq_nil_iff]
  constructor
  · rw [hchars]
    exact .of_text hfree
  · rw [hchars, hdrop]
    exact hblank
  · rw [hchars]
    exact fun h => .inl (hblank.mpr h)

theorem text_of_ne {s : String} (h : s ≠ "") : Weighed [.text s] false := by
  have ht := text s
  rwa [beq_eq_false_iff_ne.mpr h] at ht

/-- A text between two others is not blank if the first of them is not. -/
theorem enclosed (before x after : String) (h : before ≠ "") :
    Weighed [.text (before ++ x ++ after)] false := by
  refine text_of_ne fun he => h ?_
  have hlist := congrArg String.toList he
  simp only [String.toList_append, String.toList_empty, List.append_eq_nil_iff] at hlist
  exact String.toList_eq_nil_iff.mp hlist.1.1

theorem charRef (code : Nat) : Weighed [.charRef code] false := by
  have hchars : Markup.chars [.charRef code] = '&' :: '#' :: ((toString code).toList ++ [';']) :=
    List.append_nil _
  refine kept hchars ?_ (anchorTagLength?_text (by decide) _)
  rw [hchars, ← Html.chars_charRef]
  exact .of_text (Inserted.held_text.mp (held_charRef code))

theorem element {tag : Tag} (h : tag ≠ .a) (attrs : List Attr) (content : List Html) :
    Weighed [.element tag attrs content] false := by
  have hchars : Markup.chars [.element tag attrs content] =
      '<' :: (tag.name.toList ++ (attrChars attrs ++ '>' ::
        (charsOf content ++ '<' :: '/' :: (tag.name.toList ++ ['>'])))) := List.append_nil _
  refine kept hchars ?_ (Tag.start_not_anchor h _)
  rw [hchars]
  have hend := Closed.of_end ('<' :: (tag.name.toList ++ (attrChars attrs ++ '>' ::
    (charsOf content ++ '<' :: '/' :: tag.name.toList))))
  simpa only [List.cons_append, List.append_assoc] using hend

theorem void (tag : VoidTag) (attrs : List Attr) : Weighed [.void tag attrs] false := by
  have hchars : Markup.chars [.void tag attrs] =
      '<' :: (tag.name.toList ++ (attrChars attrs ++ ['>'])) := List.append_nil _
  refine kept hchars ?_ (tag.start_not_anchor _)
  rw [hchars]
  have hend := Closed.of_end ('<' :: (tag.name.toList ++ attrChars attrs))
  simpa only [List.cons_append, List.append_assoc] using hend

theorem anchor {attrs : List Attr} (h : attrs.flatMap Attr.raws = []) (hm : Weighed m b) :
    Weighed [.element .a attrs m] b := by
  have hchars : Markup.chars [.element .a attrs m] =
      '<' :: (Tag.a.name.toList ++ (attrChars attrs ++ '>' ::
        (m.chars ++ '<' :: '/' :: (Tag.a.name.toList ++ ['>'])))) := List.append_nil _
  have hattrs : TagFree (attrChars attrs) := by
    apply TagFree.attrs
    rw [h]
    exact nofun
  constructor
  · rw [hchars]
    have hend := Closed.of_end ('<' :: (Tag.a.name.toList ++ (attrChars attrs ++ '>' ::
      (m.chars ++ '<' :: '/' :: Tag.a.name.toList))))
    simpa only [List.cons_append, List.append_assoc] using hend
  · rw [hchars, dropAnchorTags_start hattrs, dropAnchorTags_append hm.closed _ (Nat.zero_le _),
      dropAnchorTags_stop, dropAnchorTags, List.append_nil]
    exact hm.gone
  · rw [hchars]
    exact fun _ => .inr ⟨_, rfl⟩

/-- An element other than an anchor is seen behind whatever is written. -/
theorem behind (front : Markup) {tag : Tag} (h : tag ≠ .a) (attrs : List Attr)
    (hm : Weighed m b) : Weighed (front ++ [.element tag attrs m]) false := by
  let start := front.chars ++ ('<' :: (tag.name.toList ++ attrChars attrs) ++ ['>'])
  let stop := '<' :: '/' :: (tag.name.toList ++ ['>'])
  have hparts : Markup.chars (front ++ [.element tag attrs m]) =
      front.chars ++ ((Html.element tag attrs m).chars ++ []) := charsOf_append _ _
  have hchars : Markup.chars (front ++ [.element tag attrs m]) = start ++ (m.chars ++ stop) := by
    rw [hparts, Html.chars_element]
    simp only [start, stop, Markup.chars, List.append_assoc, List.cons_append, List.append_nil,
      List.nil_append]
  have hstart : Closed start := by
    have hend := Closed.of_end (front.chars ++ ('<' :: (tag.name.toList ++ attrChars attrs)))
    rwa [List.append_assoc] at hend
  have hstop : Closed stop := Closed.of_end ('<' :: '/' :: tag.name.toList)
  have hkept : dropAnchorTags 0 stop ≠ [] := by
    rw [dropAnchorTags_keep (Tag.stop_not_anchor h ['>'])]
    exact List.cons_ne_nil _ _
  constructor
  · rw [hchars]
    exact hstart.append (hm.closed.append hstop)
  · rw [hchars, dropAnchorTags_append hstart _ (Nat.zero_le _),
      dropAnchorTags_append hm.closed _ (Nat.zero_le _)]
    simp [hkept]
  · exact fun h => absurd h Bool.false_ne_true

end Weighed

/-! ### Attributes of links -/

theorem raws_attr (name : AttrName) (h : name.custom? = none) (v : String) :
    (attr name v).raws = [] := by
  simp [attr, Attr.raws, h, Piece.raw?]

theorem raws_optAttr (name : AttrName) (h : name.custom? = none) (v : Option String) :
    (optAttr name v).flatMap Attr.raws = [] := by
  cases v with
  | none => rfl
  | some v => simp [optAttr, raws_attr name h]

theorem raws_classes (list : ClassList) : list.attrs.flatMap Attr.raws = [] := by
  unfold ClassList.attrs
  split
  · rfl
  · simp [raws_attr .classes rfl]

theorem raws_linkAttrs (d : NodeData) : d.linkAttrs.flatMap Attr.raws = [] := by
  simp only [NodeData.linkAttrs, List.flatMap_append, raws_optAttr .target rfl, List.nil_append]
  split
  · rfl
  · simp [raws_attr .rel rfl]

/-! ### Running text -/

namespace Inline

/-- The types of quoted spans that put something around the text. -/
def markedTypes : List String :=
  ["monospaced", "emphasis", "strong", "double", "single", "mark", "superscript", "subscript",
    "asciimath", "latexmath"]

/-- Whether a quoted span is its text and nothing else. -/
def isBareSpan (d : NodeData) : Bool :=
  !markedTypes.contains (d.variant.getD "") && (d.idAttrs ++ d.roleAttrs).isEmpty

end Inline

namespace Node

mutual

/-- Whether nothing of a node shows in borrowed words but anchors. -/
def isAnchorsOnly : Node → Bool
  | ⟨d, _, text, _, _, _, _⟩ =>
    match d.kind with
    | .text => d.source.getD "" == ""
    | .inlineQuoted => Inline.isBareSpan d && isAnchorsOnlyContent d text
    | .inlineAnchor =>
      match d.variant with
      | some "xref" =>
        match d.attr? "path" with
        | some path => isAnchorsOnlyOr text (path == "")
        | none => isAnchorsOnlyOr text false
      | some "link" => isAnchorsOnlyOr text (d.target.getD "" == "")
      | some "bibref" => false
      | _ => true
    | .inlineFootnote => d.variant != some "xref" && (d.attr? indexName).isNone
    | .inlineIndexterm => d.variant != some "visible" || isAnchorsOnlyContent d text
    | .inlineBreak | .inlineButton | .inlineCallout | .inlineImage | .inlineKbd | .inlineMenu =>
      false
    | _ => true

def isAnchorsOnlyAll : List Node → Bool
  | [] => true
  | n :: ns => isAnchorsOnly n && isAnchorsOnlyAll ns

/-- Whether nothing shows of the text of a node, else of its source. -/
def isAnchorsOnlyContent (d : NodeData) : Option (List Node) → Bool
  | some ns => isAnchorsOnlyAll ns
  | none => d.source.getD "" == ""

/-- Whether nothing shows of the text of a node if there is something in it. -/
def isAnchorsOnlyOr : Option (List Node) → Bool → Bool
  | some (n :: ns), _ => isAnchorsOnlyAll (n :: ns)
  | some [], other => other
  | none, other => other

end

end Node

namespace Inline

variable {s : Scene} {d : NodeData} {m : Markup} {b : Bool}

theorem quotesOf_cases (v : String) :
    (markedTypes.contains v = true ∧ ∃ tag, quotesOf v = .tag tag ∧ tag ≠ .a) ∨
      (markedTypes.contains v = true ∧ ∃ before after, quotesOf v = .around before after ∧
        Weighed before false ∧ Weighed after false) ∨
      (markedTypes.contains v = false ∧ quotesOf v = .around [] []) := by
  unfold quotesOf
  split
  · exact .inl ⟨by decide, _, rfl, nofun⟩
  · exact .inl ⟨by decide, _, rfl, nofun⟩
  · exact .inl ⟨by decide, _, rfl, nofun⟩
  · exact .inr (.inl ⟨by decide, _, _, rfl, .charRef _, .charRef _⟩)
  · exact .inr (.inl ⟨by decide, _, _, rfl, .charRef _, .charRef _⟩)
  · exact .inl ⟨by decide, _, rfl, nofun⟩
  · exact .inl ⟨by decide, _, rfl, nofun⟩
  · exact .inl ⟨by decide, _, rfl, nofun⟩
  · exact .inr (.inl ⟨by decide, _, _, rfl, .text _, .text _⟩)
  · exact .inr (.inl ⟨by decide, _, _, rfl, .text _, .text _⟩)
  · refine .inr (.inr ⟨?_, rfl⟩)
    simp_all [markedTypes]

theorem quoted_weighed (h : Weighed m b) : Weighed (quoted d m) (isBareSpan d && b) := by
  have hspan : Weighed [.element .span (d.idAttrs ++ d.roleAttrs) m] false :=
    .element (by decide) _ _
  rcases quotesOf_cases (d.variant.getD "") with ⟨hv, tag, hq, ht⟩ |
    ⟨hv, before, after, hq, hbefore, hafter⟩ | ⟨hv, hq⟩
  · simp only [quoted, hq, isBareSpan, hv, Bool.not_true, Bool.false_and]
    exact .element ht _ _
  · simp only [quoted, hq, isBareSpan, hv, Bool.not_true, Bool.false_and]
    split
    · have hinner := (hbefore.append h).append hafter
      rwa [Bool.false_and, Bool.and_false] at hinner
    · exact .element (by decide) _ _
  · simp only [quoted, hq, isBareSpan, hv, Bool.not_false, Bool.true_and, List.nil_append,
      List.append_nil]
    cases (d.idAttrs ++ d.roleAttrs).isEmpty with
    | true => simpa using h
    | false => exact hspan

theorem pathLink_weighed {path : String} (h : Weighed m b) : Weighed (pathLink d path m) b := by
  refine .anchor ?_ h
  simp [raws_attr .href rfl, NodeData.roleAttrs, raws_classes, raws_linkAttrs]

theorem refLink_weighed (h : Weighed m b) : Weighed (refLink d m) b := by
  refine .anchor ?_ h
  simp [raws_attr .href rfl, NodeData.roleAttrs, raws_classes]

theorem link_weighed (h : Weighed m b) : Weighed (link d m) b := by
  refine .anchor ?_ h
  simp [raws_attr .href rfl, NodeData.roleAttrs, raws_classes, raws_linkAttrs, NodeData.idAttrs,
    raws_optAttr .id rfl, raws_optAttr .title rfl]

theorem anchorAt_weighed : Weighed (anchorAt d) true :=
  .anchor (raws_optAttr .id rfl d.id) .nil

theorem bibAnchor_weighed : Weighed (bibAnchor d) false :=
  anchorAt_weighed.append (.enclosed "[" _ "]" (by decide))

theorem callout_weighed : Weighed (callout s d) false := by
  have hlabel : Weighed [.element .b [attr .classes "conum"]
      [.text ("(" ++ d.source.getD "" ++ ")")]] false := .element (by decide) _ _
  simp only [callout]
  split
  · exact .append (m := [_]) (.element (by decide) _ _) (.element (by decide) _ _)
  · split
    · exact .void _ _
    · split
      · have hmarks (x : String) (h : x ≠ "") : Weighed [.text x] false := .text_of_ne h
        exact .append (hmarks "<!--" (by decide)) (hlabel.append (hmarks "-->" (by decide)))
      · exact .behind [.raw _] (by decide) _ (.enclosed "(" _ ")" (by decide))
      · exact hlabel

theorem image_weighed : Weighed (image s d).value false := by
  simp only [image]
  split <;> exact .element (by decide) _ _

theorem keyboard_weighed : Weighed (keyboard d) false := by
  unfold keyboard
  split <;> exact .element (by decide) _ _

theorem menu_weighed : Weighed (menu s d) false := by
  simp only [menu]
  split <;> exact .element (by decide) _ _

end Inline

section Borrowed

open Inline

theorem bracketedText_weighed (s : Scene) (id : String) :
    Weighed [.text (Reference.bracketedText s id)] false := by
  unfold Reference.bracketedText
  split
  · exact .text_of_ne (by decide)
  · exact .enclosed "[" id "]" (by decide)

variable (s : Scene)

mutual

theorem inlineAs_weighed : ∀ n : Node,
    Weighed (inlineAs s (Reference.plainWording s) n.data.kind n).value n.isAnchorsOnly
  | ⟨d, title, text, items, entries, blocks, table⟩ => by
    have hcontent := inlineContent_weighed d text
    have hor {other : Rendered Markup} {b : Bool} (h : Weighed other.value b) :=
      inlineOr_weighed text h
    have htext (x : String) : Weighed (pure [.text x] : Rendered Markup).value (x == "") := .text x
    change Weighed (inlineAs s (Reference.plainWording s) d.kind _).value _
    simp only [inlineAs, Node.isAnchorsOnly]
    cases d.kind
    case text => exact .text _
    case inlineQuoted => exact quoted_weighed hcontent
    case inlineAnchor =>
      dsimp only
      split
      case h_1 hv =>
        rw [hv]
        cases d.attr? "path" with
        | some path => exact pathLink_weighed (hor (htext path))
        | none =>
          refine refLink_weighed (hor ?_)
          rw [Reference.plainWording, Rendered.value_pure, Reference.bracketed_eq]
          exact bracketedText_weighed s (refIdOf d)
      case h_2 hv =>
        rw [hv]
        exact anchorAt_weighed
      case h_3 hv =>
        rw [hv]
        exact link_weighed (hor (htext (d.target.getD "")))
      case h_4 hv =>
        rw [hv]
        exact bibAnchor_weighed
      case h_5 hx _ hl hb hv =>
        rw [hv]
        split
        case h_1 h => exact absurd (Option.some.inj h) hx
        case h_2 h => exact absurd (Option.some.inj h) hl
        case h_3 h => exact absurd (Option.some.inj h) hb
        case h_4 => exact .nil
      case h_6 hv =>
        rw [hv]
        exact .nil
    case inlineBreak =>
      have h := hcontent.append (.void .br [])
      rwa [Bool.and_false] at h
    case inlineButton => exact .element (by decide) _ _
    case inlineCallout => exact callout_weighed
    case inlineFootnote =>
      rw [bne]
      cases d.attr? indexName <;> cases d.variant == some "xref"
      case none.false => exact .nil
      all_goals exact .element (by decide) _ _
    case inlineImage => exact image_weighed
    case inlineIndexterm =>
      dsimp only
      split
      case isTrue h =>
        rw [h]
        exact hcontent
      case isFalse h =>
        rw [bne_iff_ne.mpr h]
        exact .nil
    case inlineKbd => exact keyboard_weighed
    case inlineMenu => exact menu_weighed
    all_goals exact .nil

theorem inlines_weighed : ∀ ns : List Node,
    Weighed (inlines s (Reference.plainWording s) ns).value (Node.isAnchorsOnlyAll ns)
  | [] => .nil
  | n :: ns => (inlineAs_weighed n).append (inlines_weighed ns)

theorem inlineContent_weighed (d : NodeData) : ∀ text : Option (List Node),
    Weighed (inlineContent s (Reference.plainWording s) d text).value
      (Node.isAnchorsOnlyContent d text)
  | some ns => inlines_weighed ns
  | none => .text _

theorem inlineOr_weighed : ∀ (text : Option (List Node)) {other : Rendered Markup} {b : Bool},
    Weighed other.value b →
      Weighed (inlineOr s (Reference.plainWording s) text other).value
        (Node.isAnchorsOnlyOr text b)
  | some (n :: ns), _, _ => fun _ => inlines_weighed (n :: ns)
  | some [], _, _ => fun h => h
  | none, _, _ => fun h => h

end

end Borrowed

end DocPress
