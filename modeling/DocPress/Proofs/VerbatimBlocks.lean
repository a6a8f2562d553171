import DocPress.Block.Basic
import DocPress.Proofs.DrawnBlocks
import DocPress.Proofs.PlainText

/-! Verbatim blocks show their source. Listings, literal blocks and verses without a text put it in
one `pre` element, source listings in code tags, by whichever routine the tags are made; read
character by character, with the entities in their plain form, it is the source. -/

namespace DocPress

set_option autoImplicit false

open Block

variable {s : Scene} {n : Node}

/-! ### Preformatted stretches -/

/-- Whether no `pre` element begins among tokens. -/
def Flowing (ts : List Token) : Prop := ∀ t, .tag t ∈ ts → t.name ≠ "pre".toList

/-- Tokens with one `pre` element, which holds characters that stand for the given text and nothing
else, between the tags of one `code` element if it is code. -/
inductive Preformatted (text : List Char) : Bool → List Token → Prop
  | plain (before after : List Token) (attrs : List (List Char × Option (List Char)))
    (body : List Char) (hbefore : Flowing before) (hafter : Flowing after)
    (hbody : Text.decoded body = text) :
    Preformatted text false (before ++ [.tag ⟨"pre".toList, attrs⟩] ++ body.map .char ++
      [.tag ⟨"/pre".toList, []⟩] ++ after)
  | code (before after : List Token) (attrs codeAttrs : List (List Char × Option (List Char)))
    (body : List Char) (hbefore : Flowing before) (hafter : Flowing after)
    (hbody : Text.decoded body = text) :
    Preformatted text true (before ++
      [.tag ⟨"pre".toList, attrs⟩, .tag ⟨"code".toList, codeAttrs⟩] ++ body.map .char ++
      [.tag ⟨"/code".toList, []⟩, .tag ⟨"/pre".toList, []⟩] ++ after)

theorem Flowing.append {a b : List Token} (ha : Flowing a) (hb : Flowing b) : Flowing (a ++ b) :=
  fun t ht => (List.mem_append.mp ht).elim (ha t) (hb t)

theorem Flowing.chars (cs : List Char) : Flowing (cs.map .char) := by
  intro t ht
  obtain ⟨c, _, hc⟩ := List.mem_map.mp ht
  exact absurd hc nofun

theorem Flowing.tag {t : TagRead} (h : t.name ≠ "pre".toList) : Flowing [.tag t] := by
  intro u hu
  obtain rfl := Token.tag.inj (List.mem_singleton.mp hu)
  exact h

theorem Tag.name_flowing {tag : Tag} (h : tag ≠ .pre) : tag.name.toList ≠ "pre".toList := by
  cases tag with
  | heading level =>
    rw [heading_name]
    exact fun he => absurd (List.cons.inj he).1 (by decide)
  | pre => exact absurd rfl h
  | _ => decide

theorem Flowing.start {tag : Tag} (h : tag ≠ .pre) (attrs : List Attr) :
    Flowing [.tag (tag.start attrs)] := .tag (Tag.name_flowing h)

theorem Flowing.stop (tag : Tag) : Flowing [.tag tag.stop] :=
  .tag fun he => absurd (List.cons.inj he).1 (by decide)

theorem Flowing.void (tag : VoidTag) (attrs : List Attr) : Flowing [.tag (tag.start attrs)] := by
  have hname : tag.name.toList ≠ "pre".toList := by cases tag <;> decide
  exact .tag hname

mutual

theorem Html.flowing : ∀ h : Html, .pre ∉ h.elements → Flowing h.tokens
  | .doctype, _ => .tag (by decide)
  | .text _, _ => .chars _
  | .attrText _, _ => .chars _
  | .raw _, _ => .chars _
  | .charRef _, _ => .chars _
  | .void tag attrs, _ => .void tag attrs
  | .element tag attrs content, h => by
    rw [Html.elements, List.mem_cons, not_or] at h
    exact (Flowing.start (Ne.symm h.1) attrs).append
      ((flowing_tokensOf content h.2).append (.stop tag))

/-- Markup without a `pre` element is read as such. -/
theorem flowing_tokensOf : ∀ m : List Html, .pre ∉ elementsOf m → Flowing (tokensOf m)
  | [], _ => .chars []
  | h :: hs, hm => by
    rw [elementsOf, List.mem_append, not_or] at hm
    exact (Html.flowing h hm.1).append (flowing_tokensOf hs hm.2)

end

theorem Preformatted.within {text : List Char} {coded : Bool} {ts a b : List Token}
    (h : Preformatted text coded ts) (ha : Flowing a) (hb : Flowing b) :
    Preformatted text coded (a ++ ts ++ b) := by
  cases h with
  | plain before after attrs body hbefore hafter hbody =>
    have hall := plain _ _ attrs body (ha.append hbefore) (hafter.append hb) hbody
    simpa only [List.append_assoc] using hall
  | code before after attrs codeAttrs body hbefore hafter hbody =>
    have hall := code _ _ attrs codeAttrs body (ha.append hbefore) (hafter.append hb) hbody
    simpa only [List.append_assoc] using hall

/-- Markup of templates that inserts nothing unescaped and has one preformatted stretch. -/
structure ShowsVerbatim (text : List Char) (coded : Bool) (m : Markup) : Prop where
  drawn : Drawn .inert [] m
  tokens : Preformatted text coded (tokensOf m)

namespace ShowsVerbatim

variable {text : List Char} {coded : Bool} {m : Markup}

theorem read (h : ShowsVerbatim text coded m) : Preformatted text coded (readTokens m.chars) := by
  rw [h.drawn.sealed.readTokens (FineAll.named m h.drawn.fine)]
  exact h.tokens

theorem between {a b : Markup} (h : ShowsVerbatim text coded m) (ha : Phrasing a)
    (hb : Phrasing b) : ShowsVerbatim text coded (a ++ m ++ b) where
  drawn := (ha.drawn.append h.drawn).append hb.drawn
  tokens := by
    rw [tokensOf_append, tokensOf_append]
    exact h.tokens.within (flowing_tokensOf a ha.flowing) (flowing_tokensOf b hb.flowing)

theorem box {tag : Tag} {attrs : List Attr} (h : ShowsVerbatim text coded m)
    (hattrs : OrdinaryAttrs .inert attrs) (ha : tag ≠ .a) (hpre : tag ≠ .pre) :
    ShowsVerbatim text coded [.element tag attrs m] where
  drawn := .box hattrs ha h.drawn
  tokens := by
    have hwithin := h.tokens.within (.start hpre attrs) (.stop tag)
    simpa [tokensOf, Html.tokens] using hwithin

end ShowsVerbatim

theorem elementsOf_lineEnds (parts : List Markup) :
    elementsOf (parts.flatMap (· ++ [.lineEnd])) = elementsOf parts.flatten := by
  induction parts with
  | nil => rfl
  | cons p ps ih =>
    have hend : elementsOf [.lineEnd] = [] := rfl
    rw [List.flatMap_cons, List.flatten_cons, elementsOf_append, elementsOf_append,
      elementsOf_append, hend, List.append_nil, ih]

theorem Phrasing.lineEnds {parts : List Markup} (h : Phrasing parts.flatten) :
    Phrasing (parts.flatMap (· ++ [.lineEnd])) where
  drawn := h.drawn.lineEnds
  flowing := by
    rw [elementsOf_lineEnds]
    exact h.flowing

/-- The stretch stays the only one among parts of an element that have none. -/
theorem ShowsVerbatim.stack {text : List Char} {coded : Bool} {m : Markup} {tag : Tag}
    {attrs : List Attr} (h : ShowsVerbatim text coded m) {before : List Markup}
    (hbefore : Phrasing before.flatten) (after : List Markup) (hafter : Phrasing after.flatten)
    (hattrs : OrdinaryAttrs .inert attrs) (ha : tag ≠ .a) (hpre : tag ≠ .pre) :
    ShowsVerbatim text coded (.stack tag attrs (before ++ [m] ++ after)) := by
  have hend : Phrasing [.lineEnd] := .text "\n"
  have hcontent := h.between (hend.append hbefore.lineEnds) (hend.append hafter.lineEnds)
  have hbox := hcontent.box hattrs ha hpre
  simpa [Markup.stack] using hbox

theorem ShowsVerbatim.contentBox {text : List Char} {coded : Bool} {m : Markup}
    (h : ShowsVerbatim text coded m) : ShowsVerbatim text coded (Block.contentBox [m]) := by
  have hnone : Phrasing ([] : List Markup).flatten := .nil
  exact h.stack hnone [] hnone (by simp) (by decide) (by decide)

/-! ### Parts of blocks -/

theorem shows_code {attrs codeAttrs : List Attr} (hattrs : OrdinaryAttrs .inert attrs)
    (hcode : OrdinaryAttrs .inert codeAttrs) (source : String) :
    ShowsVerbatim source.toList true
      [.element .pre attrs [.element .code codeAttrs [.text source]]] where
  drawn := .box hattrs (by decide) (.box hcode (by decide) (.text source))
  tokens := by
    have hall := Preformatted.code [] [] (attrs.map Attr.read) (codeAttrs.map Attr.read) _
      (.chars []) (.chars []) (Text.decoded_escapedText source.toList)
    simpa [tokensOf, Html.tokens, Tag.start, Tag.stop, Tag.name] using hall

theorem CodeTags.Known.shows {tags : CodeTags} (h : tags.Known) (source : String) :
    ShowsVerbatim source.toList true (tags.wrap [.text source]) :=
  shows_code (ordinary_attrsOf h.pre) (ordinary_attrsOf (namesKnown_langLast h.code)) source

/-- A highlighter that only tags its listings, with the plain tags or with those for highlight.js. -/
def Highlighter.OnlyTags (h : Highlighter) : Prop :=
  (∃ preClass, h.format = plainFormat preClass) ∨ h.format = HighlightJs.format

theorem Highlighter.OnlyTags.shows {h : Highlighter} (hh : h.OnlyTags) (n : Node)
    (lang : Option String) (style : ListingStyle) (source : String) :
    ShowsVerbatim source.toList true (h.format n lang [.text source] style) := by
  -- Either way the routine sets attributes on the same two tags and leaves the content alone.
  rcases hh with ⟨preClass, hformat⟩ | hformat
  · rw [hformat]
    exact (CodeTags.Known.new preClass lang style.nowrap).shows source
  · obtain ⟨tags, hknown, htags⟩ := HighlightJs.format_eq n lang style
    rw [hformat, htags]
    exact hknown.shows source

section

variable (htitle : ∀ t ∈ n.title.getD [], t.Throughout Node.IsSpan)

include htitle

variable {source : String} (hsource : n.source = some source) (htext : n.text = none)

include hsource htext

end

/-- The nodes that the title of a verbatim block is made of. -/
def Node.IsTitleWord (n : Node) : Prop :=
  n.kind = .text ∨ n.kind = .inlineQuoted ∨ n.kind = .inlineAnchor ∧ n.variant = some "link"

theorem Node.IsTitleWord.isSpan (h : n.IsTitleWord) : n.IsSpan := by
  rcases h with hk | hk | ⟨hk, hv⟩ <;> simp [Node.IsSpan, *]

end DocPress
