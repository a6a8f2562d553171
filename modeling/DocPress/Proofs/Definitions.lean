import DocPress.Proofs.DrawnPages
import DocPress.Proofs.Indexing

/-! The definitions of footnotes on a page. Templates give no other element such an id, and the
section of footnotes has one definition for each footnote of the catalog, in its order. -/

namespace DocPress

set_option autoImplicit false

/-! ### Ids of definitions -/

/-- The number in the id of a definition. -/
def definitionNumber? : List Char × Option (List Char) → Option (List Char)
  | (name, some value) =>
    if name = "id".toList then after? "_footnotedef_".toList value else none
  | _ => none

/-- The numbers in the ids of definitions, for all attributes of all tags. -/
def definitionsOf (ts : List TagRead) : List (List Char) :=
  ts.flatMap fun t => t.attrs.filterMap definitionNumber?

theorem definitionsOf_append (a b : List TagRead) :
    definitionsOf (a ++ b) = definitionsOf a ++ definitionsOf b := List.flatMap_append

def definedIn (m : Markup) : List (List Char) := definitionsOf (tagsOf m)

theorem definedIn_append (a b : Markup) : definedIn (a ++ b) = definedIn a ++ definedIn b := by
  rw [definedIn, tagsOf_append, definitionsOf_append]
  rfl

theorem definedIn_element (tag : Tag) (attrs : List Attr) (content : Markup) :
    definedIn [.element tag attrs content] =
      (attrs.map Attr.read).filterMap definitionNumber? ++ definedIn content := by
  simp only [definedIn, definitionsOf, tagsOf, Html.tags, Tag.start, Tag.stop, List.append_nil,
    List.flatMap_cons, List.flatMap_append, List.flatMap_nil, List.filterMap_nil]

theorem definedIn_lines (parts : List Markup) :
    definedIn (.lines parts) = definedIn parts.flatten := by
  induction parts with
  | nil => rfl
  | cons p ps ih =>
    cases ps with
    | nil => simp [Markup.lines, List.intercalate]
    | cons q qs =>
      have hcons : Markup.lines (p :: q :: qs) =
          p ++ (Markup.newline ++ Markup.lines (q :: qs)) := by
        simp [Markup.lines, List.intercalate]
      have hall :
          definedIn (p :: q :: qs).flatten = definedIn p ++ definedIn (q :: qs).flatten := by
        rw [List.flatten_cons, definedIn_append]
      rw [hcons, hall, definedIn_append, definedIn_append, ih]
      rfl

theorem definedIn_stack (tag : Tag) (attrs : List Attr) (parts : List Markup) :
    definedIn (.stack tag attrs parts) =
      (attrs.map Attr.read).filterMap definitionNumber? ++ definedIn parts.flatten := by
  have hends : definedIn (parts.flatMap (· ++ [Html.lineEnd])) = definedIn parts.flatten := by
    induction parts with
    | nil => rfl
    | cons p ps ih =>
      rw [List.flatMap_cons, List.flatten_cons, definedIn_append, definedIn_append,
        definedIn_append, ih]
      exact congrArg (· ++ _) (List.append_nil _)
  rw [Markup.stack, definedIn_element]
  exact congrArg _ hends

/-! ### Tags that define nothing -/

/-- Whether no id of a palette is that of a definition. -/
def Palette.DefinesNothing (P : Palette) : Prop :=
  ∀ i, P.id i → ¬ "_footnotedef_".toList <+: i.toList

variable {P : Palette}

theorem Made.definesNothing (hid : P.DefinesNothing) {link : Bool} {attrs : List Attr}
    (h : Made P link attrs) : (attrs.map Attr.read).filterMap definitionNumber? = [] := by
  rw [List.filterMap_eq_nil_iff]
  intro x hx
  obtain ⟨a, ha, rfl⟩ := List.mem_map.1 hx
  unfold definitionNumber?
  split
  · rename_i name value hread
    split
    · rename_i hname
      rw [hname] at hread
      cases hafter : after? "_footnotedef_".toList value with
      | none => rfl
      | some number =>
        have hprefix := (after?_eq_some.1 hafter).symm
        exact absurd ⟨number, hprefix⟩ (h.not_definition hid a ha hread)
    · rfl
  · rfl

mutual

theorem Html.Fine.definesNothing (hid : P.DefinesNothing) :
    ∀ h : Html, h.Fine P → definitionsOf h.tags = []
  | .doctype => fun _ => by decide
  | .text _ => fun _ => rfl
  | .attrText _ => fun _ => rfl
  | .raw _ => fun _ => rfl
  | .charRef _ => fun _ => rfl
  | .void tag attrs => fun hf => by
    rw [Html.tags, definitionsOf, List.flatMap_singleton]
    exact Made.definesNothing hid hf
  | .element tag attrs content => fun hf => by
    have helement := definedIn_element tag attrs content
    rw [Made.definesNothing hid hf.1, definedIn, tagsOf, tagsOf, List.append_nil] at helement
    rw [helement]
    exact FineAll.definesNothing hid content hf.2

theorem FineAll.definesNothing (hid : P.DefinesNothing) :
    ∀ m : List Html, FineAll P m → definedIn m = []
  | [] => fun _ => rfl
  | h :: hs => fun hf => by
    rw [definedIn, tagsOf, definitionsOf_append, Html.Fine.definesNothing hid h hf.1]
    exact FineAll.definesNothing hid hs hf.2

end

/-! ### The definitions of a page -/

theorem attributeEntity_digit {c : Char} (h : c.isDigit = true) : Text.attributeEntity c = [c] := by
  unfold Text.attributeEntity
  split
  · exact absurd h (by decide)
  · exact absurd h (by decide)
  · unfold Text.textEntity
    split
    · exact absurd h (by decide)
    · exact absurd h (by decide)
    · exact absurd h (by decide)
    · rfl

theorem escapedAttribute_digits {cs : List Char} (h : ∀ c ∈ cs, c.isDigit = true) :
    Text.escapedAttribute cs = cs := by
  induction cs with
  | nil => rfl
  | cons c cs ih =>
    rw [Text.escapedAttribute_cons, attributeEntity_digit (h c List.mem_cons_self),
      ih fun d hd => h d (List.mem_cons_of_mem c hd)]
    rfl

theorem definitionNumber?_note (index : Nat) :
    definitionNumber? (attr .id ("_footnotedef_" ++ toString index)).read =
      some (decimal index) := by
  rw [read_attr, String.toList_append, Text.escapedAttribute_append,
    escapedAttribute_digits fun _ => isDigit_of_mem_toString]
  exact after?_eq_some.2 rfl

namespace Page

variable {s : Scene}

theorem definedIn_drawn (hid : P.DefinesNothing) {ds : List NodeData} {m : Markup}
    (hm : Drawn P.page ds m) : definedIn m = [] :=
  FineAll.definesNothing (P := P.page) hid m hm.fine

theorem defined_ordinary (hid : P.DefinesNothing) {attrs : List Attr} (h : OrdinaryAttrs P attrs) :
    (attrs.map Attr.read).filterMap definitionNumber? = [] := by
  have hmade : Made P false attrs := .plain h nofun
  exact hmade.definesNothing hid

theorem definedIn_footnote (hs : s.Supplied P) (hid : P.DefinesNothing) {f : Footnote}
    (hf : SuppliedAll s P (Node.walkAll f.text)) :
    definedIn (footnote s f).value = [decimal f.index] := by
  have hlink : Drawn P.page (dataOf f.text)
      (.element .a [attr .href ("#_footnoteref_" ++ toString f.index)] [.text (toString f.index)] ::
        .text ". " :: (runningText s f.text).value) :=
    .consLeaf (.link (by simp) (.href _ _) (.text _)) (.consLeaf (.text _) (pageText_drawn hs hf))
  have hclass : definitionNumber? (attr .classes "footnote").read = none := by
    rw [read_attr]
    rfl
  simp only [footnote, Rendered.value_bind, Rendered.value_pure]
  rw [definedIn_stack, definedIn_drawn hid (.part hlink), List.append_nil, List.map_cons,
    List.filterMap_cons_none hclass, List.map_cons, List.filterMap_cons_some
      (definitionNumber?_note f.index)]
  rfl

theorem definedIn_notes (hs : s.Supplied P) (hid : P.DefinesNothing) {fs : List Footnote}
    (hf : ∀ f ∈ fs, SuppliedAll s P (Node.walkAll f.text)) :
    definedIn (Rendered.sequence (fs.map (footnote s))).value.flatten =
      fs.map fun f => decimal f.index := by
  induction fs with
  | nil => rfl
  | cons f fs ih =>
    have hhead := definedIn_footnote hs hid (hf f List.mem_cons_self)
    have htail := ih fun g hg => hf g (List.mem_cons_of_mem f hg)
    simp only [List.map_cons, Rendered.sequence, Rendered.value_bind, Rendered.value_pure,
      List.flatten_cons, definedIn_append, hhead, htail, List.singleton_append]

/-- The section of footnotes has the definitions of the catalog in order. -/
theorem definedIn_footnotes (hs : s.Supplied P) (hid : P.DefinesNothing)
    (hf : ∀ f ∈ s.doc.catalog.footnotes, SuppliedAll s P (Node.walkAll f.text))
    (hshown : s.hasAttr "nofootnotes" = false) :
    definedIn (footnotes s).value.flatten =
      s.doc.catalog.footnotes.map fun f => decimal f.index := by
  simp only [footnotes, hshown]
  split
  · rename_i hnotes
    have hlist : definitionNumber? (attr .id "footnotes").read = none := by
      rw [read_attr]
      decide
    have hwidth := defined_ordinary hid (maxWidth_ordinary (P := P) s)
    simp only [Rendered.value_bind, Rendered.value_pure, List.flatten_cons, List.flatten_nil,
      List.append_nil]
    rw [definedIn_stack, definedIn_notes hs hid hf, List.map_cons,
      List.filterMap_cons_none hlist, hwidth, List.nil_append]
  · rename_i hnotes
    have hnone : s.doc.catalog.footnotes = [] := by
      simpa [Document.hasFootnotes] using hnotes
    rw [hnone]
    rfl

theorem definedIn_around (lines : List Markup) :
    definedIn (around s lines).flatten = definedIn lines.flatten := by
  unfold around
  split
  · rfl
  · rw [List.flatten_cons, List.flatten_nil, List.append_nil, definedIn_stack]
    rfl

/-- A whole page defines the footnotes of the catalog, each once and in order, and nothing else. -/
theorem definedIn_standalone (h : Supplied s P) (hhead : HeadSupplied s P) (hid : P.DefinesNothing)
    (hf : ∀ f ∈ s.doc.catalog.footnotes, SuppliedAll s P (Node.walkAll f.text))
    (hshown : s.hasAttr "nofootnotes" = false) :
    definedIn (standalone s).value = s.doc.catalog.footnotes.map fun f => decimal f.index := by
  have hroot := defined_ordinary hid (ordinaryAttrs_id.2 h.root)
  have hhtml := defined_ordinary hid (htmlAttrs_ordinary (P := P) s)
  have hdoctype : definedIn [.doctype] = [] := by decide
  have hheadLines : definedIn (Markup.stack .head []
      ((headLines s).value ++ highlighterHead s)) = [] := by
    rw [definedIn_stack, definedIn_drawn hid (allHeadLines_drawn h hhead)]
    rfl
  -- All parts of the page but the section of footnotes are drawn from the palette.
  rw [standalone_value, definedIn_lines]
  simp only [List.flatten_cons, List.flatten_nil, List.append_nil, definedIn_append, hdoctype,
    definedIn_stack, hhtml, hheadLines, hroot, definedIn_around, List.flatten_append,
    definedIn_drawn hid (frontLines_drawn h), definedIn_drawn hid (backLines_drawn h),
    definedIn_footnotes h.scene hid hf hshown, List.nil_append]

end Page

end DocPress
