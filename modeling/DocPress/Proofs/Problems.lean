import DocPress.Converter
import DocPress.Node.Build
import DocPress.Proofs.TallyTree
import Mathlib.Data.List.Count

/-! The problems that rendering recovers from, told from what a page shows and not from how it is
rendered, and the warnings of a conversion: one for each of these problems wherever it is shown.
References that resolve to nothing are no such problem: they show their id and say nothing. -/

namespace DocPress

set_option autoImplicit false

open Block

/-! ### Problems -/

/-- What is wrong with the file of an SVG that is to be inserted. -/
def fileProblems (s : Scene) (target : String) : List Warning :=
  if Asset.isUri target then [.remoteSvg target]
  else
    let path := Svg.pathOf s target
    match s.files.read path with
    | .error cause => [.unreadableSvg path cause]
    | .ok svg => if svg.isEmpty then [.emptySvg path] else []

/-- What is wrong with an image: only those that ask for it are read. -/
def imageProblems (s : Scene) (d : NodeData) : List Warning :=
  if Svg.isSvg d (d.target.getD "") && d.hasOption "inline" then fileProblems s (d.target.getD "")
  else []

namespace NodeData

/-- The types of anchors that there are rules for. -/
def anchorTypes : List String := ["xref", "ref", "link", "bibref"]

/-- What is wrong with a node in running text: it is a block, an anchor of no known type, or an
image that cannot be inserted. -/
def textProblems (s : Scene) (d : NodeData) : List Warning :=
  match d.kind with
  | .inlineAnchor =>
    if d.variant.any (· ∈ anchorTypes) then [] else [.unknownAnchor (d.variant.getD "none")]
  | .inlineImage => if d.variant = some "icon" then [] else imageProblems s d
  | kind => if kind.isInline then [] else [.blockInText kind]

/-- What is wrong with a node in the place of a block: it is inline, left out, or an image that
cannot be inserted. -/
def placeProblems (s : Scene) (parent : Option Parent) (d : NodeData) : List Warning :=
  match d.kind with
  | .openBlock => if d.isLeftOut (isBook s) parent then [leftOutWarning d] else []
  | .image => imageProblems s d
  | kind => if kind.isInline then [.inlineAmongBlocks kind] else []

end NodeData

namespace Node

mutual

/-- An inline node and those that its text shows, in the order of the page. -/
def seen : Node → List Node
  | ⟨d, title, text, items, entries, blocks, table⟩ =>
    ⟨d, title, text, items, entries, blocks, table⟩ :: if d.showsText then seenOpt text else []

def seenAll : List Node → List Node
  | [] => []
  | n :: ns => seen n ++ seenAll ns

def seenOpt : Option (List Node) → List Node
  | none => []
  | some ns => seenAll ns

end

end Node

/-- The title that is shown in place of an id, if the target has no text for references. -/
def Reference.lent (s : Scene) (id : String) : Option Inlines :=
  (target? s id).bind fun t => if (t.reftext.filter (· ≠ "")).isSome then none else t.title

/-- What is wrong with a node that running text shows, or with the title that it borrows. -/
def Node.problems (s : Scene) (n : Node) : List Warning :=
  n.data.textProblems s ++
    if Reference.isBare n then
      (seenOpt (Reference.lent s (Inline.refIdOf n.data))).flatMap fun m => m.data.textProblems s
    else []

namespace Sight

/-- The nodes that a text shows. -/
def seen : Sight → List Node
  | .text ns => Node.seenOpt ns
  | .equation n => Node.seenOpt n.text
  | .listing n => Node.seenOpt n.text
  | _ => []

def problems (s : Scene) : Sight → List Warning
  | .block parent n => n.data.placeProblems s parent
  | x => x.seen.flatMap (Node.problems s)

end Sight

/-! ### Warnings of running text -/

section Text

variable {s : Scene} {w : Wording}

theorem warnings_read (d : NodeData) (target : String) :
    (Svg.read s d target).warnings = fileProblems s target := by
  simp only [Svg.read, fileProblems]
  split
  · rfl
  · cases s.files.read (Svg.pathOf s target) with
    | error cause => rfl
    | ok svg => cases h : svg.isEmpty <;> simp [h, Rendered.warn]

theorem warnings_picture (d : NodeData) (dimensions : List Attr) :
    (Inline.picture s d dimensions).warnings = imageProblems s d := by
  have hread := warnings_read (s := s) d (d.target.getD "")
  simp only [Inline.picture, imageProblems]
  split
  · rw [Rendered.warnings_bind, hread]
    cases (Svg.read s d (d.target.getD "")).value <;> exact List.append_nil _
  · split
    · split <;> rfl
    · rfl

theorem warnings_image (d : NodeData) : (Inline.image s d).warnings =
    if d.variant = some "icon" then [] else imageProblems s d := by
  have htype : d.variant.getD "image" = "icon" ↔ d.variant = some "icon" := by
    cases d.variant with
    | none => simp
    | some v => simp
  simp only [Inline.image, htype]
  split
  · rfl
  · rw [Rendered.warnings_bind, warnings_picture]
    exact List.append_nil _

/-- The warnings of a node in running text whose references are worded from outside. -/
def Node.warned (s : Scene) (w : Wording) (n : Node) : List Warning :=
  n.data.textProblems s ++
    if Reference.isBare n then (w n.data (Inline.refIdOf n.data)).warnings else []

mutual

theorem warnings_inline : ∀ n : Node,
    (inlineAs s w n.kind n).warnings = n.seen.flatMap (Node.warned s w)
  | ⟨d, title, text, items, entries, blocks, table⟩ => by
    let n : Node := ⟨d, title, text, items, entries, blocks, table⟩
    have hcontent := warnings_inlineContent d text
    have hor := warnings_inlineOr text
    change (inlineAs s w d.kind n).warnings = n.seen.flatMap _
    -- Only anchors, footnotes, images and terms of the index look at more than their kind.
    cases hk : d.kind
    case inlineAnchor =>
      simp only [n, inlineAs]
      split
      all_goals
        rename_i hv
        simp only [Node.seen, List.flatMap_cons, Node.warned, Reference.isBare,
          NodeData.textProblems, NodeData.showsText, Node.kind, Node.variant, hk, hv]
      · cases hp : d.attr? "path" with
        | some path => simp [NodeData.anchorTypes, Node.attr?, hp, hor]
        | none =>
          cases ht : text.any (!·.isEmpty) <;>
            simp [NodeData.anchorTypes, Node.attr?, Node.hasText, hp, ht, hor]
      · simp [NodeData.anchorTypes]
      · simp [NodeData.anchorTypes, hor]
      · simp [NodeData.anchorTypes]
      · simp_all [NodeData.anchorTypes, Rendered.warn]
      · simp [Rendered.warn]
    case inlineFootnote =>
      have hb : (d.variant == some "xref") = decide (d.variant = some "xref") :=
        beq_eq_decide _ _
      by_cases hv : d.variant = some "xref" <;> cases hi : d.attr? indexName <;>
        simp [n, inlineAs, Node.seen, Node.warned, Reference.isBare, NodeData.textProblems,
          NodeData.showsText, Node.kind, Kind.isInline, hk, hb, hv, hi, hcontent]
    case inlineIndexterm =>
      by_cases hv : d.variant = some "visible" <;>
        simp [n, inlineAs, Node.seen, Node.warned, Reference.isBare, NodeData.textProblems,
          NodeData.showsText, Node.kind, Kind.isInline, hk, hv, hcontent]
    case inlineImage =>
      simp [n, inlineAs, Node.seen, Node.warned, Reference.isBare, NodeData.textProblems,
        NodeData.showsText, Node.kind, hk, warnings_image]
    all_goals
      simp [n, inlineAs, Node.seen, Node.warned, Reference.isBare, NodeData.textProblems,
        NodeData.showsText, Node.kind, Kind.isInline, hk, hcontent, Rendered.warn]

theorem warnings_inlines : ∀ ns : List Node,
    (inlines s w ns).warnings = (Node.seenAll ns).flatMap (Node.warned s w)
  | [] => rfl
  | n :: ns => by
    have hn := warnings_inline n
    have hns := warnings_inlines ns
    simp only [inlines, Rendered.warnings_bind, Rendered.warnings_pure, Node.seenAll,
      List.flatMap_append, List.append_nil, ← hn, ← hns, Node.kind]

theorem warnings_inlineContent (d : NodeData) : ∀ text : Option (List Node),
    (inlineContent s w d text).warnings = (Node.seenOpt text).flatMap (Node.warned s w)
  | none => rfl
  | some ns => by rw [inlineContent, Node.seenOpt, warnings_inlines ns]

theorem warnings_inlineOr : ∀ (text : Option (List Node)) (other : Rendered Markup),
    (inlineOr s w text other).warnings =
      (if text.any (!·.isEmpty) then [] else other.warnings) ++
        (Node.seenOpt text).flatMap (Node.warned s w)
  | none, _ => (List.append_nil _).symm
  | some [], _ => (List.append_nil _).symm
  | some (n :: ns), _ => by
    rw [inlineOr, Node.seenOpt, warnings_inlines (n :: ns)]
    rfl

end

/-- Inside borrowed words references say nothing. -/
theorem warned_plain (n : Node) :
    n.warned s (Reference.plainWording s) = n.data.textProblems s := by
  rw [Node.warned, Reference.plainWording, Rendered.warnings_pure, ite_self, List.append_nil]

theorem warnings_wordsFor (style : Option String) (id : String) :
    (Reference.wordsFor s style id).warnings =
      (Node.seenOpt (Reference.lent s id)).flatMap fun n => n.data.textProblems s := by
  have htitle : ∀ title : Inlines, (inlines s (Reference.plainWording s) title).warnings =
      (Node.seenAll title).flatMap fun n => n.data.textProblems s := by
    intro title
    rw [warnings_inlines]
    exact congrArg (fun f => (Node.seenAll title).flatMap f) (funext warned_plain)
  unfold Reference.wordsFor Reference.lent
  cases Reference.target? s id with
  | none => rfl
  | some target =>
    have hquiet : ∀ {f : Option Markup → Rendered Markup}, (∀ words, (f words).warnings = []) →
        (Reference.offered s target style >>= f).warnings =
          (Reference.offered s target style).warnings := by
      intro f hf
      rw [Rendered.warnings_bind, hf, List.append_nil]
    refine (hquiet fun words => ?_).trans ?_
    · cases words <;> rfl
    rw [Option.bind_some, Reference.offered]
    cases target.reftext.filter (· ≠ "") with
    | some reftext => rfl
    | none =>
      cases target.title with
      | none => rfl
      | some title =>
        refine Eq.trans ?_ (htitle title)
        exact (List.append_nil _).trans (Rendered.warnings_map _ _)

theorem warned_wording : Node.warned s (Reference.wording s) = Node.problems s := by
  funext n
  rw [Node.warned, Node.problems, Reference.wording, warnings_wordsFor]

theorem warnings_runningText (ns : Option Inlines) : (runningText s (ns.getD [])).warnings =
    (Node.seenOpt ns).flatMap (Node.problems s) := by
  cases ns with
  | none => rfl
  | some ns =>
    rw [← warned_wording]
    exact warnings_inlines ns

end Text

/-! ### Warnings of blocks -/

/-- The count of one warning. -/
def Tally.ofWarning (w : Warning) : Tally := ⟨0, (· == w)⟩

namespace Tally

variable {s : Scene} {w : Warning}

theorem of_ofWarning (x : Rendered Markup) : (ofWarning w).of x = x.warnings.count w := by
  rw [of, ofWarning, Nat.zero_mul, Nat.zero_add]
  rfl

theorem toNat_beq (v : Warning) : (v == w).toNat = [v].count w := by
  cases h : v == w <;> simp [List.count_cons, h]

theorem own_ofWarning (parent : Option Parent) (n : Node) :
    (ofWarning w).own s parent n = (n.data.placeProblems s parent).count w := by
  have hwarn : ∀ v, ((ofWarning w).counted v).toNat = [v].count w := toNat_beq
  simp only [own, NodeData.placeProblems, hwarn, warnings_picture]
  cases hk : n.data.kind
  case «section» => exact Nat.zero_mul _
  case openBlock =>
    simp only
    split <;> rfl
  case image => rfl
  all_goals rfl

theorem sight_ofWarning (x : Sight) :
    x.tally (ofWarning w) s = (x.problems s).count w := by
  cases x with
  | block parent n => exact own_ofWarning parent n
  | text ns =>
    rw [Sight.tally_text, text, of_ofWarning, warnings_runningText]
    rfl
  | equation n =>
    rw [Sight.tally_equation, text, of_ofWarning, warnings_runningText]
    rfl
  | listing n =>
    rw [Sight.tally_listing, listing, of_ofWarning, Rendered.warnings_map, warnings_verbatim,
      warnings_runningText]
    rfl
  | _ => rfl

theorem sights_ofWarning (xs : List Sight) :
    sightsTally (ofWarning w) s xs = (xs.flatMap (Sight.problems s)).count w := by
  induction xs with
  | nil => rfl
  | cons x xs ih =>
    rw [sightsTally_cons, sight_ofWarning, ih, List.flatMap_cons, List.count_append]

end Tally

section

variable (s : Scene)

/-- The warnings of a block are the problems of what it shows, in the order of rendering. -/
theorem warnings_block (parent : Option Parent) (n : Node) :
    (blockAs s n.kind parent n).warnings.Perm
      ((n.sights (isBook s) parent).flatMap (Sight.problems s)) := by
  apply List.perm_iff_count.mpr
  intro w
  have hcount := tally_block (s := s) (.ofWarning w) n parent
  rwa [Tally.of_ofWarning, Tally.sights_ofWarning] at hcount

theorem warnings_body :
    (Page.body s).warnings.Perm (s.doc.sights.flatMap (Sight.problems s)) := by
  apply List.perm_iff_count.mpr
  intro w
  have hcount := tally_siblings (s := s) (.ofWarning w) (some s.doc.root.data.asParent)
    s.doc.root.blocks
  rw [Tally.lines, Tally.sights_ofWarning] at hcount
  simpa [Page.body, blocksIn, Tally.ofWarning, List.count, Document.sights, isBook] using hcount

end

/-! ### Warnings of pages -/

namespace Page

variable (s : Scene)

/-- What the content alone shows, below the title if that is to be shown. -/
def embeddedSights : List Sight :=
  (if s.hasAttr "showtitle" && !s.hasAttr "notitle" then [.text s.doc.title?] else []) ++
    s.doc.sights

def headerSights : List Sight :=
  if s.hasAttr "noheader" then []
  else (if s.hasAttr "notitle" then [] else [.text s.doc.title?]) ++
    [.text s.doc.headerOrBlank.subtitle]

def footnoteSights : List Sight :=
  if s.doc.hasFootnotes && !s.hasAttr "nofootnotes" then
    s.doc.catalog.footnotes.map fun f => .text (some f.text)
  else []

/-- What a whole page shows of the document. -/
def standaloneSights : List Sight := headerSights s ++ s.doc.sights ++ footnoteSights s

/-- The style sheet of the document, if it is to be inserted. -/
def insertedSheet? : Option String :=
  if s.hasAttr "linkcss" then none
  else (s.attr? "stylesheet").filter fun sheet => sheet ≠ "" && sheet ≠ "DEFAULT"

/-- What is wrong with the style sheet that is to be inserted. -/
def sheetProblems : List Warning :=
  match insertedSheet? s with
  | none => []
  | some sheet =>
    let path := s.basePath (Asset.join (s.attr? "stylesdir") sheet)
    match s.files.read path with
    | .ok _ => []
    | .error cause => [.unreadableStylesheet path cause]

theorem warnings_embedded :
    (embedded s).warnings.Perm ((embeddedSights s).flatMap (Sight.problems s)) := by
  have htitle : ∀ title : Inlines, (runningText s title).warnings =
      (Sight.text (some title)).problems s := fun title => warnings_runningText (some title)
  have hall : (embedded s).warnings =
      (if s.hasAttr "showtitle" && !s.hasAttr "notitle" then [Sight.text s.doc.title?]
        else []).flatMap (Sight.problems s) ++ (body s).warnings := by
    by_cases hshown : (s.hasAttr "showtitle" && !s.hasAttr "notitle") = true
    · cases ht : s.doc.title? with
      | none => simp [embedded, hshown, ht, Sight.problems, Sight.seen, Node.seenOpt]
      | some title => simp [embedded, hshown, ht, htitle]
    · cases ht : s.doc.title? <;> simp [embedded, hshown, ht]
  rw [hall, embeddedSights, List.flatMap_append]
  exact (warnings_body s).append_left _

theorem warnings_stylesheet : (stylesheet s).warnings = sheetProblems s := by
  unfold stylesheet sheetProblems insertedSheet?
  cases (s.attr? "stylesheet").filter fun sheet => sheet ≠ "" && sheet ≠ "DEFAULT" with
  | none => rw [ite_self]; rfl
  | some sheet =>
    by_cases hlink : s.hasAttr "linkcss" = true
    · simp [hlink]
    · simp only [if_neg hlink, readStylesheet]
      cases s.files.read (s.basePath (Asset.join (s.attr? "stylesdir") sheet)) <;> rfl

theorem warnings_header : (header s).warnings =
    (if s.hasAttr "notitle" then [] else (Sight.text s.doc.title?).problems s) ++
      (Sight.text s.doc.headerOrBlank.subtitle).problems s := by
  have htext : ∀ ns : Inlines, (runningText s ns).warnings =
      (Sight.text (some ns)).problems s := fun ns => warnings_runningText (some ns)
  have hnone : (Sight.text none).problems s = [] := rfl
  have hsubtitle : (Sight.text s.doc.headerOrBlank.subtitle).problems s =
      (Sight.text (s.doc.headerOrBlank.subtitle.filter (!·.isEmpty))).problems s := by
    cases s.doc.headerOrBlank.subtitle with
    | none => rfl
    | some subtitle => cases subtitle <;> rfl
  rw [hsubtitle]
  by_cases hnotitle : s.hasAttr "notitle" = true
  · cases hsub : s.doc.headerOrBlank.subtitle.filter (!·.isEmpty) <;>
      simp [header, hnotitle, hsub, htext, hnone]
  · cases ht : s.doc.title? <;> cases hsub : s.doc.headerOrBlank.subtitle.filter (!·.isEmpty) <;>
      simp [header, hnotitle, ht, hsub, htext, hnone]

theorem warnings_footnotes :
    (footnotes s).warnings = (footnoteSights s).flatMap (Sight.problems s) := by
  have hnotes : ∀ fs : List Footnote, (Rendered.sequence (fs.map (footnote s))).warnings =
      (fs.map fun f => Sight.text (some f.text)).flatMap (Sight.problems s) := by
    intro fs
    induction fs with
    | nil => rfl
    | cons f fs ih =>
      have hnote : (footnote s f).warnings = (Sight.text (some f.text)).problems s := by
        have htext := warnings_runningText (s := s) (some f.text)
        simpa [footnote, Sight.problems, Sight.seen] using htext
      simp [Rendered.sequence, hnote, ih]
  by_cases hshown : (s.doc.hasFootnotes && !s.hasAttr "nofootnotes") = true
  · simp [footnotes, footnoteSights, hshown, hnotes]
  · simp [footnotes, footnoteSights, hshown]

theorem warnings_standalone : (standalone s).warnings.Perm
    (sheetProblems s ++ (standaloneSights s).flatMap (Sight.problems s)) := by
  have hlines : (bodyLines s).warnings = (headerSights s).flatMap (Sight.problems s) ++
      ((body s).warnings ++ (footnoteSights s).flatMap (Sight.problems s)) := by
    rw [headerSights, ← warnings_footnotes]
    by_cases hnoheader : s.hasAttr "noheader" = true
    · simp [bodyLines, hnoheader]
    · by_cases hnotitle : s.hasAttr "notitle" = true <;>
        simp [bodyLines, hnoheader, hnotitle, warnings_header]
  have hall : (standalone s).warnings = sheetProblems s ++
      ((headerSights s).flatMap (Sight.problems s) ++ ((body s).warnings ++
        (footnoteSights s).flatMap (Sight.problems s))) := by
    simp [standalone, headLines, warnings_stylesheet, hlines]
  rw [hall, standaloneSights, List.flatMap_append, List.flatMap_append, List.append_assoc]
  exact (((warnings_body s).append_right _).append_left _).append_left _

end Page

namespace Converter

open Page

/-- The warnings of a conversion are the problems of what the page shows, each as often as it is
shown, in the order of rendering: of the content alone, of a whole page with its style sheet, and of
a single node. So there are none exactly when nothing is wrong. -/
theorem warnings_problems (c : Converter) (d : Document) :
    let s := c.scene d
    (c.embedded d).warnings.Perm ((embeddedSights s).flatMap (Sight.problems s)) ∧
    (c.standalone d).warnings.Perm
      (sheetProblems s ++ (standaloneSights s).flatMap (Sight.problems s)) ∧
    (∀ n : Node, (c.apply (.node n.kind) d n).warnings.Perm
      (if n.isInline then n.seen.flatMap (Node.problems s)
      else (n.sights (isBook s) none).flatMap (Sight.problems s))) ∧
    ((c.embedded d).warnings = [] ↔ ∀ x ∈ embeddedSights s, x.problems s = []) ∧
    ((c.standalone d).warnings = [] ↔
      sheetProblems s = [] ∧ ∀ x ∈ standaloneSights s, x.problems s = []) := by
  intro s
  have hembedded : (c.embedded d).warnings.Perm ((embeddedSights s).flatMap (Sight.problems s)) :=
    warnings_embedded s
  have hstandalone : (c.standalone d).warnings.Perm
      (sheetProblems s ++ (standaloneSights s).flatMap (Sight.problems s)) :=
    warnings_standalone s
  refine ⟨hembedded, hstandalone, ?_, ?_, ?_⟩
  · intro n
    have hinline : n.kind.isInline = n.isInline := rfl
    rw [apply, hinline]
    split
    · have hinline := warnings_inline (s := s) (w := Reference.wording s) n
      rw [warned_wording] at hinline
      exact .of_eq hinline
    · exact warnings_block s none n
  · rw [← List.flatMap_eq_nil_iff]
    exact ⟨fun h => (h ▸ hembedded).nil_eq.symm, fun h => (h ▸ hembedded).eq_nil⟩
  · rw [← List.flatMap_eq_nil_iff, ← List.append_eq_nil_iff]
    exact ⟨fun h => (h ▸ hstandalone).nil_eq.symm, fun h => (h ▸ hstandalone).eq_nil⟩

/-- A paragraph that is a reference to an id that no node has. -/
def danglingSample : Document :=
  let reference := (Node.ofKind .inlineAnchor).withVariant "xref"
  let paragraph := Node.ofKind .paragraph
  Document.blank.withBlocks [paragraph.withText [reference.withAttr "refid" (.text "missing")]]

/-- A reference that resolves to nothing shows its id in brackets without any warning. -/
theorem embedded_silentReference :
    let c : Converter := ⟨.initial, none, .blank⟩
    let s := c.scene (danglingSample.prepareWith ∅)
    (∃ n ∈ (embeddedSights s).flatMap Sight.seen, Reference.isBare n = true ∧
      Reference.target? s (Inline.refIdOf n.data) = none) ∧
      (c.embedded s.doc).html = "<p><a href=\"#missing\">[missing]</a></p>" ∧
      (c.embedded s.doc).warnings = [] := by
  intro c s
  refine ⟨⟨_, List.mem_cons_self, ?_, ?_⟩, ?_, rfl⟩
  · decide
  · rfl
  · decide

end Converter

end DocPress
