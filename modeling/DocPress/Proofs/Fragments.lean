import DocPress.Converter
import DocPress.Proofs.AgreementBlocks

/-! A block that is converted alone makes the fragment that it makes at the top of its document. The
content of a document is therefore put together from the fragments of its topmost blocks, and none
of these depends on the others. -/

namespace DocPress

set_option autoImplicit false

/-- Whether the title of a document is shown above its content. -/
def Scene.ShowsTitle (s : Scene) : Prop :=
  s.doc.title?.isSome = true ∧ s.hasAttr "showtitle" = true ∧ s.hasAttr "notitle" = false

/-- The document with other topmost blocks. -/
def Document.overBlocks (d : Document) (blocks : List Node) : Document :=
  { d with root := { d.root with blocks } }

/-! ### The topmost place -/

/-- An open block cannot tell the root of a document from no parent. -/
theorem Block.openBlock_atTop (s : Scene) (n : Node) (content : Rendered Markup) {p : Parent}
    (hp : p.kind = .document) :
    Block.openBlock s n (some p) content = Block.openBlock s n none content := by
  have hroot : Block.atRoot (some p) = Block.atRoot none := by simp [Block.atRoot, hp]
  have hpart : Block.inPart (some p) = Block.inPart none := by simp [Block.inPart, hp]
  simp only [Block.openBlock, Block.abstractBlock, hroot, hpart]

theorem blockAs_atTop (s : Scene) (kind : Kind) {p : Parent} (hp : p.kind = .document) (n : Node) :
    blockAs s kind (some p) n = blockAs s kind none n := by
  obtain ⟨d, title, text, items, entries, blocks, table⟩ := n
  unfold blockAs
  cases kind with
  | openBlock => exact Block.openBlock_atTop s _ _ hp
  | _ => rfl

/-- Nodes of inline kinds are passed over among blocks, with a warning. -/
theorem blockAs_inline (s : Scene) {kind : Kind} (hkind : kind.isInline = true)
    (parent : Option Parent) (n : Node) :
    blockAs s kind parent n = .warn (.inlineAmongBlocks kind) [] := by
  obtain ⟨d, title, text, items, entries, blocks, table⟩ := n
  unfold blockAs
  cases kind <;> first | rfl | cases hkind

namespace Converter

variable (c : Converter) (d : Document)

/-! ### Fragments -/

/-- What a block comes to alone. A node of an inline kind is no block: it comes to nothing, with the
warning that it was passed over. -/
def fragment (b : Node) : Conversion :=
  match c.convertBlock d b with
  | .ok alone => alone
  | .error _ => ⟨"", [.inlineAmongBlocks b.kind]⟩

theorem fragment_eq (b : Node) :
    c.fragment d b = (blockAs (c.scene d) b.kind none b).conversion := by
  unfold fragment convertBlock
  cases hb : b.isInline with
  | true =>
    rw [blockAs_inline (c.scene d) hb]
    rfl
  | false =>
    have hkind : b.kind.isInline = false := hb
    simp only [Bool.false_eq_true, if_false, apply, hkind]

/-- Blocks side by side at the top of a document are their fragments, one after the other. -/
theorem siblings_fragments {p : Parent} (hp : p.kind = .document) (bs : List Node) :
    (siblings (c.scene d) (some p) bs).value.map Markup.render =
        bs.map (fun b => (c.fragment d b).html) ∧
      (siblings (c.scene d) (some p) bs).warnings =
        bs.flatMap fun b => (c.fragment d b).warnings := by
  induction bs with
  | nil => exact ⟨rfl, rfl⟩
  | cons b bs ih =>
    obtain ⟨hvalue, hwarnings⟩ := ih
    have hfirst : (blockAs (c.scene d) b.data.kind (some p) b).conversion = c.fragment d b := by
      rw [blockAs_atTop (c.scene d) _ hp, fragment_eq]
    have hhtml := congrArg Conversion.html hfirst
    have hwarn := congrArg Conversion.warnings hfirst
    simp only [Rendered.conversion] at hhtml hwarn
    constructor
    · simp only [siblings, Rendered.value_bind, Rendered.value_pure, List.map_cons, hvalue, hhtml]
    · simp only [siblings, Rendered.warnings_bind, Rendered.warnings_pure, List.append_nil,
        List.flatMap_cons, hwarnings, hwarn]

/-- Without its title, the content of a document is its body. -/
theorem embedded_untitled {s : Scene} (h : ¬ s.ShowsTitle) : Page.embedded s = Page.body s := by
  have halone : Page.embedded s = (do return .lines ([] ++ [← Page.body s])) := by
    unfold Page.embedded
    cases htitle : s.doc.title? with
    | none => rfl
    | some title =>
      have hhidden : (s.hasAttr "showtitle" && !s.hasAttr "notitle") = false := by
        simpa [Scene.ShowsTitle, htitle] using h
      simp only [hhidden]
      rfl
  rw [halone]
  refine Rendered.ext ?_ ?_
  · simp [Markup.lines]
  · simp

/-- The topmost blocks of a document are not seen by what stands beside them. -/
theorem fragment_overBlocks (bs : List Node) (b : Node) :
    c.fragment (d.overBlocks bs) b = c.fragment d b := by
  have halike : (c.scene (d.overBlocks bs)).Alike (c.scene d) :=
    ⟨⟨rfl, rfl, rfl⟩, rfl, rfl, rfl, rfl, rfl⟩
  have hlistings := halike.listing rfl
  rw [fragment_eq, fragment_eq]
  exact congrArg Rendered.conversion (halike.blockAs b none fun n _ _ => congrFun hlistings n)

/-- If the title is not shown, the content of a document is the fragments of its topmost blocks on
lines of their own, with the warnings of these in order. The fragment of a block is what the block
is converted to alone, and stays the same whatever stands beside it. -/
theorem embedded_fragments (hroot : d.root.kind = .document) (htitle : ¬ (c.scene d).ShowsTitle) :
    (c.embedded d).html = "\n".intercalate (d.root.blocks.map fun b => (c.fragment d b).html) ∧
      (c.embedded d).warnings = d.root.blocks.flatMap (fun b => (c.fragment d b).warnings) ∧
      (∀ b, b.isInline = false → c.convertBlock d b = .ok (c.fragment d b)) ∧
      (∀ b, b.isInline = true → c.convertBlock d b = .error (.notABlock b.kind) ∧
        c.fragment d b = ⟨"", [.inlineAmongBlocks b.kind]⟩) ∧
      ∀ bs b, c.fragment (d.overBlocks bs) b = c.fragment d b := by
  obtain ⟨hvalue, hwarnings⟩ :=
    c.siblings_fragments d (p := d.root.data.asParent) hroot d.root.blocks
  refine ⟨?_, ?_, ?_, ?_, c.fragment_overBlocks d⟩
  · rw [embedded, embedded_untitled htitle, ← hvalue, ← Markup.render_lines]
    rfl
  · rw [embedded, embedded_untitled htitle, ← hwarnings]
    simp only [Page.body, blocksIn, Rendered.conversion, Rendered.warnings_bind,
      Rendered.warnings_pure, List.append_nil]
    rfl
  · intro b hb
    simp only [fragment, convertBlock, hb, Bool.false_eq_true, if_false]
  · intro b hb
    simp only [fragment, convertBlock, hb, if_true, and_self]

/-- Three blocks at the top of a document, the second of which is none. -/
theorem embedded_threeFragments :
    let c : Converter := ⟨Options.initial, none, .blank⟩
    let abstract : Node := { Node.ofKind .openBlock with
      data := { kind := .openBlock, style := some "abstract" }
      text := some [.plain "short"] }
    let d := Document.blank.withBlocks
      [abstract, .ofKind .inlineBreak, { Node.ofKind .paragraph with text := some [.plain "end"] }]
    d.root.kind = .document ∧ ¬ (c.scene d).ShowsTitle ∧
      (c.embedded d).html =
        "<div class=\"quote abstract\">\n<blockquote>\nshort\n</blockquote>\n</div>\n\n<p>end</p>" ∧
      (c.embedded d).warnings = [.inlineAmongBlocks .inlineBreak] := by
  intro c abstract d
  have htitle : ¬ (c.scene d).ShowsTitle := fun h => absurd h.1 (by decide)
  obtain ⟨hhtml, hwarnings, -⟩ := c.embedded_fragments d rfl htitle
  refine ⟨rfl, htitle, hhtml.trans ?_, hwarnings.trans ?_⟩
  · decide +kernel
  · decide +kernel

end Converter

end DocPress
