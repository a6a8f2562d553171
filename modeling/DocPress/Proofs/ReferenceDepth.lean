import DocPress.Converter
import DocPress.Proofs.Agreement

/-! The words of a reference come from one entry of the catalog. References inside borrowed words
show their ids, so no title is borrowed on the way to another one, and references that lead back
to where they started end like all others. -/

namespace DocPress

set_option autoImplicit false

/-- The document with other targets for its references. -/
def Document.withRefs (d : Document) (refs : SortedMap RefTarget) : Document :=
  { d with catalog := { d.catalog with refs := refs } }

namespace Reference

/-- Running text inside borrowed words. -/
def borrowed (s : Scene) (ns : Inlines) : Rendered Markup := inlines s (plainWording s) ns

/-- The text that stands for an id inside borrowed words. -/
def bracketedText (s : Scene) (id : String) : String :=
  if id.isEmpty && (s.doc.catalog.ref? id).isNone then "[^top]" else "[" ++ id ++ "]"

/-- Whether a node is a reference within the document that has no text of its own. -/
def isBare (n : Node) : Bool :=
  n.kind == .inlineAnchor && n.variant == some "xref" && (n.attr? "path").isNone && !n.hasText

/-- Gives a reference without a text its id in brackets as text. -/
def spellOut (s : Scene) (n : Node) : Node :=
  if isBare n then { n with text := some [.plain (bracketedText s (Inline.refIdOf n.data))] }
  else n

theorem bracketed_eq (s : Scene) (id : String) : bracketed s id = [.text (bracketedText s id)] := by
  unfold bracketed bracketedText
  split <;> rfl

/-! ### Borrowed words without borrowing -/

section Spelled

variable {s : Scene}

theorem inlineOr_blank {w : Wording} {text : Option Inlines} (h : text.any (!·.isEmpty) = false)
    (other : Rendered Markup) : inlineOr s w text other = other := by
  match text, h with
  | none, _ => simp only [inlineOr]
  | some [], _ => simp only [inlineOr]

theorem inlineOr_nonblank {w : Wording} {text : Option Inlines}
    (h : text.any (!·.isEmpty) = true) (other other' : Rendered Markup) :
    inlineOr s w text other = inlineOr s w text other' := by
  match text, h with
  | some (n :: ns), _ => simp only [inlineOr]

theorem hasText_mapOpt (g : Node → Node) (text : Option Inlines) :
    (Node.mapOpt g text).any (!·.isEmpty) = text.any (!·.isEmpty) := by
  match text with
  | none => rfl
  | some [] => rfl
  | some (_ :: _) => rfl

theorem inlines_plain (w : Wording) (text : String) :
    inlines s w [.plain text] = pure [.text text] := by
  simp [inlines, inlineAs, Node.plain, Node.leaf]

/-- The markup of a reference without a text is that of its words. -/
theorem inlineAs_bare (w : Wording) {n : Node} (h : isBare n = true) :
    inlineAs s w n.kind n = do
      return Inline.refLink n.data (← w n.data (Inline.refIdOf n.data)) := by
  obtain ⟨d, title, text, items, entries, blocks, table⟩ := n
  simp only [isBare, Bool.and_eq_true, beq_iff_eq, Option.isNone_iff_eq_none,
    Bool.not_eq_true'] at h
  obtain ⟨⟨⟨hk, hv⟩, hp⟩, ht⟩ := h
  change d.kind = .inlineAnchor at hk
  change d.variant = some "xref" at hv
  change d.attr? "path" = none at hp
  simp only [Node.kind, hk, inlineAs, hv, hp, inlineOr_blank ht]

/-- The markup of a reference with an id in brackets as text. -/
theorem inlineAs_spelledOut (w : Wording) {n : Node} (h : isBare n = true) :
    inlineAs s w n.kind (spellOut s n) =
      pure (Inline.refLink n.data (bracketed s (Inline.refIdOf n.data))) := by
  rw [spellOut, if_pos h, bracketed_eq]
  obtain ⟨d, title, text, items, entries, blocks, table⟩ := n
  simp only [isBare, Bool.and_eq_true, beq_iff_eq, Option.isNone_iff_eq_none] at h
  obtain ⟨⟨⟨hk, hv⟩, hp⟩, -⟩ := h
  change d.kind = .inlineAnchor at hk
  change d.variant = some "xref" at hv
  change d.attr? "path" = none at hp
  simp only [Node.kind, hk, inlineAs, hv, hp, inlineOr, inlines_plain, pure_bind]

theorem data_spelled (n : Node) : (n.map (spellOut s)).data = n.data := by
  obtain ⟨d, title, text, items, entries, blocks, table⟩ := n
  rw [Node.map, spellOut]
  split <;> rfl

variable (w : Wording)

mutual

theorem inlineAs_spelled : ∀ n : Node,
    inlineAs s w n.kind (n.map (spellOut s)) = inlineAs s (plainWording s) n.kind n
  | ⟨d, title, text, items, entries, blocks, table⟩ => by
    let n : Node := ⟨d, title, text, items, entries, blocks, table⟩
    -- `m` is the node with spelled children, before it is spelled itself.
    let m : Node := ⟨d, Node.mapOpt (spellOut s) title, Node.mapOpt (spellOut s) text,
      Node.mapAll (spellOut s) items, Node.mapEntries (spellOut s) entries,
      Node.mapAll (spellOut s) blocks, Node.mapTable (spellOut s) table⟩
    change inlineAs s w m.kind (spellOut s m) = inlineAs s (plainWording s) n.kind n
    have hbare : isBare m = isBare n := by
      simp only [isBare, Node.hasText, m, n, hasText_mapOpt]
    cases hn : isBare n with
    | true => rw [inlineAs_spelledOut w (hbare.trans hn), inlineAs_bare _ hn, plainWording]; rfl
    | false =>
      have hm : spellOut s m = m := if_neg (by simp [hbare, hn])
      have hcontent := inlineContent_spelled d text
      have hor := inlineOr_spelled text
      rw [hm]
      change inlineAs s w d.kind m = inlineAs s (plainWording s) d.kind n
      cases hk : d.kind <;> simp only [m, n, inlineAs, hcontent, hor]
      case inlineAnchor =>
        -- Only the reference without a path could be worded, and this one has a text.
        cases hp : d.attr? "path" with
        | some path => rfl
        | none =>
          have ht : d.kind = .inlineAnchor → d.variant = some "xref" →
              text.any (!·.isEmpty) = true := by
            simpa [isBare, Node.hasText, n, hp] using hn
          by_cases hv : d.variant = some "xref"
          · simp only [hv, inlineOr_nonblank (ht hk hv) (w d (Inline.refIdOf d))
              (plainWording s d (Inline.refIdOf d))]
          · split
            · exact absurd ‹d.variant = some "xref"› hv
            · rfl
            · rfl
            · rfl
            · rfl
            · rfl

theorem inlines_spelled : ∀ ns : List Node,
    inlines s w (Node.mapAll (spellOut s) ns) = inlines s (plainWording s) ns
  | [] => by simp only [Node.mapAll, inlines]
  | n :: ns => by
    simp only [Node.mapAll, inlines, data_spelled, inlineAs_spelled n, inlines_spelled ns]

theorem inlineContent_spelled (d : NodeData) : ∀ text : Option (List Node),
    inlineContent s w d (Node.mapOpt (spellOut s) text) =
      inlineContent s (plainWording s) d text
  | some ns => by simp only [Node.mapOpt, inlineContent, inlines_spelled ns]
  | none => by simp only [Node.mapOpt, inlineContent]

theorem inlineOr_spelled : ∀ (text : Option (List Node)) (other : Rendered Markup),
    inlineOr s w (Node.mapOpt (spellOut s) text) other = inlineOr s (plainWording s) text other
  | some (n :: ns), _ => by
    have hns := inlines_spelled (n :: ns)
    simp only [Node.mapOpt, Node.mapAll, inlineOr] at hns ⊢
    exact hns
  | some [], _ => by simp only [Node.mapOpt, Node.mapAll, inlineOr]
  | none, _ => by simp only [Node.mapOpt, inlineOr]

end

end Spelled

/-! ### One entry of the catalog -/

section Entries

variable {s t : Scene} (h : s.Agree t)
  (htop : (s.doc.catalog.ref? "").isNone = (t.doc.catalog.ref? "").isNone)

include htop in
theorem bracketed_agree : bracketed s = bracketed t := by
  funext id
  rw [bracketed_eq, bracketed_eq, bracketedText, bracketedText]
  cases hid : id.isEmpty with
  | true => rw [String.isEmpty_iff.1 hid, htop]
  | false => rfl

include h htop

theorem borrowed_agree : borrowed s = borrowed t := by
  funext ns
  have hplain : plainWording s = plainWording t := by
    funext _ id
    rw [plainWording, plainWording, bracketed_agree htop]
  rw [borrowed, borrowed, hplain, h.inlines]

theorem offered_agree : offered s = offered t := by
  funext target style
  have htitle : ∀ title, inlines s (plainWording s) title = inlines t (plainWording t) title :=
    congrFun (borrowed_agree h htop)
  have hsigned : signed s = signed t := by
    funext sectname sectnum
    simp only [signed, h.attr?]
  simp only [offered, htitle, sectionWords, hsigned]

/-- The words of a reference are those of the entry of its id, whatever the other entries are. -/
theorem wordsFor_agree {id : String} (hid : s.doc.catalog.ref? id = t.doc.catalog.ref? id)
    (hroot : s.doc.rootTarget = t.doc.rootTarget) (style : Option String) :
    wordsFor s style id = wordsFor t style id := by
  have htarget : target? s id = target? t id := by rw [target?, target?, hid, hroot]
  simp only [wordsFor, htarget, offered_agree h htop, bracketed_agree htop]

end Entries

end Reference

namespace Converter

open Reference

/-- Resolving an id looks at the entry of this id and at no other one: borrowed words are the same
for all targets of references, and they are those of a text whose references without a text show
their ids in brackets, in whatever way references are worded. -/
theorem resolve_oneLevel (c : Converter) (d : Document) (refs : SortedMap RefTarget)
    (htop : refs.contains "" = d.catalog.refs.contains "") :
    (∀ id, refs.get? id = d.catalog.refs.get? id →
      c.resolve (d.withRefs refs) id none = c.resolve d id none ∧
      ∀ style, wordsFor (c.scene (d.withRefs refs)) style id = wordsFor (c.scene d) style id) ∧
    ∀ ns, borrowed (c.scene (d.withRefs refs)) ns = borrowed (c.scene d) ns ∧
      ∀ w, inlines (c.scene d) w (Node.mapAll (spellOut (c.scene d)) ns) =
        borrowed (c.scene d) ns := by
  let s := c.scene (d.withRefs refs)
  let t := c.scene d
  have h : s.Agree t := ⟨rfl, rfl, rfl⟩
  have htop' : (s.doc.catalog.ref? "").isNone = (t.doc.catalog.ref? "").isNone := by
    rw [← Option.not_isSome, ← Option.not_isSome]
    exact congrArg not htop
  have hwords : ∀ id, refs.get? id = d.catalog.refs.get? id →
      ∀ style, wordsFor s style id = wordsFor t style id := fun id hid style =>
    wordsFor_agree h htop' hid rfl style
  refine ⟨fun id hid => ⟨?_, hwords id hid⟩, fun ns => ⟨?_, fun w => inlines_spelled w ns⟩⟩
  · exact congrArg (fun m => m.value.render) (hwords id hid (t.attr? "xrefstyle"))
  · exact congrFun (borrowed_agree h htop') ns

/-- A target with a title that refers to another id. -/
def crossTarget (id word other : String) : RefTarget :=
  let ref : Node := .leaf { kind := .inlineAnchor, variant := some "xref", target := some other }
  { RefTarget.ofNode id (.ofKind .section) with title := some [.plain word, ref] }

/-- Two targets whose titles refer to each other. -/
def circle (word : String) : SortedMap RefTarget :=
  ((∅ : SortedMap RefTarget).insert "a" (crossTarget "a" "first, then " "b")).insert "b"
    (crossTarget "b" word "a")

/-- Titles that refer to each other are shown with ids in brackets, and a change to one of them
does not show in the words of the other. -/
theorem resolve_circle :
    let c : Converter := ⟨.initial, none, .blank⟩
    let d := Document.blank.withRefs (circle "second, then ")
    let changed := circle "another, then "
    changed.contains "" = d.catalog.refs.contains "" ∧
      c.resolve (d.withRefs changed) "a" none = c.resolve d "a" none ∧
      c.resolve d "a" none = "first, then [b]" ∧
      c.resolve (d.withRefs changed) "b" none ≠ c.resolve d "b" none := by
  intro c d changed
  have htop : changed.contains "" = d.catalog.refs.contains "" := by decide
  have hid : changed.get? "a" = d.catalog.refs.get? "a" := by rfl
  exact ⟨htop, ((resolve_oneLevel c d changed htop).1 "a" hid).1, by decide, by decide⟩

end Converter

end DocPress
