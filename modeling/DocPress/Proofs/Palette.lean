import DocPress.Inline
import DocPress.Equation
import DocPress.Proofs.Sealed

/-! Markup as the renderer draws it. Every tag has the attributes of a template; what a template
inserts without escaping comes from a palette that the caller chooses, and the marks of footnotes
follow the data of the nodes that the markup is drawn from. Each routine of the renderer is shown
once to draw; what its output may hold is then read off the palette. -/

namespace DocPress

set_option autoImplicit false

/-- What the templates may insert: texts and parts of attribute values that are not escaped, numbers
of footnotes, and ids. `split` says whether equations have been split, which takes texts apart. -/
structure Palette where
  text : String → Prop
  value : String → Prop
  number : String → Prop
  id : String → Prop
  split : Prop

namespace Palette

/-- What may stand unescaped outside of tags. -/
inductive Text (P : Palette) : String → Prop
  | own {s : String} (h : P.text s) : Text P s
  | number {s : String} (h : P.number s) : Text P s
  | glyph {s : String} {c : Char} (hs : P.split) (h : Text P s) (hc : c ∈ s.toList) :
    Text P c.toString

/-- What may stand unescaped within attribute values. -/
inductive Value (P : Palette) : String → Prop
  | own {s : String} (h : P.value s) : Value P s
  | number {s : String} (h : P.number s) : Value P s
  | glyph {s : String} {c : Char} (hs : P.split) (h : Value P s) (hc : c ∈ s.toList) :
    Value P c.toString
  | joint (hs : P.split) (ends : Nat) :
    Value P (String.ofList (Equation.joint Equation.ascii ends).chars)

/-- Whether one palette allows all that another one allows. -/
structure Le (P Q : Palette) : Prop where
  text : ∀ {s}, P.text s → Q.text s
  value : ∀ {s}, P.value s → Q.value s
  number : ∀ {s}, P.number s → Q.number s
  id : ∀ {s}, P.id s → Q.id s
  split : P.split → Q.split

variable {P Q : Palette}

theorem Le.refl (P : Palette) : Le P P :=
  ⟨fun h => h, fun h => h, fun h => h, fun h => h, fun h => h⟩

theorem Text.mono (h : Le P Q) {s : String} (hs : P.Text s) : Q.Text s := by
  induction hs with
  | own hs => exact .own (h.text hs)
  | number hs => exact .number (h.number hs)
  | glyph hp _ hc ih => exact .glyph (h.split hp) ih hc

theorem Value.mono (h : Le P Q) {s : String} (hs : P.Value s) : Q.Value s := by
  induction hs with
  | own hs => exact .own (h.value hs)
  | number hs => exact .number (h.number hs)
  | glyph hp _ hc ih => exact .glyph (h.split hp) ih hc
  | joint hp ends => exact .joint (h.split hp) ends

end Palette

/-! ### Attributes -/

/-- Whether a template of an ordinary element may have the attribute: an id stands alone and
escaped. -/
structure Attr.Ordinary (P : Palette) (a : Attr) : Prop where
  known : a.name.Known
  values : ∀ s ∈ a.rawValues, P.Value s
  ids : a.name = .id → ∃ i, a = attr .id i ∧ P.id i

/-- How the attributes of a link begin that is no mark of a footnote. -/
inductive LinkHead : List Attr → Prop
  | nil : LinkHead []
  | id (i : String) : LinkHead [attr .id i]
  | href (v : String) (rest : List Attr) : LinkHead (attr .href v :: rest)
  | property (v : String) (rest : List Attr) : LinkHead (attr .property v :: rest)
  | box (v : String) (rest : List Attr) (h : v ≠ "footnote") : LinkHead (attr .classes v :: rest)

def noteAttrs (index : String) : List Attr :=
  [attr .classes "footnote", .value .href [.escaped "#_footnotedef_", .raw index],
    attr .title "View footnote."]

def markId (index : String) : Attr := .value .id [.escaped "_footnoteref_", .raw index]

/-- The attributes that templates give to links and to other elements. -/
inductive Made (P : Palette) : Bool → List Attr → Prop
  | plain {link : Bool} {attrs : List Attr} (h : ∀ a ∈ attrs, a.Ordinary P)
    (head : link = true → LinkHead attrs) : Made P link attrs
  | noteBox (i : String) : Made P false [attr .classes "footnote", attr .id ("_footnote_" ++ i)]
  | noteLink {i : String} (h : P.number i) : Made P true (noteAttrs i)
  | noteMark {i : String} (h : P.number i) : Made P true (markId i :: noteAttrs i)
  | split {link : Bool} {attrs : List Attr} (hs : P.split) (h : Made P link attrs) :
    Made P link (attrs.map (Equation.splitAttr Equation.ascii))

/-! ### Markup -/

mutual

/-- Whether a node is drawn by the templates from the palette. -/
def Html.Fine (P : Palette) : Html → Prop
  | .raw s => P.Text s
  | .void _ attrs => Made P false attrs
  | .element tag attrs content => Made P (tag == .a) attrs ∧ FineAll P content
  | _ => True

def FineAll (P : Palette) : List Html → Prop
  | [] => True
  | h :: hs => h.Fine P ∧ FineAll P hs

end

variable {P Q : Palette}

theorem fineAll_append {a b : List Html} : FineAll P (a ++ b) ↔ FineAll P a ∧ FineAll P b := by
  induction a with
  | nil => simp [FineAll]
  | cons h hs ih => simp only [List.cons_append, FineAll, ih, and_assoc]

theorem Attr.Ordinary.mono (h : Palette.Le P Q) {a : Attr} (ha : a.Ordinary P) : a.Ordinary Q where
  known := ha.known
  values s hs := (ha.values s hs).mono h
  ids hid := by
    obtain ⟨i, hi, hp⟩ := ha.ids hid
    exact ⟨i, hi, h.id hp⟩

theorem Made.mono (h : Palette.Le P Q) {link : Bool} {attrs : List Attr} (hm : Made P link attrs) :
    Made Q link attrs := by
  induction hm with
  | plain ho head => exact .plain (fun a ha => (ho a ha).mono h) head
  | noteBox i => exact .noteBox i
  | noteLink hi => exact .noteLink (h.number hi)
  | noteMark hi => exact .noteMark (h.number hi)
  | split hs _ ih => exact .split (h.split hs) ih

mutual

theorem Html.Fine.mono (h : Palette.Le P Q) : ∀ n : Html, n.Fine P → n.Fine Q
  | .raw _ => fun hn => Palette.Text.mono h hn
  | .void _ _ => fun hn => Made.mono h hn
  | .element _ _ content => fun hn => ⟨hn.1.mono h, FineAll.mono h content hn.2⟩
  | .doctype => fun _ => trivial
  | .text _ => fun _ => trivial
  | .attrText _ => fun _ => trivial
  | .charRef _ => fun _ => trivial

theorem FineAll.mono (h : Palette.Le P Q) : ∀ m : List Html, FineAll P m → FineAll Q m
  | [] => fun _ => trivial
  | n :: ns => fun hm => ⟨Html.Fine.mono h n hm.1, FineAll.mono h ns hm.2⟩

end

/-! ### Splitting equations -/

theorem Equation.mem_splitAt {α : Type} {glyph? : α → Option Char} {joint : Nat → List α} {x : α} :
    ∀ {skip : Nat} {items : List α}, x ∈ splitAt glyph? joint skip items →
      x ∈ items ∨ ∃ ends, x ∈ joint ends
  | _, [], h => by simp [splitAt] at h
  | _ + 1, _ :: rest, h => by
    have hrest : x ∈ rest ∨ ∃ ends, x ∈ joint ends := mem_splitAt h
    exact hrest.imp_left (List.mem_cons_of_mem _)
  | 0, a :: rest, h => by
    unfold splitAt at h
    split at h
    · rcases List.mem_append.1 h with h | h
      · exact .inr ⟨_, h⟩
      · exact (mem_splitAt h).imp_left (List.mem_cons_of_mem _)
    · rcases List.mem_cons.1 h with rfl | h
      · exact .inl List.mem_cons_self
      · exact (mem_splitAt h).imp_left (List.mem_cons_of_mem _)

theorem splitAttr_name (d : Equation.Delimiters) (a : Attr) :
    (Equation.splitAttr d a).name = a.name := by
  cases a <;> rfl

/-- What a split value holds unescaped: characters of what it held before, and joints. -/
theorem mem_rawValues_splitAttr {d : Equation.Delimiters} {a : Attr} {s : String}
    (h : s ∈ (Equation.splitAttr d a).rawValues) :
    (∃ r ∈ a.rawValues, ∃ c ∈ r.toList, s = c.toString) ∨
      ∃ ends, s = String.ofList (Equation.joint d ends).chars := by
  cases a with
  | flag name => simp [Equation.splitAttr, Attr.rawValues] at h
  | value name pieces =>
    simp only [Equation.splitAttr, Attr.rawValues, List.mem_filterMap] at h ⊢
    obtain ⟨p, hp, hs⟩ := h
    rcases Equation.mem_splitAt hp with hp | ⟨ends, hp⟩
    · obtain ⟨q, hq, hp⟩ := List.mem_flatMap.1 hp
      cases q with
      | escaped t =>
        obtain ⟨c, _, rfl⟩ := List.mem_map.1 hp
        simp [Piece.raw?] at hs
      | raw t =>
        obtain ⟨c, hc, rfl⟩ := List.mem_map.1 hp
        obtain rfl : c.toString = s := by simpa [Piece.raw?] using hs
        exact .inl ⟨t, ⟨_, hq, rfl⟩, c, hc, rfl⟩
    · obtain rfl := List.mem_singleton.1 hp
      exact .inr ⟨ends, by simpa [Piece.raw?] using hs.symm⟩

/-! ### What fine markup holds -/

theorem Made.known {link : Bool} {attrs : List Attr} (h : Made P link attrs) :
    ∀ a ∈ attrs, a.name.Known := by
  induction h with
  | plain ho _ => exact fun a ha => (ho a ha).known
  | noteBox i => simp [attr, Attr.name, AttrName.Known]
  | noteLink _ => simp [noteAttrs, attr, Attr.name, AttrName.Known]
  | noteMark _ => simp [markId, noteAttrs, attr, Attr.name, AttrName.Known]
  | split _ _ ih =>
    intro a ha
    obtain ⟨b, hb, rfl⟩ := List.mem_map.1 ha
    rw [splitAttr_name]
    exact ih b hb

theorem Made.values {link : Bool} {attrs : List Attr} (h : Made P link attrs) :
    ∀ s ∈ attrs.flatMap Attr.rawValues, P.Value s := by
  induction h with
  | plain ho _ =>
    intro s hs
    obtain ⟨a, ha, hs⟩ := List.mem_flatMap.1 hs
    exact (ho a ha).values s hs
  | noteBox i => simp [attr, Attr.rawValues, Piece.raw?]
  | @noteLink i hi =>
    intro s hs
    obtain rfl : i = s := by simpa [noteAttrs, attr, Attr.rawValues, Piece.raw?] using hs
    exact .number hi
  | @noteMark i hi =>
    intro s hs
    obtain rfl : i = s := by simpa [markId, noteAttrs, attr, Attr.rawValues, Piece.raw?] using hs
    exact .number hi
  | split hp _ ih =>
    intro s hs
    obtain ⟨a, ha, hs⟩ := List.mem_flatMap.1 hs
    obtain ⟨b, hb, rfl⟩ := List.mem_map.1 ha
    rcases mem_rawValues_splitAttr hs with ⟨r, hr, c, hc, rfl⟩ | ⟨ends, rfl⟩
    · exact .glyph hp (ih r (List.mem_flatMap.2 ⟨b, hb, hr⟩)) hc
    · exact .joint hp ends

mutual

theorem Html.Fine.named : ∀ n : Html, n.Fine P → n.Named
  | .raw _ => fun _ => trivial
  | .void _ _ => fun hn => Made.known hn
  | .element _ _ content => fun hn => ⟨hn.1.known, FineAll.named content hn.2⟩
  | .doctype => fun _ => trivial
  | .text _ => fun _ => trivial
  | .attrText _ => fun _ => trivial
  | .charRef _ => fun _ => trivial

theorem FineAll.named : ∀ m : List Html, FineAll P m → NamedAll m
  | [] => fun _ => trivial
  | n :: ns => fun hm => ⟨Html.Fine.named n hm.1, FineAll.named ns hm.2⟩

end

mutual

theorem Html.Fine.raws : ∀ n : Html, n.Fine P →
    (∀ s ∈ n.rawTexts, P.Text s) ∧ ∀ s ∈ n.rawValues, P.Value s
  | .raw s => fun hn => ⟨by simpa [Html.rawTexts, Html.Fine] using hn, by simp [Html.rawValues]⟩
  | .void _ attrs => fun hn => ⟨by simp [Html.rawTexts], Made.values hn⟩
  | .element _ attrs content => fun hn => by
    obtain ⟨ht, hv⟩ := FineAll.raws content hn.2
    refine ⟨ht, fun s hs => ?_⟩
    rcases List.mem_append.1 hs with hs | hs
    · exact hn.1.values s hs
    · exact hv s hs
  | .doctype => fun _ => by simp [Html.rawTexts, Html.rawValues]
  | .text _ => fun _ => by simp [Html.rawTexts, Html.rawValues]
  | .attrText _ => fun _ => by simp [Html.rawTexts, Html.rawValues]
  | .charRef _ => fun _ => by simp [Html.rawTexts, Html.rawValues]

theorem FineAll.raws : ∀ m : List Html, FineAll P m →
    (∀ s ∈ rawTextsOf m, P.Text s) ∧ ∀ s ∈ rawValuesOf m, P.Value s
  | [] => fun _ => by simp [rawTextsOf, rawValuesOf]
  | n :: ns => fun hm => by
    have h1 := Html.Fine.raws n hm.1
    have h2 := FineAll.raws ns hm.2
    simp only [rawTextsOf, rawValuesOf, List.mem_append, or_imp, forall_and]
    exact ⟨⟨h1.1, h2.1⟩, h1.2, h2.2⟩

end

end DocPress
