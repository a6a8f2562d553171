import DocPress.Block.Title
import DocPress.Proofs.Marks

/-! Markup drawn from nodes: the templates make all of it, and the marks of footnotes in it are
those of the nodes, in their order. Both survive the two ways in which finished markup is changed:
an equation is split, and words are borrowed without their anchors. -/

namespace DocPress

set_option autoImplicit false

variable {P Q : Palette} {a b ds : List NodeData} {m k : Markup}

/-! ### Attributes of templates -/

/-- Attributes that the template of an ordinary element may have. -/
def OrdinaryAttrs (P : Palette) (attrs : List Attr) : Prop := ∀ a ∈ attrs, a.Ordinary P

attribute [simp] AttrName.Known

@[simp] theorem ordinary_attr {name : AttrName} {v : String} :
    (attr name v).Ordinary P ↔ name.Known ∧ (name = .id → P.id v) := by
  constructor
  · intro h
    refine ⟨h.known, fun hn => ?_⟩
    obtain ⟨i, hi, hp⟩ := h.ids hn
    simp only [attr, Attr.value.injEq, List.cons.injEq, Piece.escaped.injEq, and_true] at hi
    rwa [hi.2]
  · rintro ⟨hk, hid⟩
    refine ⟨hk, by simp [attr, Attr.rawValues, Piece.raw?], fun hn => ?_⟩
    have hname : name = .id := hn
    subst hname
    exact ⟨v, rfl, hid rfl⟩

@[simp] theorem ordinary_flag {name : AttrName} :
    (Attr.flag name).Ordinary P ↔ name.Known ∧ name ≠ .id := by
  constructor
  · intro h
    refine ⟨h.known, fun hn => ?_⟩
    obtain ⟨i, hi, _⟩ := h.ids hn
    exact absurd hi nofun
  · rintro ⟨hk, hid⟩
    exact ⟨hk, by simp [Attr.rawValues], fun hn => absurd hn hid⟩

@[simp] theorem ordinaryAttrs_nil : OrdinaryAttrs P [] := nofun

@[simp] theorem ordinaryAttrs_cons {x : Attr} {xs : List Attr} :
    OrdinaryAttrs P (x :: xs) ↔ x.Ordinary P ∧ OrdinaryAttrs P xs :=
  List.forall_mem_cons

@[simp] theorem ordinaryAttrs_append {xs ys : List Attr} :
    OrdinaryAttrs P (xs ++ ys) ↔ OrdinaryAttrs P xs ∧ OrdinaryAttrs P ys :=
  List.forall_mem_append

@[simp] theorem ordinaryAttrs_optAttr {name : AttrName} {value : Option String} :
    OrdinaryAttrs P (optAttr name value) ↔
      ∀ v, value = some v → name.Known ∧ (name = .id → P.id v) := by
  cases value with
  | none => simp [optAttr]
  | some v => simp [optAttr]

@[simp] theorem ordinaryAttrs_optFlag {name : AttrName} {present : Bool} :
    OrdinaryAttrs P (optFlag name present) ↔
      (present = true → name.Known ∧ name ≠ .id) := by
  cases present <;> simp [optFlag]

@[simp] theorem ordinaryAttrs_ite {c : Prop} [Decidable c] {xs ys : List Attr} :
    OrdinaryAttrs P (if c then xs else ys) ↔
      (c → OrdinaryAttrs P xs) ∧ (¬ c → OrdinaryAttrs P ys) := by
  split <;> simp [*]

@[simp] theorem ordinaryAttrs_classes (list : ClassList) : OrdinaryAttrs P list.attrs := by
  simp [ClassList.attrs]

@[simp] theorem ordinaryAttrs_id {d : NodeData} :
    OrdinaryAttrs P d.idAttrs ↔ ∀ i, d.id = some i → P.id i := by
  simp [NodeData.idAttrs]

@[simp] theorem ordinaryAttrs_role (d : NodeData) : OrdinaryAttrs P d.roleAttrs :=
  ordinaryAttrs_classes _

@[simp] theorem ordinaryAttrs_class (d : NodeData) (base : String) :
    OrdinaryAttrs P (d.classAttrs base) :=
  ordinaryAttrs_classes _

@[simp] theorem ordinaryAttrs_link (d : NodeData) : OrdinaryAttrs P d.linkAttrs := by
  simp [NodeData.linkAttrs]

/-! ### Marks in order -/

/-- The number that a footnote shows in its mark. -/
def NodeData.markNumber? (d : NodeData) : Option (List Char) :=
  if d.kind = .inlineFootnote ∧ d.variant ≠ some "xref" then
    (d.attr? indexName).map String.toList
  else none

def numbersOf (ds : List NodeData) : List (List Char) := ds.filterMap NodeData.markNumber?

/-- Markup of the templates whose marks are those of the nodes, in their order. -/
structure Drawn (P : Palette) (ds : List NodeData) (m : Markup) : Prop where
  fine : FineAll P m
  marks : P.Clean → (marksOf m).Sublist (numbersOf ds)

namespace Drawn

theorem nil : Drawn P [] [] := ⟨trivial, fun _ => List.Sublist.refl _⟩

theorem append (hm : Drawn P a m) (hk : Drawn P b k) : Drawn P (a ++ b) (m ++ k) where
  fine := fineAll_append.2 ⟨hm.fine, hk.fine⟩
  marks hp := by
    rw [marksOf_append, numbersOf, List.filterMap_append]
    exact (hm.marks hp).append (hk.marks hp)

/-- Markup may leave out nodes that it is drawn from. -/
theorem within (hm : Drawn P a m) (h : a.Sublist b) : Drawn P b m where
  fine := hm.fine
  marks hp := (hm.marks hp).trans (h.filterMap _)

theorem mono (hm : Drawn P ds m) (h : Palette.Le P Q) : Drawn Q ds m where
  fine := FineAll.mono h m hm.fine
  marks hq := hm.marks (.of_le h hq)

theorem leaf {h : Html} (hf : h.Fine P) (ht : h.tags = []) : Drawn P [] [h] where
  fine := ⟨hf, trivial⟩
  marks _ := by
    rw [marksOf, tagsOf, ht]
    exact List.Sublist.refl _

theorem text (s : String) : Drawn P [] [.text s] := leaf trivial rfl

theorem attrText (s : String) : Drawn P [] [.attrText s] := leaf trivial rfl

theorem charRef (code : Nat) : Drawn P [] [.charRef code] := leaf trivial rfl

theorem raw {s : String} (h : P.text s) : Drawn P [] [.raw s] := leaf (.own h) rfl

theorem void {tag : VoidTag} {attrs : List Attr} (h : OrdinaryAttrs P attrs) :
    Drawn P [] [.void tag attrs] where
  fine := ⟨.plain h nofun, trivial⟩
  marks _ := by
    rw [marksOf, tagsOf, Html.tags, tagsOf, List.append_nil, List.filterMap_cons, mark?_void]
    exact List.Sublist.refl _

theorem element {tag : Tag} {attrs : List Attr} (h : OrdinaryAttrs P attrs)
    (head : tag = .a → LinkHead attrs) (hm : Drawn P ds m) :
    Drawn P ds [.element tag attrs m] where
  fine := ⟨⟨.plain h fun he => head (by simpa using he), hm.fine⟩, trivial⟩
  marks hp := by
    rw [marksOf_element, mark?_start]
    rw [markNumber?_ordinary hp h, ite_self]
    exact hm.marks hp

theorem cons {h : Html} (hh : Drawn P a [h]) (hm : Drawn P b m) : Drawn P (a ++ b) (h :: m) :=
  hh.append hm

/-- Elements between which nothing is marked. -/
theorem consLeaf {h : Html} (hh : Drawn P [] [h]) (hm : Drawn P ds m) : Drawn P ds (h :: m) :=
  hh.append hm

theorem concatLeaf {h : Html} (hm : Drawn P ds m) (hh : Drawn P [] [h]) :
    Drawn P ds (m ++ [h]) := by
  have happ := hm.append hh
  rwa [List.append_nil] at happ

theorem box {tag : Tag} {attrs : List Attr} (h : OrdinaryAttrs P attrs) (ht : tag ≠ .a)
    (hm : Drawn P ds m) : Drawn P ds [.element tag attrs m] :=
  element h (fun he => absurd he ht) hm

theorem link {attrs : List Attr} (h : OrdinaryAttrs P attrs) (head : LinkHead attrs)
    (hm : Drawn P ds m) : Drawn P ds [.element .a attrs m] :=
  element h (fun _ => head) hm

theorem noteLink {i : String} (h : P.number i) :
    Drawn P [] [.element .a (noteAttrs i) [.raw i]] where
  fine := ⟨⟨.noteLink h, .number h, trivial⟩, trivial⟩
  marks _ := by
    rw [marksOf_element, mark?_start, if_pos rfl, read_noteAttrs]
    exact List.Sublist.refl _

theorem noteMark {d : NodeData} {i : String} (h : P.number i)
    (hd : d.markNumber? = some i.toList) :
    Drawn P [d] [.element .a (markId i :: noteAttrs i) [.raw i]] where
  fine := ⟨⟨.noteMark h, .number h, trivial⟩, trivial⟩
  marks _ := by
    rw [marksOf_element, mark?_start, if_pos rfl, markNumber?_markId, numbersOf,
      List.filterMap_cons, hd]
    exact List.Sublist.refl _

/-- The element around a mark, which the id of the footnote names. -/
theorem noteBox (i : String) (hm : Drawn P ds m) :
    Drawn P ds [.element .sup [attr .classes "footnote", attr .id ("_footnote_" ++ i)] m] where
  fine := ⟨⟨.noteBox i, hm.fine⟩, trivial⟩
  marks hp := by
    rw [marksOf_element, mark?_start, if_neg (by decide)]
    exact hm.marks hp

/-! ### Lines -/

/-- Separators change neither what parts are made of nor their marks. -/
theorem intercalate {sep : Markup} (hsep : Drawn P [] sep) {parts : List Markup}
    (h : Drawn P ds parts.flatten) : Drawn P ds (sep.intercalate parts) := by
  have hsame : (FineAll P parts.flatten → FineAll P (sep.intercalate parts)) ∧
      (P.Clean → marksOf (sep.intercalate parts) = marksOf parts.flatten) := by
    clear h
    induction parts with
    | nil => exact ⟨id, fun _ => rfl⟩
    | cons p ps ih =>
      cases ps with
      | nil => simp [List.intercalate]
      | cons q qs =>
        have hcons : sep.intercalate (p :: q :: qs) = p ++ (sep ++ sep.intercalate (q :: qs)) := by
          simp [List.intercalate]
        rw [hcons, List.flatten_cons, fineAll_append, fineAll_append, fineAll_append,
          marksOf_append, marksOf_append, marksOf_append]
        refine ⟨fun hf => ⟨hf.1, hsep.fine, ih.1 hf.2⟩, fun hp => ?_⟩
        rw [List.sublist_nil.1 (hsep.marks hp), List.nil_append, ih.2 hp]
  exact ⟨hsame.1 h.fine, fun hp => hsame.2 hp ▸ h.marks hp⟩

theorem lines {parts : List Markup} (h : Drawn P ds parts.flatten) :
    Drawn P ds (Markup.lines parts) := intercalate (text "\n") h

theorem lineEnds {parts : List Markup} (h : Drawn P ds parts.flatten) :
    Drawn P ds (parts.flatMap (· ++ [Html.lineEnd])) := by
  have hsame : (FineAll P parts.flatten → FineAll P (parts.flatMap (· ++ [Html.lineEnd]))) ∧
      marksOf (parts.flatMap (· ++ [Html.lineEnd])) = marksOf parts.flatten := by
    clear h
    induction parts with
    | nil => exact ⟨id, rfl⟩
    | cons p ps ih =>
      rw [List.flatMap_cons, List.flatten_cons, List.append_assoc, fineAll_append, fineAll_append,
        marksOf_append, marksOf_append, marksOf_append p, ← ih.2]
      exact ⟨fun hf => ⟨hf.1, trivial, ih.1 hf.2⟩, rfl⟩
  exact ⟨hsame.1 h.fine, fun hp => hsame.2 ▸ h.marks hp⟩

/-- An element that is no link, its parts on lines of their own. -/
theorem stack {tag : Tag} {attrs : List Attr} {parts : List Markup}
    (h : OrdinaryAttrs P attrs) (ht : tag ≠ .a) (hm : Drawn P ds parts.flatten) :
    Drawn P ds (Markup.stack tag attrs parts) :=
  box h ht (consLeaf (text "\n") (lineEnds hm))

theorem part (hm : Drawn P ds m) : Drawn P ds [m].flatten := by
  rwa [List.flatten_cons, List.flatten_nil, List.append_nil]

theorem partCons {parts : List Markup} (hm : Drawn P a m) (h : Drawn P b parts.flatten) :
    Drawn P (a ++ b) (m :: parts).flatten :=
  hm.append h

theorem leafCons {parts : List Markup} (hm : Drawn P [] m) (h : Drawn P ds parts.flatten) :
    Drawn P ds (m :: parts).flatten :=
  hm.append h

theorem partsAppend {parts others : List Markup} (h : Drawn P a parts.flatten)
    (ho : Drawn P b others.flatten) : Drawn P (a ++ b) (parts ++ others).flatten := by
  rw [List.flatten_append]
  exact h.append ho

theorem partsConcat {parts : List Markup} (h : Drawn P a parts.flatten) (hm : Drawn P b m) :
    Drawn P (a ++ b) (parts ++ [m]).flatten :=
  h.partsAppend hm.part

theorem leavesAppend {parts others : List Markup} (h : Drawn P ds parts.flatten)
    (ho : Drawn P [] others.flatten) : Drawn P ds (parts ++ others).flatten := by
  have hall := h.partsAppend ho
  rwa [List.append_nil] at hall

theorem leaves {parts : List Markup} (h : ∀ m ∈ parts, Drawn P [] m) :
    Drawn P [] parts.flatten := by
  induction parts with
  | nil => exact nil
  | cons m ms ih =>
    exact (h m List.mem_cons_self).append (ih fun k hk => h k (List.mem_cons_of_mem m hk))

/-- Nodes that are drawn from none, with another such node between them. -/
theorem nodesBetween {sep : Html} (hsep : Drawn P [] [sep]) :
    ∀ {l : List Html}, (∀ x ∈ l, Drawn P [] [x]) → Drawn P [] (l.intersperse sep)
  | [], _ => nil
  | [x], h => h x List.mem_cons_self
  | x :: y :: rest, h => by
    rw [List.intersperse_cons_cons]
    exact (h x List.mem_cons_self).consLeaf
      (hsep.consLeaf (nodesBetween hsep fun z hz => h z (List.mem_cons_of_mem x hz)))

theorem when {present : Bool} (h : Drawn P ds m) : Drawn P ds (Markup.when present m).flatten := by
  cases present with
  | true => exact h.part
  | false => exact nil.within (List.nil_sublist ds)

end Drawn

/-! ### Splitting -/

theorem fineAll_iff : FineAll P m ↔ ∀ h ∈ m, h.Fine P := by
  induction m with
  | nil => simp [FineAll]
  | cons h hs ih => simp [FineAll, ih]

namespace Equation

theorem isSome_of_mem_furtherBreaks {α : Type} {glyph? : α → Option Char} : ∀ {items : List α},
    ∀ a ∈ items.take (furtherBreaks glyph? items).1, (glyph? a).isSome = true
  | [], a, ha => by simp at ha
  | [x], a, ha => by
    unfold furtherBreaks at ha
    split at ha
    · rename_i hshow
      obtain rfl : a = x := by simpa using ha
      simp_all [shows]
    · simp at ha
  | x :: y :: rest, a, ha => by
    unfold furtherBreaks at ha
    split at ha
    · rename_i hshow
      rcases List.mem_cons.1 ha with rfl | ha
      · simp_all [shows]
      · exact isSome_of_mem_furtherBreaks a ha
    · split at ha
      · rename_i hshow
        rw [Bool.and_eq_true_iff] at hshow
        rcases List.mem_cons.1 ha with rfl | ha
        · simp_all [shows]
        · rcases List.mem_cons.1 ha with rfl | ha
          · simp_all [shows]
          · exact isSome_of_mem_furtherBreaks a ha
      · simp at ha

theorem isSome_of_mem_takeWhile {α : Type} {glyph? : α → Option Char} {c : Char} {items : List α}
    {a : α} (ha : a ∈ items.takeWhile (shows glyph? c)) : (glyph? a).isSome = true := by
  have hall := List.all_takeWhile (p := shows glyph? c) (l := items)
  have hshow := List.all_eq_true.1 hall a ha
  simp_all [shows]

/-- The items of a break are single characters. -/
theorem isSome_of_mem_break? {α : Type} {glyph? : α → Option Char} {items : List α}
    {b : Nat × Nat} (h : break? glyph? items = some b) :
    ∀ a ∈ items.take b.1, (glyph? a).isSome = true := by
  have blank : blankLines? glyph? items = some b →
      ∀ a ∈ items.take b.1, (glyph? a).isSome = true := by
    intro hb a ha
    simp only [blankLines?] at hb
    split at hb
    · obtain rfl := Option.some.inj hb
      have htake : items.take (items.takeWhile (shows glyph? '\n')).length =
          items.takeWhile (shows glyph? '\n') :=
        (List.prefix_iff_eq_take.1 (List.takeWhile_prefix _)).symm
      rw [htake] at ha
      exact isSome_of_mem_takeWhile ha
    · simp at hb
  simp only [break?] at h
  split at h
  · rename_i x y rest hdrop
    split at h
    · rename_i hshow
      obtain rfl := Option.some.inj h
      rw [Bool.and_eq_true_iff] at hshow
      intro a ha
      have htake : items.take (items.takeWhile (shows glyph? ' ')).length =
          items.takeWhile (shows glyph? ' ') :=
        (List.prefix_iff_eq_take.1 (List.takeWhile_prefix _)).symm
      rw [Nat.add_assoc, Nat.add_comm 2, List.take_add, hdrop, htake, List.take_succ_cons,
        List.take_succ_cons] at ha
      rcases List.mem_append.1 ha with ha | ha
      · exact isSome_of_mem_takeWhile ha
      · rcases List.mem_cons.1 ha with rfl | ha
        · simp_all [shows]
        · rcases List.mem_cons.1 ha with rfl | ha
          · simp_all [shows]
          · exact isSome_of_mem_furtherBreaks a ha
    · exact blank h
  · simp at h

theorem pos_of_break? {α : Type} {glyph? : α → Option Char} {items : List α} {b : Nat × Nat}
    (h : break? glyph? items = some b) : 0 < b.1 := by
  have blank : blankLines? glyph? items = some b → 0 < b.1 := by
    intro hb
    simp only [blankLines?] at hb
    split at hb
    · rename_i hends
      obtain rfl := Option.some.inj hb
      exact Nat.lt_of_lt_of_le Nat.zero_lt_two hends
    · simp at hb
  simp only [break?] at h
  split at h
  · split at h
    · obtain rfl := Option.some.inj h
      simp only
      omega
    · exact blank h
  · simp at h

theorem fine_joint (ends : Nat) : FineAll P (joint ascii ends) := by
  rw [fineAll_iff]
  intro h hh
  rcases List.mem_cons.1 hh with rfl | hh
  · trivial
  · rcases List.mem_append.1 hh with hh | hh
    · obtain ⟨part, hpart, hh⟩ := List.mem_flatten.1 hh
      obtain rfl := List.eq_of_mem_replicate hpart
      rcases List.mem_cons.1 hh with rfl | hh
      · trivial
      · obtain rfl := List.mem_singleton.1 hh
        exact .plain nofun nofun
    · rcases List.mem_cons.1 hh with rfl | hh
      · trivial
      · obtain rfl := List.mem_singleton.1 hh
        trivial

theorem fine_splitAt {items : List Html} (h : FineAll P items) (skip : Nat) :
    FineAll P (splitAt Html.glyph? (joint ascii) skip items) := by
  rw [fineAll_iff] at h ⊢
  intro n hn
  rcases mem_splitAt hn with hn | ⟨ends, hn⟩
  · exact h n hn
  · exact fineAll_iff.1 (fine_joint ends) n hn

mutual

theorem fine_glyphs (hs : P.split) : ∀ h : Html, h.Fine P → FineAll P (glyphs ascii h)
  | .text s => fun _ => fineAll_iff.2 fun n hn => by
    obtain ⟨c, _, rfl⟩ := List.mem_map.1 hn
    trivial
  | .attrText s => fun _ => fineAll_iff.2 fun n hn => by
    obtain ⟨c, _, rfl⟩ := List.mem_map.1 hn
    trivial
  | .raw s => fun hf => fineAll_iff.2 fun n hn => by
    obtain ⟨c, hc, rfl⟩ := List.mem_map.1 hn
    exact Palette.Text.glyph hs hf hc
  | .element _ _ content => fun hf =>
    ⟨⟨.split hs hf.1, fine_splitAt (fine_glyphsOf hs content hf.2) 0⟩, trivial⟩
  | .void _ _ => fun hf => ⟨.split hs hf, trivial⟩
  | .charRef _ => fun _ => ⟨trivial, trivial⟩
  | .doctype => fun _ => ⟨trivial, trivial⟩

theorem fine_glyphsOf (hs : P.split) : ∀ m : List Html, FineAll P m → FineAll P (glyphsOf ascii m)
  | [] => fun _ => trivial
  | h :: hs' => fun hf => fineAll_append.2 ⟨fine_glyphs hs h hf.1, fine_glyphsOf hs hs' hf.2⟩

end

theorem tags_of_glyph? {h : Html} (hg : (Html.glyph? h).isSome = true) : h.tags = [] := by
  cases h <;> first | rfl | simp [Html.glyph?] at hg

theorem marksOf_joint (ends : Nat) : marksOf (joint ascii ends) = [] := by
  have hbreaks : ∀ n : Nat,
      marksOf (List.replicate n ([.text "\n", .void .br []] : Markup)).flatten = [] := by
    intro n
    induction n with
    | zero => rfl
    | succ n ih => rw [List.replicate_succ, List.flatten_cons, marksOf_append, ih]; rfl
  have hcons : joint ascii ends = [.text ascii.after] ++
      ((List.replicate (ends - 1) ([.text "\n", .void .br []] : Markup)).flatten ++
        [.text "\n", .text ascii.before]) := rfl
  rw [hcons, marksOf_append, marksOf_append, hbreaks]
  rfl

theorem marksOf_cons (h : Html) (m : Markup) : marksOf (h :: m) = marksOf [h] ++ marksOf m :=
  marksOf_append [h] m

/-- Breaks take texts only, so what is read off the tags of markup in order stays, if nothing is
read off a joint. -/
theorem read_splitAt {β : Type} {f : Markup → List β} (happ : ∀ a b, f (a ++ b) = f a ++ f b)
    (hjoint : ∀ ends, f (joint ascii ends) = []) (hleaf : ∀ h : Html, h.tags = [] → f [h] = []) :
    ∀ {skip : Nat} {items : List Html},
      (∀ a ∈ items.take skip, (Html.glyph? a).isSome = true) →
        f (splitAt Html.glyph? (joint ascii) skip items) = f items
  | _, [], _ => by simp [splitAt]
  | skip + 1, a :: rest, h => by
    have ha : f [a] = [] := hleaf a (tags_of_glyph? (h a (by simp)))
    rw [← List.singleton_append, happ, ha, List.singleton_append, splitAt]
    exact read_splitAt happ hjoint hleaf fun b hb => h b (List.mem_cons_of_mem a hb)
  | 0, a :: rest, _ => by
    cases hb : break? Html.glyph? (a :: rest) with
    | some b =>
      simp only [splitAt, hb]
      -- What the joint replaces are characters, the first of them `a`, so nothing is lost.
      have htaken := isSome_of_mem_break? hb
      rw [happ, hjoint, List.nil_append]
      obtain ⟨n, hn⟩ := Nat.exists_eq_add_one.2 (pos_of_break? hb)
      rw [hn, List.take_succ_cons] at htaken
      have ha : f [a] = [] := hleaf a (tags_of_glyph? (htaken a List.mem_cons_self))
      rw [← List.singleton_append, happ, ha, List.nil_append, hn, Nat.add_sub_cancel]
      exact read_splitAt happ hjoint hleaf fun x hx => htaken x (List.mem_cons_of_mem a hx)
    | none =>
      simp only [splitAt, hb]
      rw [← List.singleton_append, happ, ← List.singleton_append (l := rest), happ,
        read_splitAt happ hjoint hleaf (by simp)]

theorem marksOf_splitAt {items : List Html} :
    marksOf (splitAt Html.glyph? (joint ascii) 0 items) = marksOf items := by
  refine read_splitAt marksOf_append marksOf_joint (fun h ht => ?_) (by simp)
  rw [marksOf, tagsOf, ht]
  rfl

theorem marksOf_chars {f : Char → Html} (hf : ∀ c, (f c).tags = []) {cs : List Char} :
    marksOf (cs.map f) = [] := by
  induction cs with
  | nil => rfl
  | cons c cs ih =>
    rw [List.map_cons, marksOf_cons, ih, marksOf, tagsOf, hf]
    rfl

mutual

theorem marksOf_glyphs (hp : P.Clean) :
    ∀ h : Html, h.Fine P → marksOf (glyphs ascii h) = marksOf [h]
  | .text s => fun _ => marksOf_chars fun _ => rfl
  | .attrText s => fun _ => marksOf_chars fun _ => rfl
  | .raw s => fun _ => marksOf_chars fun _ => rfl
  | .element tag attrs content => fun hf => by
    have hmark : (tag.start (splitAttrs attrs)).mark? = (tag.start attrs).mark? := by
      rw [mark?_start, mark?_start, markNumber?_split]
      intro number hn
      obtain ⟨i, hi, rfl⟩ := hf.1.markNumber? hp hn
      exact hp.no_newline hi
    rw [glyphs, marksOf_element, hmark, marksOf_splitAt, marksOf_element,
      marksOf_glyphsOf hp content hf.2]
  | .void tag attrs => fun _ => by
    simp only [glyphs, marksOf, tagsOf, Html.tags, List.append_nil, List.filterMap_cons, mark?_void]
  | .charRef _ => fun _ => rfl
  | .doctype => fun _ => rfl

theorem marksOf_glyphsOf (hp : P.Clean) :
    ∀ m : List Html, FineAll P m → marksOf (glyphsOf ascii m) = marksOf m
  | [] => fun _ => rfl
  | h :: hs => fun hf => by
    rw [glyphsOf, marksOf_append, marksOf_glyphs hp h hf.1, marksOf_glyphsOf hp hs hf.2,
      ← marksOf_cons]

end

end Equation

/-- A split equation is drawn from the nodes it was drawn from. -/
theorem Drawn.split (hs : P.split) (hm : Drawn P ds m) :
    Drawn P ds (Equation.split Equation.ascii m) where
  fine := Equation.fine_splitAt (Equation.fine_glyphsOf hs m hm.fine) 0
  marks hp := by
    rw [Equation.split, Equation.marksOf_splitAt,
      Equation.marksOf_glyphsOf hp m hm.fine]
    exact hm.marks hp

/-! ### Borrowed words -/

theorem unwrapAnchors_element (tag : Tag) (attrs : List Attr) (content : List Html) :
    (Html.element tag attrs content).unwrapAnchors =
      if tag = .a then unwrapAnchorsOf content
      else [.element tag attrs (unwrapAnchorsOf content)] := by
  cases tag <;> rfl

mutual

theorem fine_unwrapAnchors : ∀ h : Html, h.Fine P → FineAll P h.unwrapAnchors
  | .element tag attrs content => fun hf => by
    have hc := fine_unwrapAnchorsOf content hf.2
    rw [unwrapAnchors_element]
    split
    · exact hc
    · exact ⟨⟨hf.1, hc⟩, trivial⟩
  | .doctype => fun _ => ⟨trivial, trivial⟩
  | .text _ => fun _ => ⟨trivial, trivial⟩
  | .attrText _ => fun _ => ⟨trivial, trivial⟩
  | .raw _ => fun hf => ⟨hf, trivial⟩
  | .charRef _ => fun _ => ⟨trivial, trivial⟩
  | .void _ _ => fun hf => ⟨hf, trivial⟩

theorem fine_unwrapAnchorsOf : ∀ m : List Html, FineAll P m → FineAll P (unwrapAnchorsOf m)
  | [] => fun _ => trivial
  | h :: hs => fun hf =>
    fineAll_append.2 ⟨fine_unwrapAnchors h hf.1, fine_unwrapAnchorsOf hs hf.2⟩

end

mutual

theorem marksOf_unwrapAnchors : ∀ h : Html, marksOf h.unwrapAnchors = []
  | .element tag attrs content => by
    have hc := marksOf_unwrapAnchorsOf content
    rw [unwrapAnchors_element]
    split
    · exact hc
    · rename_i ht
      rw [marksOf_element, mark?_start, if_neg ht, hc]
      rfl
  | .doctype => rfl
  | .text _ => rfl
  | .attrText _ => rfl
  | .raw _ => rfl
  | .charRef _ => rfl
  | .void tag attrs => by
    simp only [Html.unwrapAnchors, marksOf, tagsOf, Html.tags, List.append_nil,
      List.filterMap_cons, mark?_void, List.filterMap_nil]

theorem marksOf_unwrapAnchorsOf : ∀ m : List Html, marksOf (unwrapAnchorsOf m) = []
  | [] => rfl
  | h :: hs => by
    rw [unwrapAnchorsOf, marksOf_append, marksOf_unwrapAnchors h, marksOf_unwrapAnchorsOf hs]
    rfl

end

/-- The palette with the words that are borrowed as text, where tags may be unescaped. -/
def Palette.words (P : Palette) : Palette :=
  { P with text := fun s => P.text s ∨
      ∃ m, FineAll P m ∧ (rawsOf m).all isTagFree = false ∧
        s = String.ofList (dropAnchors (Markup.chars m)) }

theorem Palette.le_words (P : Palette) : Le P P.words where
  text h := .inl h
  value h := h
  number h := h
  id h := h
  split h := h

/-- Borrowed words mark nothing. -/
theorem Drawn.withoutAnchors (hf : FineAll P m) : Drawn P.words [] m.withoutAnchors := by
  unfold Markup.withoutAnchors
  split
  · refine ⟨FineAll.mono P.le_words _ (fine_unwrapAnchorsOf m hf), fun _ => ?_⟩
    rw [marksOf_unwrapAnchorsOf]
    exact List.nil_sublist _
  · rename_i htags
    exact .raw (.inr ⟨m, hf, by simpa using htags, rfl⟩)

/-- The palette of a page: words are borrowed and equations are split. -/
def Palette.page (P : Palette) : Palette := { P.words with split := True }

theorem Palette.words_le_page (P : Palette) : Le P.words P.page where
  text h := h
  value h := h
  number h := h
  id h := h
  split _ := trivial

theorem Palette.le_page (P : Palette) : Le P P.page where
  text h := .inl h
  value h := h
  number h := h
  id h := h
  split _ := trivial

end DocPress
