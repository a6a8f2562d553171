import DocPress.Proofs.Palette

/-! The tags of footnotes among those of a page: the marks in the text, the links to definitions,
and the ids that could be taken for those of definitions. Splitting an equation may change the
values of attributes, but makes no such tag and takes none away. -/

namespace DocPress

set_option autoImplicit false

/-! ### Values of split attributes -/

/-- What is left behind a beginning, if the list has it. -/
def after? : List Char → List Char → Option (List Char)
  | [], cs => some cs
  | _ :: _, [] => none
  | p :: ps, c :: cs => if p = c then after? ps cs else none

theorem after?_eq_some {p cs rest : List Char} : after? p cs = some rest ↔ cs = p ++ rest := by
  induction p generalizing cs with
  | nil => simp [after?]
  | cons p ps ih =>
    cases cs with
    | nil => simp [after?]
    | cons c cs =>
      by_cases h : p = c
      · simp [after?, h, ih]
      · simp [after?, h, Ne.symm h]

theorem prefix_append_cases {p a b : List Char} (h : p <+: a ++ b) :
    p <+: a ∨ ∃ q, p = a ++ q ∧ q <+: b := by
  obtain ⟨rest, h⟩ := h
  rcases List.append_eq_append_iff.1 h with ⟨c, ha, _⟩ | ⟨c, hp, hb⟩
  · exact .inl ⟨c, ha.symm⟩
  · exact .inr ⟨c, hp, ⟨rest, hb.symm⟩⟩

theorem prefix_append_left {p a b q : List Char} (hp : p = a ++ q) (h : q <+: b) :
    p <+: a ++ b := by
  rw [hp]
  exact List.prefix_append_right_inj a |>.2 h

namespace Equation

theorem chars_splitPiece (p : Piece) : (splitPiece p).flatMap Piece.chars = p.chars := by
  cases p with
  | escaped s =>
    simp only [splitPiece, List.flatMap_map, Piece.chars, Text.escapedAttribute]
    refine congrArg (fun f => s.toList.flatMap f) (funext fun c => ?_)
    simp
  | raw s =>
    simp only [splitPiece, List.flatMap_map, Piece.chars]
    simp

theorem chars_splitPieces (pieces : List Piece) :
    (pieces.flatMap splitPiece).flatMap Piece.chars = pieces.flatMap Piece.chars := by
  rw [List.flatMap_assoc]
  exact congrArg (fun f => pieces.flatMap f) (funext chars_splitPiece)

def splitValue (pieces : List Piece) : List Char :=
  (splitAt Piece.glyph? (jointPiece ascii) 0 (pieces.flatMap splitPiece)).flatMap Piece.chars

theorem chars_jointPiece (ends : Nat) :
    ∃ rest, (jointPiece ascii ends).flatMap Piece.chars = '\\' :: rest := by
  simp only [jointPiece, List.flatMap_cons, List.flatMap_nil, List.append_nil, Piece.chars,
    String.toList_ofList]
  exact ⟨_, rfl⟩

/-- A beginning without a backslash is not one that splitting makes. -/
theorem prefix_of_prefix_splitAt {p : List Char} (hp : '\\' ∉ p) :
    ∀ {items : List Piece},
      p <+: (splitAt Piece.glyph? (jointPiece ascii) 0 items).flatMap Piece.chars →
        p <+: items.flatMap Piece.chars
  | [], h => h
  | a :: rest, h => by
    cases hb : break? Piece.glyph? (a :: rest) with
    | some b =>
      obtain ⟨joint, hj⟩ := chars_jointPiece b.2
      simp only [splitAt, hb, List.flatMap_append, hj] at h
      cases p with
      | nil => exact List.nil_prefix
      | cons c cs =>
        obtain rfl := (List.cons_prefix_cons.1 h).1
        exact absurd List.mem_cons_self hp
    | none =>
      simp only [splitAt, hb, List.flatMap_cons] at h ⊢
      rcases prefix_append_cases h with h | ⟨q, hq, h⟩
      · exact List.prefix_append_of_prefix h
      · have hq' : '\\' ∉ q := fun hm => hp (hq ▸ List.mem_append_right _ hm)
        exact prefix_append_left hq (prefix_of_prefix_splitAt hq' h)

theorem prefix_of_prefix_splitValue {p : List Char} (hp : '\\' ∉ p) {pieces : List Piece}
    (h : p <+: splitValue pieces) : p <+: pieces.flatMap Piece.chars := by
  rw [← chars_splitPieces]
  exact prefix_of_prefix_splitAt hp h

theorem splitAt_eq_of_not_mem : ∀ {items : List Piece},
    '\\' ∉ (splitAt Piece.glyph? (jointPiece ascii) 0 items).flatMap Piece.chars →
      splitAt Piece.glyph? (jointPiece ascii) 0 items = items
  | [], _ => rfl
  | a :: rest, h => by
    cases hb : break? Piece.glyph? (a :: rest) with
    | some b =>
      obtain ⟨joint, hj⟩ := chars_jointPiece b.2
      simp only [splitAt, hb, List.flatMap_append, hj] at h
      exact absurd List.mem_cons_self h
    | none =>
      simp only [splitAt, hb, List.flatMap_cons, List.mem_append, not_or] at h ⊢
      rw [splitAt_eq_of_not_mem h.2]

theorem splitValue_eq_of_not_mem {pieces : List Piece} (h : '\\' ∉ splitValue pieces) :
    splitValue pieces = pieces.flatMap Piece.chars := by
  unfold splitValue at h ⊢
  rw [splitAt_eq_of_not_mem h, chars_splitPieces]

theorem newline_of_break? {α : Type} {glyph? : α → Option Char} {items : List α} {b : Nat × Nat}
    (h : break? glyph? items = some b) : ∃ a ∈ items, glyph? a = some '\n' := by
  have blank : ∀ {b : Nat × Nat}, blankLines? glyph? items = some b →
      ∃ a ∈ items, glyph? a = some '\n' := by
    intro b hb
    simp only [blankLines?] at hb
    split at hb
    · rename_i hends
      cases htake : items.takeWhile (shows glyph? '\n') with
      | nil => simp [htake] at hends
      | cons a rest =>
        have ha : a ∈ items.takeWhile (shows glyph? '\n') := by
          rw [htake]
          exact List.mem_cons_self
        refine ⟨a, List.takeWhile_subset _ ha, ?_⟩
        have hall := List.all_takeWhile (p := shows glyph? '\n') (l := items)
        simpa [shows] using List.all_eq_true.1 hall a ha
    · simp at hb
  simp only [break?] at h
  split at h
  · rename_i a c rest hdrop
    split at h
    · rename_i hshow
      have hc : c ∈ items := by
        refine List.mem_of_mem_drop (i := (items.takeWhile (shows glyph? ' ')).length) ?_
        rw [hdrop]
        exact List.mem_cons_of_mem _ List.mem_cons_self
      exact ⟨c, hc, by simpa [shows] using (Bool.and_eq_true_iff.1 hshow).2⟩
    · exact blank h
  · simp at h

theorem mem_chars_of_glyph? {p : Piece} {c : Char} (hc : Text.attributeEntity c = [c])
    (h : Piece.glyph? p = some c) : c ∈ p.chars := by
  have only : ∀ s : String, onlyChar? s = some c → s.toList = [c] := by
    intro s hs
    unfold onlyChar? at hs
    split at hs
    · rename_i d hd
      rw [hd, Option.some.inj hs]
    · simp at hs
  cases p with
  | escaped s => simp [Piece.chars, only s h, Text.escapedAttribute, hc]
  | raw s => simp [Piece.chars, only s h]

theorem splitAt_eq_of_no_newline : ∀ {items : List Piece},
    '\n' ∉ items.flatMap Piece.chars → splitAt Piece.glyph? (jointPiece ascii) 0 items = items
  | [], _ => rfl
  | a :: rest, h => by
    cases hb : break? Piece.glyph? (a :: rest) with
    | some b =>
      obtain ⟨p, hp, hn⟩ := newline_of_break? hb
      exact absurd (List.mem_flatMap.2 ⟨p, hp, mem_chars_of_glyph? rfl hn⟩) h
    | none =>
      simp only [List.flatMap_cons, List.mem_append, not_or] at h
      simp only [splitAt, hb]
      rw [splitAt_eq_of_no_newline h.2]

theorem splitValue_eq_of_no_newline {pieces : List Piece}
    (h : '\n' ∉ pieces.flatMap Piece.chars) : splitValue pieces = pieces.flatMap Piece.chars := by
  rw [← chars_splitPieces] at h
  rw [splitValue, splitAt_eq_of_no_newline h, chars_splitPieces]

theorem newline_mem_jointPiece (ends : Nat) :
    '\n' ∈ (jointPiece ascii ends).flatMap Piece.chars := by
  let breaks : Markup := (List.replicate (ends - 1) ([.text "\n", .void .br []] : Markup)).flatten
  have hjoint : joint ascii ends =
      .text ascii.after :: breaks ++ [.text "\n", .text ascii.before] := rfl
  have hlast : '\n' ∈ charsOf [.text "\n", .text ascii.before] := by decide
  simp only [jointPiece, List.flatMap_cons, List.flatMap_nil, List.append_nil, Piece.chars,
    String.toList_ofList, Markup.chars]
  rw [hjoint, charsOf_append]
  exact List.mem_append_right _ hlast

/-- A line end that stands behind the items passed over is still there after the split. -/
theorem newline_mem_splitAt : ∀ {skip : Nat} {items : List Piece},
    '\n' ∈ (items.drop skip).flatMap Piece.chars →
      '\n' ∈ (splitAt Piece.glyph? (jointPiece ascii) skip items).flatMap Piece.chars
  | _, [], h => by simp at h
  | skip + 1, a :: rest, h => by
    rw [splitAt]
    exact newline_mem_splitAt h
  | 0, a :: rest, h => by
    cases hb : break? Piece.glyph? (a :: rest) with
    | some b =>
      simp only [splitAt, hb, List.flatMap_append]
      exact List.mem_append_left _ (newline_mem_jointPiece b.2)
    | none =>
      simp only [splitAt, hb, List.drop_zero, List.flatMap_cons, List.mem_append] at h ⊢
      exact h.imp_right fun h => newline_mem_splitAt (by simpa using h)

theorem newline_mem_splitValue {pieces : List Piece} (h : '\n' ∈ pieces.flatMap Piece.chars) :
    '\n' ∈ splitValue pieces := by
  rw [← chars_splitPieces] at h
  exact newline_mem_splitAt h

end Equation

/-! ### Tags of footnotes -/

abbrev ReadAttrs := List (List Char × Option (List Char))

/-- The number in the id of a mark, if the attributes begin with such an id. -/
def markNumber? : ReadAttrs → Option (List Char)
  | (name, some value) :: _ =>
    if name = "id".toList then after? "_footnoteref_".toList value else none
  | _ => none

/-- The number that a link to a footnote is for, if the attributes are those of such a link. -/
def noteNumber? : ReadAttrs → Option (List Char)
  | [(c, some classes), (h, some href), (t, some title)] =>
    if c = "class".toList ∧ classes = "footnote".toList ∧ h = "href".toList ∧ t = "title".toList ∧
        title = "View footnote.".toList then
      after? "#_footnotedef_".toList href
    else none
  | _ => none

/-- The id of the mark of a footnote. -/
def markIdOf (number : List Char) : List Char := "_footnoteref_".toList ++ number

theorem read_of_markNumber? {attrs : ReadAttrs} {number : List Char}
    (h : markNumber? attrs = some number) :
    ∃ rest, attrs = ("id".toList, some (markIdOf number)) :: rest := by
  unfold markNumber? at h
  split at h
  · rename_i name value rest
    split at h
    · rename_i hname
      have hvalue : value = markIdOf number := after?_eq_some.1 h
      exact ⟨rest, by rw [hname, hvalue]⟩
    · cases h
  · cases h

namespace TagRead

/-- The number of the mark `<a id="_footnoteref_…"` that a tag begins with. -/
def mark? (t : TagRead) : Option (List Char) :=
  if t.name = "a".toList then markNumber? t.attrs else none

/-- The number of the footnote that a tag links to as the text does. -/
def note? (t : TagRead) : Option (List Char) :=
  if t.name = "a".toList then noteNumber? (t.attrs.dropWhile (·.1 = "id".toList)) else none

end TagRead

/-- The numbers of the marks of footnotes in the order of the markup. -/
def marksOf (m : Markup) : List (List Char) := (tagsOf m).filterMap TagRead.mark?

theorem marksOf_append (a b : Markup) : marksOf (a ++ b) = marksOf a ++ marksOf b := by
  rw [marksOf, tagsOf_append, List.filterMap_append]
  rfl

theorem stop_name_ne (tag : Tag) (name : List Char) (h : name.head? ≠ some '/') :
    tag.stop.name ≠ name := by
  rintro rfl
  exact h rfl

theorem mark?_stop (tag : Tag) : tag.stop.mark? = none := by
  rw [TagRead.mark?, if_neg (stop_name_ne tag _ (by decide))]

theorem note?_stop (tag : Tag) : tag.stop.note? = none := by
  rw [TagRead.note?, if_neg (stop_name_ne tag _ (by decide))]

theorem name_eq_a {tag : Tag} : tag.name.toList = "a".toList ↔ tag = .a := by
  constructor
  · intro h
    cases tag with
    | a => rfl
    | heading level =>
      rw [heading_name] at h
      exact absurd (List.cons.inj h).1 (by decide)
    | _ => exact absurd h (by decide)
  · rintro rfl
    rfl

theorem mark?_start (tag : Tag) (attrs : List Attr) :
    (tag.start attrs).mark? = if tag = .a then markNumber? (attrs.map Attr.read) else none := by
  simp only [TagRead.mark?, Tag.start, name_eq_a]

theorem note?_start (tag : Tag) (attrs : List Attr) :
    (tag.start attrs).note? =
      if tag = .a then noteNumber? ((attrs.map Attr.read).dropWhile (·.1 = "id".toList))
      else none := by
  simp only [TagRead.note?, Tag.start, name_eq_a]

theorem marksOf_element (tag : Tag) (attrs : List Attr) (content : List Html) :
    marksOf [.element tag attrs content] = (tag.start attrs).mark?.toList ++ marksOf content := by
  simp only [marksOf, tagsOf, Html.tags, List.append_nil, List.filterMap_cons,
    List.filterMap_append, mark?_stop, List.filterMap_nil]
  cases (tag.start attrs).mark? <;> rfl

theorem mark?_void (tag : VoidTag) (attrs : List Attr) : (tag.start attrs).mark? = none := by
  cases tag <;> rfl

theorem note?_void (tag : VoidTag) (attrs : List Attr) : (tag.start attrs).note? = none := by
  cases tag <;> rfl

/-! ### Tags of footnotes and splitting -/

abbrev splitAttrs (attrs : List Attr) : List Attr := attrs.map (Equation.splitAttr Equation.ascii)

theorem read_value (name : AttrName) (pieces : List Piece) :
    (Attr.value name pieces).read =
      (name.spelling.toList, some (pieces.flatMap Piece.chars)) := rfl

theorem read_splitAttr (name : AttrName) (pieces : List Piece) :
    (Equation.splitAttr Equation.ascii (.value name pieces)).read =
      (name.spelling.toList, some (Equation.splitValue pieces)) := rfl

theorem splitValue_of_after? {p rest : List Char} (hp : '\n' ∉ p) (hr : '\n' ∉ rest)
    {pieces : List Piece} (h : after? p (pieces.flatMap Piece.chars) = some rest) :
    Equation.splitValue pieces = pieces.flatMap Piece.chars := by
  refine Equation.splitValue_eq_of_no_newline ?_
  rw [after?_eq_some.1 h, List.mem_append, not_or]
  exact ⟨hp, hr⟩

theorem after?_splitValue {p rest : List Char} (hp : '\\' ∉ p) {pieces : List Piece}
    (h : after? p (Equation.splitValue pieces) = some rest) :
    ∃ rest', after? p (pieces.flatMap Piece.chars) = some rest' := by
  have hprefix := Equation.prefix_of_prefix_splitValue hp ⟨rest, (after?_eq_some.1 h).symm⟩
  obtain ⟨rest', hr⟩ := hprefix
  exact ⟨rest', after?_eq_some.2 hr.symm⟩

/-- Splitting keeps the mark that attributes make, if its number holds no line end. -/
theorem markNumber?_split {attrs : List Attr}
    (h : ∀ number, markNumber? (attrs.map Attr.read) = some number → '\n' ∉ number) :
    markNumber? ((splitAttrs attrs).map Attr.read) = markNumber? (attrs.map Attr.read) := by
  match attrs with
  | [] => rfl
  | .flag _ :: _ => rfl
  | .value name pieces :: rest =>
    simp only [splitAttrs, List.map_cons, read_splitAttr, read_value, markNumber?] at h ⊢
    split
    · rename_i hid
      simp only [hid, if_true] at h
      cases hs : after? "_footnoteref_".toList (pieces.flatMap Piece.chars) with
      | some number => rw [splitValue_of_after? (by decide) (h number hs) hs, hs]
      | none =>
        cases hs' : after? "_footnoteref_".toList (Equation.splitValue pieces) with
        | none => rfl
        | some number =>
          obtain ⟨rest', hr⟩ := after?_splitValue (by decide) hs'
          exact absurd (hs.symm.trans hr) nofun
    · rfl

/-- Splitting makes no link to a footnote. -/
theorem noteNumber?_split {attrs : List Attr} {number : List Char}
    (h : ∀ number, noteNumber? (attrs.map Attr.read) = some number → '\n' ∉ number)
    (hs : noteNumber? ((splitAttrs attrs).map Attr.read) = some number) :
    noteNumber? (attrs.map Attr.read) = some number := by
  match attrs with
  | [.value c classes, .value h' href, .value t title] =>
    simp only [splitAttrs, List.map_cons, List.map_nil, read_splitAttr, read_value,
      noteNumber?] at h hs ⊢
    split at hs
    · rename_i hmatch
      obtain ⟨hc, hclasses, hh, ht, htitle⟩ := hmatch
      have hclasses' : Equation.splitValue classes = classes.flatMap Piece.chars :=
        Equation.splitValue_eq_of_not_mem (by rw [hclasses]; decide)
      have htitle' : Equation.splitValue title = title.flatMap Piece.chars :=
        Equation.splitValue_eq_of_not_mem (by rw [htitle]; decide)
      rw [hclasses] at hclasses'
      rw [htitle] at htitle'
      have hall : c.spelling.toList = "class".toList ∧
          classes.flatMap Piece.chars = "footnote".toList ∧ h'.spelling.toList = "href".toList ∧
          t.spelling.toList = "title".toList ∧
          title.flatMap Piece.chars = "View footnote.".toList :=
        ⟨hc, hclasses'.symm, hh, ht, htitle'.symm⟩
      simp only [if_pos hall] at h ⊢
      obtain ⟨rest, hr⟩ := after?_splitValue (by decide) hs
      rw [← splitValue_of_after? (by decide) (h rest hr) hr]
      exact hs
    · simp at hs
  | [] => simp [noteNumber?] at hs
  | [_] => simp [noteNumber?] at hs
  | [_, _] => simp [noteNumber?] at hs
  | _ :: _ :: _ :: _ :: _ => simp [noteNumber?] at hs
  | [.flag _, _, _] => simp [noteNumber?, splitAttrs, Equation.splitAttr, Attr.read] at hs
  | [_, .flag _, _] => simp [noteNumber?, splitAttrs, Equation.splitAttr, Attr.read] at hs
  | [_, _, .flag _] => simp [noteNumber?, splitAttrs, Equation.splitAttr, Attr.read] at hs

/-! ### Tags of footnotes and templates -/

theorem attributeEntity_cases (c : Char) :
    Text.attributeEntity c = [c] ∨ ∃ rest, Text.attributeEntity c = '&' :: rest := by
  unfold Text.attributeEntity
  split
  · exact .inr ⟨_, rfl⟩
  · exact .inr ⟨_, rfl⟩
  · unfold Text.textEntity
    split
    · exact .inr ⟨_, rfl⟩
    · exact .inr ⟨_, rfl⟩
    · exact .inr ⟨_, rfl⟩
    · exact .inl rfl

/-- Escaping makes no beginning that holds no ampersand. -/
theorem prefix_of_prefix_escaped {p : List Char} (hp : '&' ∉ p) :
    ∀ {cs : List Char}, p <+: Text.escapedAttribute cs → p <+: cs
  | [], h => h
  | c :: cs, h => by
    rw [Text.escapedAttribute_cons] at h
    rcases attributeEntity_cases c with he | ⟨rest, he⟩
    · rw [he] at h
      cases p with
      | nil => exact List.nil_prefix
      | cons x xs =>
        obtain ⟨rfl, hrest⟩ := List.cons_prefix_cons.1 h
        have hxs : '&' ∉ xs := fun hm => hp (List.mem_cons_of_mem _ hm)
        exact List.cons_prefix_cons.2 ⟨rfl, prefix_of_prefix_escaped hxs hrest⟩
    · rw [he] at h
      cases p with
      | nil => exact List.nil_prefix
      | cons x xs =>
        obtain rfl := (List.cons_prefix_cons.1 h).1
        exact absurd List.mem_cons_self hp

theorem eq_of_escaped_eq {p : List Char} (hp : '&' ∉ p) :
    ∀ {cs : List Char}, Text.escapedAttribute cs = p → cs = p
  | [], h => h
  | c :: cs, h => by
    rw [Text.escapedAttribute_cons] at h
    rcases attributeEntity_cases c with he | ⟨rest, he⟩
    · rw [he] at h
      cases p with
      | nil => exact absurd h (List.cons_ne_nil _ _)
      | cons x xs =>
        obtain ⟨rfl, hrest⟩ := List.cons.inj h
        rw [eq_of_escaped_eq (fun hm => hp (List.mem_cons_of_mem _ hm)) hrest]
    · rw [he] at h
      exact absurd (h ▸ List.mem_cons_self) hp

theorem AttrName.Known.eq_id {name : AttrName} (h : name.Known)
    (hs : name.spelling.toList = "id".toList) : name = .id := by
  cases name with
  | id => rfl
  | custom spelling =>
    have hk : spelling ∈ codeNames := h
    simp only [codeNames, List.mem_cons, List.not_mem_nil, or_false] at hk
    rcases hk with rfl | rfl | rfl | rfl | rfl <;> exact absurd hs (by decide)
  | _ => exact absurd hs (by decide)

theorem chars_escaped (v : String) :
    [Piece.escaped v].flatMap Piece.chars = Text.escapedAttribute v.toList := by
  simp [Piece.chars]

theorem read_attr (name : AttrName) (v : String) :
    (attr name v).read = (name.spelling.toList, some (Text.escapedAttribute v.toList)) := by
  rw [attr, read_value, chars_escaped]

theorem chars_raw_behind (v i : String) :
    [Piece.escaped v, .raw i].flatMap Piece.chars = Text.escapedAttribute v.toList ++ i.toList := by
  simp only [List.flatMap_cons, List.flatMap_nil, List.append_nil, Piece.chars]

theorem read_noteAttrs (i : String) :
    (noteAttrs i).map Attr.read =
      [("class".toList, some "footnote".toList),
        ("href".toList, some ("#_footnotedef_".toList ++ i.toList)),
        ("title".toList, some "View footnote.".toList)] := by
  simp only [noteAttrs, List.map_cons, List.map_nil, read_attr, read_value, chars_raw_behind]
  rfl

theorem read_markId (i : String) :
    (markId i).read = ("id".toList, some ("_footnoteref_".toList ++ i.toList)) := by
  rw [markId, read_value, chars_raw_behind]
  rfl

theorem markNumber?_markId (i : String) (rest : List Attr) :
    markNumber? ((markId i :: rest).map Attr.read) = some i.toList := by
  rw [List.map_cons, read_markId]
  exact after?_eq_some.2 rfl

theorem noteNumber?_noteAttrs (i : String) :
    noteNumber? ((noteAttrs i).map Attr.read) = some i.toList := by
  rw [read_noteAttrs]
  exact after?_eq_some.2 rfl

namespace Palette

/-- Whether the numbers of a palette are decimal, and its ids apart from those of footnotes. -/
structure Clean (P : Palette) : Prop where
  number : ∀ {i : String}, P.number i → ∃ n : Nat, i = toString n
  id : ∀ {i : String}, P.id i → ¬ "_footnote".toList <+: i.toList

theorem Clean.of_le {P Q : Palette} (h : Le P Q) (hq : Q.Clean) : P.Clean where
  number hi := hq.number (h.number hi)
  id hi := hq.id (h.id hi)

end Palette

variable {P : Palette}

theorem Palette.Clean.no_newline (hp : P.Clean) {i : String} (h : P.number i) :
    '\n' ∉ i.toList := by
  obtain ⟨n, rfl⟩ := hp.number h
  intro hm
  exact absurd (isDigit_of_mem_toString hm) (by decide)

theorem Attr.Ordinary.read_id {a : Attr} (ha : a.Ordinary P) {v : List Char}
    (h : a.read = ("id".toList, some v)) :
    ∃ i, a = attr .id i ∧ P.id i ∧ v = Text.escapedAttribute i.toList := by
  have hid : a.name = .id := by
    refine AttrName.Known.eq_id ha.known ?_
    cases a with
    | flag name => exact congrArg Prod.fst h
    | value name pieces => exact congrArg Prod.fst h
  obtain ⟨i, rfl, hi⟩ := ha.ids hid
  rw [read_attr] at h
  exact ⟨i, rfl, hi, (Option.some.inj (congrArg Prod.snd h)).symm⟩

theorem markNumber?_ordinary (hp : P.Clean) {attrs : List Attr}
    (h : ∀ a ∈ attrs, a.Ordinary P) : markNumber? (attrs.map Attr.read) = none := by
  match attrs, h with
  | [], _ => rfl
  | .flag _ :: _, _ => rfl
  | .value name pieces :: rest, h =>
    simp only [List.map_cons, read_value, DocPress.markNumber?]
    split
    · rename_i hid
      obtain ⟨i, _, hi, hv⟩ := (h _ List.mem_cons_self).read_id
        (v := pieces.flatMap Piece.chars) (by rw [read_value, hid])
      rw [hv]
      cases hm : after? "_footnoteref_".toList (Text.escapedAttribute i.toList) with
      | none => rfl
      | some number =>
        have hpre : "_footnoteref_".toList <+: i.toList :=
          prefix_of_prefix_escaped (by decide) ⟨number, (after?_eq_some.1 hm).symm⟩
        exact absurd (List.IsPrefix.trans (by decide) hpre) (hp.id hi)
    · rfl

/-- The number of a mark is a number of the palette. -/
theorem Made.markNumber? (hp : P.Clean) {link : Bool} {attrs : List Attr} (h : Made P link attrs) :
    ∀ {number : List Char}, markNumber? (attrs.map Attr.read) = some number →
      ∃ i, P.number i ∧ number = i.toList := by
  induction h with
  | plain ho _ =>
    intro number hm
    rw [markNumber?_ordinary hp ho] at hm
    exact absurd hm nofun
  | noteBox i =>
    intro number hm
    simp [read_attr, DocPress.markNumber?, AttrName.spelling] at hm
  | noteLink hi =>
    intro number hm
    simp [noteAttrs, read_attr, DocPress.markNumber?, AttrName.spelling] at hm
  | @noteMark i hi =>
    intro number hm
    rw [markNumber?_markId] at hm
    exact ⟨i, hi, (Option.some.inj hm).symm⟩
  | split _ _ ih =>
    intro number hm
    rw [markNumber?_split] at hm
    · exact ih hm
    · intro k hk
      obtain ⟨i, hi, rfl⟩ := ih hk
      exact hp.no_newline hi

abbrev isIdRead (a : List Char × Option (List Char)) : Bool := a.1 = "id".toList

theorem read_splitAttrs_dropWhile (attrs : List Attr) :
    (((splitAttrs attrs).map Attr.read).dropWhile isIdRead) =
      (splitAttrs (attrs.dropWhile fun a => isIdRead a.read)).map Attr.read := by
  have hname : ∀ a : Attr,
      isIdRead (Equation.splitAttr Equation.ascii a).read = isIdRead a.read := by
    intro a
    cases a <;> rfl
  rw [List.dropWhile_map, splitAttrs, List.dropWhile_map]
  refine congrArg (fun p => (splitAttrs (attrs.dropWhile p)).map Attr.read) (funext fun a => ?_)
  exact hname a

theorem noteNumber?_head {x : List Char × Option (List Char)} {rest : ReadAttrs}
    {number : List Char} (h : noteNumber? (x :: rest) = some number) :
    x = ("class".toList, some "footnote".toList) := by
  unfold noteNumber? at h
  split at h
  · rename_i hattrs
    split at h
    · rename_i hmatch
      rw [(List.cons.inj hattrs).1, hmatch.1, hmatch.2.1]
    · simp at h
  · simp at h

/-- A link that does not begin with the class of footnotes links to none. -/
theorem noteNumber?_other {name : AttrName} (hname : name.spelling.toList ≠ "id".toList)
    {v : String} (hv : name.spelling.toList ≠ "class".toList ∨ v ≠ "footnote")
    {rest : List Attr} {number : List Char} :
    noteNumber? (((attr name v :: rest).map Attr.read).dropWhile isIdRead) ≠ some number := by
  intro h
  rw [List.map_cons, read_attr, List.dropWhile_cons_of_neg (by simpa [isIdRead] using hname)] at h
  have hx := noteNumber?_head h
  rcases hv with hv | hv
  · exact hv (congrArg Prod.fst hx)
  · have hread := Option.some.inj (congrArg Prod.snd hx)
    exact hv (String.toList_inj.1 (eq_of_escaped_eq (by decide) hread))

/-- The number in a link to a footnote is a number of the palette. -/
theorem Made.noteNumber? (hp : P.Clean) {link : Bool} {attrs : List Attr} (h : Made P link attrs) :
    link = true → ∀ {number : List Char},
      noteNumber? ((attrs.map Attr.read).dropWhile isIdRead) = some number →
      ∃ i, P.number i ∧ number = i.toList := by
  induction h with
  | @plain link attrs _ head =>
    intro hlink number hm
    cases head hlink with
    | nil => simp [DocPress.noteNumber?] at hm
    | id i => simp [read_attr, AttrName.spelling, DocPress.noteNumber?] at hm
    | href v rest => exact absurd hm (noteNumber?_other (by decide) (.inl (by decide)))
    | property v rest => exact absurd hm (noteNumber?_other (by decide) (.inl (by decide)))
    | box v rest hv => exact absurd hm (noteNumber?_other (by decide) (.inr hv))
  | noteBox i => intro hlink; simp at hlink
  | @noteLink i hi =>
    intro _ number hm
    have hdrop :
        ((noteAttrs i).map Attr.read).dropWhile isIdRead = (noteAttrs i).map Attr.read := by
      rw [read_noteAttrs]
      rfl
    rw [hdrop, noteNumber?_noteAttrs] at hm
    exact ⟨i, hi, (Option.some.inj hm).symm⟩
  | @noteMark i hi =>
    intro _ number hm
    have hdrop : ((markId i :: noteAttrs i).map Attr.read).dropWhile isIdRead =
        (noteAttrs i).map Attr.read := by
      rw [List.map_cons, read_markId, read_noteAttrs]
      rfl
    rw [hdrop, noteNumber?_noteAttrs] at hm
    exact ⟨i, hi, (Option.some.inj hm).symm⟩
  | @split link attrs _ _ ih =>
    intro hlink number hm
    have hdrop : ((attrs.map Attr.read).dropWhile isIdRead) =
        (attrs.dropWhile fun a => isIdRead a.read).map Attr.read := by
      rw [List.dropWhile_map]
      rfl
    rw [hdrop] at ih
    rw [read_splitAttrs_dropWhile] at hm
    refine ih hlink (noteNumber?_split (fun k hk => ?_) hm)
    obtain ⟨i, hi, rfl⟩ := ih hlink hk
    exact hp.no_newline hi

/-- An id of a template is not one of a definition, unless the palette has such an id. -/
theorem Made.not_definition (hid : ∀ i, P.id i → ¬ "_footnotedef_".toList <+: i.toList)
    {link : Bool} {attrs : List Attr} (h : Made P link attrs) :
    ∀ a ∈ attrs, ∀ {v : List Char}, a.read = ("id".toList, some v) →
      ¬ "_footnotedef_".toList <+: v := by
  induction h with
  | plain ho _ =>
    intro a ha v hv hpre
    obtain ⟨i, _, hi, rfl⟩ := (ho a ha).read_id hv
    exact hid i hi (prefix_of_prefix_escaped (by decide) hpre)
  | noteBox i =>
    intro a ha v hv hpre
    simp only [List.mem_cons, List.not_mem_nil, or_false] at ha
    rcases ha with rfl | rfl
    · rw [read_attr, Prod.mk.injEq] at hv
      exact absurd hv.1 (by decide)
    · rw [read_attr] at hv
      obtain rfl := Option.some.inj (congrArg Prod.snd hv)
      have h := prefix_of_prefix_escaped (by decide) hpre
      rw [String.toList_append] at h
      exact absurd h (by simp)
  | @noteLink i hi =>
    intro a ha v hv
    have hread := List.mem_map_of_mem (f := Attr.read) ha
    rw [hv, read_noteAttrs] at hread
    exact absurd hread (by simp)
  | @noteMark i hi =>
    intro a ha v hv hpre
    rcases List.mem_cons.1 ha with rfl | ha
    · rw [read_markId] at hv
      obtain rfl := Option.some.inj (congrArg Prod.snd hv)
      exact absurd hpre (by simp)
    · have hread := List.mem_map_of_mem (f := Attr.read) ha
      rw [hv, read_noteAttrs] at hread
      exact absurd hread (by simp)
  | @split link attrs _ _ ih =>
    intro a ha v hv hpre
    obtain ⟨b, hb, rfl⟩ := List.mem_map.1 ha
    cases b with
    | flag name => simp [Equation.splitAttr, Attr.read] at hv
    | value name pieces =>
      rw [read_splitAttr, Prod.mk.injEq, Option.some.injEq] at hv
      have hv' : (Attr.value name pieces).read =
          ("id".toList, some (pieces.flatMap Piece.chars)) := by
        rw [read_value, hv.1]
      rw [← hv.2] at hpre
      exact ih _ hb hv' (Equation.prefix_of_prefix_splitValue (by decide) hpre)

end DocPress
