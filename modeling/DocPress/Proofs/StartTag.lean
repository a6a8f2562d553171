import DocPress.Proofs.RootElement
import DocPress.Proofs.Sealed

/-! The start tag of an SVG file and the dimensions put into it. A tag is a list of attributes with
the white space and the quotes that it is written with. What a resized tag must be is said of the
attributes alone; the scan over the characters of the tag removes the dimensions and nothing else,
as long as no value looks like a part of a tag. -/

namespace DocPress.Svg

set_option autoImplicit false

open Text (isBlank)

/-! ### Tags as they are written -/

inductive Quote where
  | double
  | single
  deriving DecidableEq, Repr

def Quote.char : Quote → Char
  | .double => '"'
  | .single => '\''

def isNameChar (c : Char) : Bool :=
  !isBlank c && !(['=', '"', '\'', '<', '>', '/'].contains c)

/-- An attribute with the white space ahead of it. -/
structure Attribute where
  space : List Char
  name : List Char
  quote : Quote
  value : List Char
  space_blank : ∀ c ∈ space, isBlank c = true
  space_ne : space ≠ []
  name_plain : ∀ c ∈ name, isNameChar c = true
  name_ne : name ≠ []
  value_plain : ∀ c ∈ value, c ≠ quote.char ∧ c ≠ '<'

namespace Attribute

/-- The name and the quoted value, without the white space. -/
def bare (a : Attribute) : List Char :=
  a.name ++ '=' :: a.quote.char :: (a.value ++ [a.quote.char])

def written (a : Attribute) : List Char := a.space ++ a.bare

/-- What an attribute says, however it is spaced. -/
def content (a : Attribute) : List Char × Quote × List Char := (a.name, a.quote, a.value)

def dimensions : List (List Char) := ["width".toList, "height".toList, "style".toList]

def isDimension (a : Attribute) : Bool := dimensions.contains a.name

/-- Whether the value holds what begins a dimension: white space, one of the names, an equals sign,
and a quote or the end of the value. -/
def Imitates (a : Attribute) : Prop :=
  ∃ before c name after, a.value = before ++ c :: (name ++ '=' :: after) ∧ isBlank c = true ∧
    name ∈ dimensions ∧ (after = [] ∨ ∃ q : Quote, ∃ rest, after = q.char :: rest)

end Attribute

/-- A start tag of a root element: its attributes and whether it closes itself. -/
structure StartTag where
  attributes : List Attribute
  space : List Char
  closed : Bool
  distinct : (attributes.map Attribute.name).Nodup
  space_blank : ∀ c ∈ space, isBlank c = true

namespace StartTag

def slash (t : StartTag) : List Char := if t.closed then ['/'] else []

/-- All of the tag but its last bracket. -/
def body (t : StartTag) : List Char :=
  rootStart ++ t.attributes.flatMap Attribute.written ++ t.space ++ t.slash

def written (t : StartTag) : List Char := t.body ++ ['>']

/-- Whether the values hold neither a closing bracket nor, in attributes that stay, the beginning of
a dimension. -/
structure Plain (t : StartTag) : Prop where
  unbracketed : ∀ a ∈ t.attributes, '>' ∉ a.value
  unlike : ∀ a ∈ t.attributes, a.isDimension = false → ¬ a.Imitates

end StartTag

/-- What the given dimensions are as attributes. -/
def givenContents (width height : Option String) : List (List Char × Quote × List Char) :=
  let content (name : String) (value : String) :=
    (name.toList, Quote.double, Text.escapedAttribute value.toList)
  (width.map (content "width")).toList ++ (height.map (content "height")).toList

/-- Whether a tag has the attributes of another one but its dimensions, in their order, beside them
the given dimensions and no other, and ends as the other one does. -/
structure StartTag.Resized (t : StartTag) (width height : Option String) (new : StartTag) :
    Prop where
  others : (new.attributes.filter (!·.isDimension)).map Attribute.content =
    (t.attributes.filter (!·.isDimension)).map Attribute.content
  given : ((new.attributes.filter (·.isDimension)).map Attribute.content).Perm
    (givenContents width height)
  closed : new.closed = t.closed

/-! ### Scanning for dimensions -/

theorem dropDimensions_skip (xs rest : List Char) :
    dropDimensions xs.length (xs ++ rest) = dropDimensions 0 rest := by
  induction xs with
  | nil => rfl
  | cons x xs ih => exact ih

theorem dropDimensions_none {c : Char} {rest : List Char}
    (h : dimensionLength? (c :: rest) = none) :
    dropDimensions 0 (c :: rest) = c :: dropDimensions 0 rest := by
  conv => lhs; unfold dropDimensions
  rw [h]

theorem dropDimensions_some {c : Char} {xs rest : List Char}
    (h : dimensionLength? (c :: (xs ++ rest)) = some (xs.length + 1)) :
    dropDimensions 0 (c :: (xs ++ rest)) = dropDimensions 0 rest := by
  conv => lhs; unfold dropDimensions
  rw [h]
  exact dropDimensions_skip xs rest

/-- A stretch in which no dimension begins is kept. -/
theorem dropDimensions_keep {xs rest : List Char}
    (h : ∀ a c b, xs = a ++ c :: b → dimensionLength? (c :: (b ++ rest)) = none) :
    dropDimensions 0 (xs ++ rest) = xs ++ dropDimensions 0 rest := by
  induction xs with
  | nil => rfl
  | cons x xs ih =>
    have hx : dimensionLength? (x :: (xs ++ rest)) = none := h [] x xs rfl
    have hxs := ih fun a c b hb => h (x :: a) c b (by rw [hb, List.cons_append])
    rw [List.cons_append, dropDimensions_none hx, List.cons_append, hxs]

theorem dimensionLength?_solid {c : Char} (h : isBlank c = false) (rest : List Char) :
    dimensionLength? (c :: rest) = none := by
  rw [dimensionLength?, if_neg (by rw [h]; exact Bool.false_ne_true)]

theorem quotedLength?_eq_some {cs : List Char} {n : Nat} (h : quotedLength? cs = some n) :
    ∃ q : Quote, ∃ rest, cs = q.char :: rest := by
  cases cs with
  | nil => exact absurd h nofun
  | cons c rest =>
    rw [quotedLength?] at h
    split at h
    case isTrue hquote =>
      rcases Bool.or_eq_true_iff.mp hquote with hc | hc
      · exact ⟨.double, rest, by rw [beq_iff_eq.mp hc]; rfl⟩
      · exact ⟨.single, rest, by rw [beq_iff_eq.mp hc]; rfl⟩
    case isFalse => exact absurd h nofun

/-- A dimension begins only with white space, one of the names, an equals sign and a quote. -/
theorem dimensionLength?_eq_some {c : Char} {rest : List Char} {n : Nat}
    (h : dimensionLength? (c :: rest) = some n) : isBlank c = true ∧
      ∃ name ∈ Attribute.dimensions, ∃ q : Quote, ∃ after,
        rest = name ++ '=' :: q.char :: after := by
  rw [dimensionLength?] at h
  split at h
  case isFalse => exact absurd h nofun
  case isTrue hblank =>
    refine ⟨hblank, ?_⟩
    obtain ⟨label, hlabel, hfound⟩ := List.exists_of_findSome?_eq_some h
    split at hfound
    case isFalse => exact absurd hfound nofun
    case isTrue hstarts =>
      obtain ⟨after, rfl⟩ := List.isPrefixOf_iff_prefix.mp hstarts
      obtain ⟨m, hquoted, _⟩ := Option.map_eq_some_iff.mp hfound
      rw [← String.length_toList, List.drop_left] at hquoted
      obtain ⟨q, after, rfl⟩ := quotedLength?_eq_some hquoted
      simp only [List.mem_cons, List.not_mem_nil, or_false] at hlabel
      rcases hlabel with rfl | rfl | rfl
      · exact ⟨"width".toList, by decide, q, after, rfl⟩
      · exact ⟨"height".toList, by decide, q, after, rfl⟩
      · exact ⟨"style".toList, by decide, q, after, rfl⟩

theorem dimensionLength?_named {name : List Char} (hname : name ∈ Attribute.dimensions) {c : Char}
    (hc : isBlank c = true) (after : List Char) :
    dimensionLength? (c :: (name ++ '=' :: after)) =
      (quotedLength? after).map fun n => 1 + (name.length + 1) + n := by
  have hwidth : "width=".toList = ['w', 'i', 'd', 't', 'h', '='] ∧ "width=".length = 6 := ⟨rfl, rfl⟩
  have hheight : "height=".toList = ['h', 'e', 'i', 'g', 'h', 't', '='] ∧ "height=".length = 7 :=
    ⟨rfl, rfl⟩
  have hstyle : "style=".toList = ['s', 't', 'y', 'l', 'e', '='] ∧ "style=".length = 6 := ⟨rfl, rfl⟩
  have hnames : Attribute.dimensions =
    [['w', 'i', 'd', 't', 'h'], ['h', 'e', 'i', 'g', 'h', 't'], ['s', 't', 'y', 'l', 'e']] := rfl
  rw [dimensionLength?, if_pos hc]
  simp only [List.findSome?_cons, List.findSome?_nil, hwidth.1, hheight.1, hstyle.1]
  simp only [hnames, List.mem_cons, List.not_mem_nil, or_false] at hname
  cases h : quotedLength? after <;> rcases hname with rfl | rfl | rfl <;>
    simp [List.isPrefixOf, hwidth.2, hheight.2, hstyle.2, h]

theorem quotedLength?_quoted {q : Quote} {value : List Char} (h : q.char ∉ value)
    (rest : List Char) :
    quotedLength? (q.char :: (value ++ q.char :: rest)) = some (value.length + 2) := by
  have hquote : (q.char == '"' || q.char == '\'') = true := by cases q <;> rfl
  rw [quotedLength?, if_pos hquote, Text.cut_of_not_mem h]
  rfl

theorem quote_not_mem_label (q : Quote) :
    ∀ name ∈ Attribute.dimensions, q.char ∉ name ++ ['='] := by
  cases q <;> decide

theorem equals_not_mem_dimensions : ∀ name ∈ Attribute.dimensions, '=' ∉ name := by decide

namespace Attribute

variable (a : Attribute)

theorem quote_not_mem : a.quote.char ∉ a.value := fun hm => (a.value_plain _ hm).1 rfl

theorem equals_not_mem : '=' ∉ a.name := fun hm => absurd (a.name_plain _ hm) (by decide)

theorem quote_not_blank : isBlank a.quote.char = false := by cases a.quote <;> rfl

theorem not_blank_of_mem_name {c : Char} (hc : c ∈ a.name) : isBlank c = false := by
  have h := a.name_plain c hc
  rw [isNameChar, Bool.and_eq_true_iff, Bool.not_eq_true'] at h
  exact h.1

/-- The name is all that stands ahead of the first equals sign. -/
theorem name_eq {name after rest : List Char} (hname : '=' ∉ name)
    (h : a.name ++ '=' :: after = name ++ '=' :: rest) : a.name = name := by
  have hcut := Text.cut_of_not_mem a.equals_not_mem after
  rw [h, Text.cut_of_not_mem hname rest] at hcut
  exact (congrArg Prod.fst (Option.some.inj hcut)).symm

/-- A dimension is found from the last white space ahead of it up to the end of its value. -/
theorem dimensionLength?_dimension (h : a.isDimension = true) {c : Char} (hc : isBlank c = true)
    (rest : List Char) :
    dimensionLength? (c :: (a.bare ++ rest)) = some (a.bare.length + 1) := by
  have hbare : a.bare ++ rest =
      a.name ++ '=' :: a.quote.char :: (a.value ++ a.quote.char :: rest) := by
    simp [bare]
  have hlength : a.bare.length = a.name.length + (a.value.length + 3) := by simp [bare]
  rw [hbare, hlength, dimensionLength?_named (List.contains_iff_mem.mp h) hc,
    quotedLength?_quoted a.quote_not_mem]
  simp only [Option.map_some, Option.some.injEq]
  omega

/-- No dimension begins ahead of another attribute. -/
theorem dimensionLength?_other (h : a.isDimension = false) (c : Char) (rest : List Char) :
    dimensionLength? (c :: (a.bare ++ rest)) = none := by
  rw [← Option.not_isSome_iff_eq_none, Option.isSome_iff_exists]
  rintro ⟨n, hn⟩
  obtain ⟨_, name, hname, q, after, heq⟩ := dimensionLength?_eq_some hn
  have hbare : a.bare ++ rest =
      a.name ++ '=' :: a.quote.char :: (a.value ++ a.quote.char :: rest) := by
    simp [bare]
  obtain rfl := a.name_eq (equals_not_mem_dimensions name hname) (hbare.symm.trans heq)
  rw [isDimension, List.contains_iff_mem.mpr hname] at h
  exact Bool.noConfusion h

/-- No dimension begins within a value that holds nothing of the kind. -/
theorem dimensionLength?_value (h : ¬ a.Imitates) {before after : List Char} {c : Char}
    (hvalue : a.value = before ++ c :: after) (rest : List Char) :
    dimensionLength? (c :: (after ++ a.quote.char :: rest)) = none := by
  rw [← Option.not_isSome_iff_eq_none, Option.isSome_iff_exists]
  rintro ⟨n, hn⟩
  obtain ⟨hc, name, hname, q, tail, heq⟩ := dimensionLength?_eq_some hn
  have hlabel : a.quote.char ∉ name ++ ['='] := quote_not_mem_label a.quote name hname
  rw [← List.singleton_append (x := '='), ← List.append_assoc] at heq
  rcases List.append_eq_append_iff.mp heq with ⟨more, hmore, hquote⟩ | ⟨more, hmore, hquote⟩
  · cases more with
    | nil =>
      rw [List.append_nil] at hmore
      exact h ⟨before, c, name, [], by rw [hvalue, ← hmore], hc, hname, .inl rfl⟩
    | cons m ms =>
      obtain ⟨rfl, _⟩ := List.cons.inj hquote
      exact hlabel (by simp [hmore])
  · refine h ⟨before, c, name, more, by simp [hvalue, hmore], hc, hname, ?_⟩
    cases more with
    | nil => exact .inl rfl
    | cons m ms =>
      obtain ⟨rfl, _⟩ := List.cons.inj hquote
      exact .inr ⟨q, ms, rfl⟩

/-- What the scan leaves of an attribute: a dimension goes with one character of white space. -/
def left (a : Attribute) : List Char := if a.isDimension then a.space.dropLast else a.written

theorem space_eq : ∃ c, isBlank c = true ∧ a.space = a.space.dropLast ++ [c] :=
  ⟨a.space.getLast a.space_ne, a.space_blank _ (List.getLast_mem a.space_ne),
    (List.dropLast_concat_getLast a.space_ne).symm⟩

end Attribute

theorem head_ne_of_blank {e : Char} (he : isBlank e = true) :
    ∀ name ∈ Attribute.dimensions, name.head? ≠ some e := by
  have hsolid : ∀ name ∈ Attribute.dimensions, name.head?.any isBlank = false := by decide
  intro name hname hhead
  have hname := hsolid name hname
  rw [hhead, Option.any_some, he] at hname
  exact Bool.noConfusion hname

/-- No dimension begins ahead of a character that begins none of the names. -/
theorem dimensionLength?_ahead {e : Char} (he : ∀ name ∈ Attribute.dimensions, name.head? ≠ some e)
    (c : Char) (rest : List Char) : dimensionLength? (c :: e :: rest) = none := by
  rw [← Option.not_isSome_iff_eq_none, Option.isSome_iff_exists]
  rintro ⟨n, hn⟩
  obtain ⟨_, name, hname, q, after, heq⟩ := dimensionLength?_eq_some hn
  cases name with
  | nil => exact absurd hname (by decide)
  | cons d name => exact he _ hname (congrArg some (List.cons.inj heq).1.symm)

/-- White space is kept, unless one of the names follows. -/
theorem dropDimensions_space {xs : List Char} (h : ∀ c ∈ xs, isBlank c = true) {e : Char}
    (he : ∀ name ∈ Attribute.dimensions, name.head? ≠ some e) (rest : List Char) :
    dropDimensions 0 (xs ++ e :: rest) = xs ++ dropDimensions 0 (e :: rest) := by
  refine dropDimensions_keep fun a c b hb => ?_
  cases b with
  | nil => exact dimensionLength?_ahead he c rest
  | cons d b =>
    have hd : isBlank d = true := h d (by simp [hb])
    exact dimensionLength?_ahead (head_ne_of_blank hd) c (b ++ e :: rest)

theorem dropDimensions_solid {xs : List Char} (h : ∀ c ∈ xs, isBlank c = false)
    (rest : List Char) : dropDimensions 0 (xs ++ rest) = xs ++ dropDimensions 0 rest :=
  dropDimensions_keep fun a c b hb => dimensionLength?_solid (h c (by simp [hb])) (b ++ rest)

/-- The name and value of an attribute that stays are kept. -/
theorem dropDimensions_bare {a : Attribute} (h : ¬ a.Imitates) (rest : List Char) :
    dropDimensions 0 (a.bare ++ rest) = a.bare ++ dropDimensions 0 rest := by
  have hquote := a.quote_not_blank
  have hname : ∀ c ∈ a.name ++ ['=', a.quote.char], isBlank c = false := by
    intro c hc
    rcases List.mem_append.mp hc with hc | hc
    · exact a.not_blank_of_mem_name hc
    · rcases List.mem_cons.mp hc with rfl | hc
      · rfl
      · obtain rfl := List.mem_singleton.mp hc
        exact hquote
  have hvalue : dropDimensions 0 (a.value ++ a.quote.char :: rest) =
      a.value ++ dropDimensions 0 (a.quote.char :: rest) :=
    dropDimensions_keep fun before c after hsplit => a.dimensionLength?_value h hsplit rest
  calc dropDimensions 0 (a.bare ++ rest)
    _ = dropDimensions 0 ((a.name ++ ['=', a.quote.char]) ++
          (a.value ++ a.quote.char :: rest)) := by simp [Attribute.bare]
    _ = (a.name ++ ['=', a.quote.char]) ++
          (a.value ++ dropDimensions 0 (a.quote.char :: rest)) := by
      rw [dropDimensions_solid hname, hvalue]
    _ = (a.name ++ ['=', a.quote.char]) ++
          (a.value ++ a.quote.char :: dropDimensions 0 rest) := by
      rw [dropDimensions_none (dimensionLength?_solid hquote rest)]
    _ = a.bare ++ dropDimensions 0 rest := by simp [Attribute.bare]

theorem dropDimensions_attribute {a : Attribute} (h : a.isDimension = false → ¬ a.Imitates)
    (rest : List Char) :
    dropDimensions 0 (a.written ++ rest) = a.left ++ dropDimensions 0 rest := by
  obtain ⟨c, hc, hspace⟩ := a.space_eq
  have hblank : ∀ d ∈ a.space.dropLast, isBlank d = true :=
    fun d hd => a.space_blank d (List.dropLast_subset _ hd)
  have hwritten : a.written ++ rest = a.space.dropLast ++ c :: (a.bare ++ rest) := by
    rw [Attribute.written, hspace]
    simp
  rw [hwritten, dropDimensions_space hblank (head_ne_of_blank hc), Attribute.left]
  split
  case isTrue hdim => rw [dropDimensions_some (a.dimensionLength?_dimension hdim hc rest)]
  case isFalse hdim =>
    have hother : a.isDimension = false := Bool.eq_false_iff.mpr hdim
    rw [dropDimensions_none (a.dimensionLength?_other hother c rest),
      dropDimensions_bare (h hother), Attribute.written, hspace]
    simp

theorem dropDimensions_attributes {attributes : List Attribute}
    (h : ∀ a ∈ attributes, a.isDimension = false → ¬ a.Imitates) (rest : List Char) :
    dropDimensions 0 (attributes.flatMap Attribute.written ++ rest) =
      attributes.flatMap Attribute.left ++ dropDimensions 0 rest := by
  induction attributes with
  | nil => rfl
  | cons a as ih =>
    have ha := h a List.mem_cons_self
    have has := ih fun b hb => h b (List.mem_cons_of_mem a hb)
    rw [List.flatMap_cons, List.append_assoc, dropDimensions_attribute ha, has, List.flatMap_cons,
      List.append_assoc]

namespace StartTag

variable (t : StartTag)

/-- What the scan leaves of the tag, but for its last bracket. -/
def left : List Char := rootStart ++ t.attributes.flatMap Attribute.left ++ t.space ++ t.slash

theorem dropDimensions_end : dropDimensions 0 (t.space ++ (t.slash ++ ['>'])) =
    t.space ++ (t.slash ++ ['>']) := by
  have hslash : ∀ name ∈ Attribute.dimensions, name.head? ≠ some '/' := by decide
  have hbracket : ∀ name ∈ Attribute.dimensions, name.head? ≠ some '>' := by decide
  rw [slash]
  cases t.closed with
  | true => exact dropDimensions_space t.space_blank hslash ['>']
  | false => exact dropDimensions_space t.space_blank hbracket []

theorem dropDimensions_written (h : t.Plain) : dropDimensions 0 t.written = t.left ++ ['>'] := by
  have hroot : ∀ c ∈ rootStart, isBlank c = false := forall_mem_of_all (by decide)
  calc dropDimensions 0 t.written
    _ = dropDimensions 0 (rootStart ++ (t.attributes.flatMap Attribute.written ++
          (t.space ++ (t.slash ++ ['>'])))) := by
      simp only [written, body, List.append_assoc]
    _ = rootStart ++ (t.attributes.flatMap Attribute.left ++ (t.space ++ (t.slash ++ ['>']))) := by
      rw [dropDimensions_solid hroot, dropDimensions_attributes h.unlike, dropDimensions_end]
    _ = t.left ++ ['>'] := by simp only [left, List.append_assoc]

theorem bracket_not_mem_body (h : t.Plain) : '>' ∉ t.body := by
  have hblank : ∀ c : Char, isBlank c = true → c ≠ '>' := by
    rintro c hc rfl
    exact absurd hc (by decide)
  have hspace : '>' ∉ t.space := fun hm => hblank _ (t.space_blank _ hm) rfl
  have hslash : '>' ∉ t.slash := by rw [slash]; cases t.closed <;> decide
  have hattributes : '>' ∉ t.attributes.flatMap Attribute.written := by
    intro hm
    obtain ⟨a, ha, hm⟩ := List.mem_flatMap.mp hm
    have hspace : '>' ∉ a.space := fun hm => hblank _ (a.space_blank _ hm) rfl
    have hname : '>' ∉ a.name := fun hm => absurd (a.name_plain _ hm) (by decide)
    have hquote : '>' ≠ a.quote.char := by cases a.quote <;> decide
    have hvalue : '>' ∉ a.value := h.unbracketed a ha
    simp [Attribute.written, Attribute.bare, hspace, hname, hquote, hvalue] at hm
  have hroot : '>' ∉ rootStart := by decide
  simp only [body, List.mem_append, not_or]
  exact ⟨⟨⟨hroot, hattributes⟩, hspace⟩, hslash⟩

/-- Whether nothing stands between the name and the end of a tag that closes itself. -/
def Shut : Prop := t.attributes = [] ∧ t.space = [] ∧ t.closed = true

theorem opensRoot_written (h : ¬ t.Shut) (rest : List Char) : OpensRoot (t.written ++ rest) := by
  suffices hhead : ∃ c tail, t.attributes.flatMap Attribute.written ++ t.space ++ t.slash ++ ['>'] =
      c :: tail ∧ (isBlank c = true ∨ c = '>') by
    obtain ⟨c, tail, heq, hc⟩ := hhead
    refine ⟨c, tail ++ rest, ?_, hc⟩
    rw [← List.cons_append, ← heq]
    simp only [written, body, List.append_assoc]
  cases hattributes : t.attributes with
  | cons a as =>
    obtain ⟨c, hc, hspace⟩ := a.space_eq
    cases hinner : a.space with
    | nil => exact absurd hinner a.space_ne
    | cons d ds =>
      refine ⟨d, ds ++ a.bare ++ as.flatMap Attribute.written ++ t.space ++ t.slash ++ ['>'], ?_,
        .inl (a.space_blank d (by simp [hinner]))⟩
      simp [Attribute.written, hinner]
  | nil =>
    cases hspace : t.space with
    | cons d ds => exact ⟨d, ds ++ t.slash ++ ['>'], rfl, .inl (t.space_blank d (by simp [hspace]))⟩
    | nil =>
      have hclosed : t.closed = false :=
        Bool.eq_false_iff.mpr fun hclosed => h ⟨hattributes, hspace, hclosed⟩
      exact ⟨'>', [], by simp [slash, hclosed], .inr rfl⟩

theorem not_opensRoot_written (h : t.Shut) (rest : List Char) :
    ¬ OpensRoot (t.written ++ rest) := by
  obtain ⟨hattributes, hspace, hclosed⟩ := h
  rintro ⟨c, tail, heq, hc⟩
  have hwritten : t.written ++ rest = rootStart ++ '/' :: '>' :: rest := by
    simp [written, body, slash, hattributes, hspace, hclosed]
  obtain ⟨rfl, _⟩ := List.cons.inj (List.append_cancel_left (hwritten.symm.trans heq))
  exact absurd hc (by decide)

end StartTag

/-! ### Resizing a tag -/

/-- What the scan leaves of the tag, the given dimensions, and the end of the tag. -/
theorem resize_written (t : StartTag) (rest : List Char) {width height : Option String}
    (hgiven : width.isSome = true ∨ height.isSome = true) (h : t.Plain) (hopen : ¬ t.Shut) :
    resize (String.ofList (t.written ++ rest)) width height =
      String.ofList (t.left ++ attrChars (optAttr .width width ++ optAttr .height height) ++
        '>' :: rest) := by
  have hopens := t.opensRoot_written hopen rest
  have hnonempty : (optAttr .width width ++ optAttr .height height).isEmpty = false := by
    rcases hgiven with hsome | hsome
    · obtain ⟨value, rfl⟩ := Option.isSome_iff_exists.mp hsome
      simp [optAttr]
    · obtain ⟨value, rfl⟩ := Option.isSome_iff_exists.mp hsome
      simp [optAttr]
  have hcut : splitStartTag? (t.written ++ rest) = some (t.written, rest) := by
    have hsplit : t.written ++ rest = t.body ++ '>' :: rest := by simp [StartTag.written]
    rw [splitStartTag?, if_pos (startsRoot_iff.mpr hopens), hsplit,
      Text.cut_of_not_mem (t.bracket_not_mem_body h)]
    rfl
  simp only [resize, String.toList_ofList, dropPreamble_named hopens.named, hnonempty, hcut,
    t.dropDimensions_written h, List.dropLast_concat, Bool.false_eq_true, if_false]

theorem resize_shut (t : StartTag) (rest : List Char) (width height : Option String)
    (h : t.Shut) : resize (String.ofList (t.written ++ rest)) width height =
      String.ofList (t.written ++ rest) := by
  have hclosed : startsRoot (t.written ++ rest) = false :=
    Bool.eq_false_iff.mpr fun hs => t.not_opensRoot_written h rest (startsRoot_iff.mp hs)
  have hnamed : rootStart <+: t.written ++ rest := by
    simp only [StartTag.written, StartTag.body, List.append_assoc]
    exact List.prefix_append _ _
  simp only [resize, String.toList_ofList, dropPreamble_named hnamed, splitStartTag?, hclosed,
    Bool.false_eq_true, if_false, ite_self]

/-- Attributes of which some leave nothing but white space are attributes again, the white space
ahead of the next one. -/
theorem regroup {keep : Attribute → Bool} {f : Attribute → List Char}
    (hkeep : ∀ a, keep a = true → f a = a.written)
    (hdrop : ∀ a, keep a = false → ∀ c ∈ f a, isBlank c = true) :
    ∀ (attributes : List Attribute) (extra : List Char), (∀ c ∈ extra, isBlank c = true) →
      ∃ (kept : List Attribute) (space : List Char), (∀ c ∈ space, isBlank c = true) ∧
        extra ++ attributes.flatMap f = kept.flatMap Attribute.written ++ space ∧
        kept.map Attribute.content = (attributes.filter keep).map Attribute.content
  | [], extra, hextra => ⟨[], extra, hextra, by simp, rfl⟩
  | a :: as, extra, hextra => by
    cases ha : keep a with
    | true =>
      obtain ⟨kept, space, hspace, hwritten, hcontent⟩ := regroup hkeep hdrop as []
        (List.forall_mem_nil _)
      let spaced : Attribute :=
        { a with
          space := extra ++ a.space
          space_blank := fun c hc => (List.mem_append.mp hc).elim (hextra c) (a.space_blank c)
          space_ne := List.append_ne_nil_of_right_ne_nil extra a.space_ne }
      refine ⟨spaced :: kept, space, hspace, ?_, ?_⟩
      · have hspaced : spaced.written = extra ++ a.written := List.append_assoc _ _ _
        rw [List.flatMap_cons, hkeep a ha, List.flatMap_cons, hspaced, List.append_assoc,
          List.append_assoc, ← hwritten]
        simp
      · rw [List.filter_cons_of_pos ha, List.map_cons, List.map_cons, hcontent]
        rfl
    | false =>
      have hblank : ∀ c ∈ extra ++ f a, isBlank c = true := fun c hc =>
        (List.mem_append.mp hc).elim (hextra c) (hdrop a ha c)
      obtain ⟨kept, space, hspace, hwritten, hcontent⟩ := regroup hkeep hdrop as _ hblank
      refine ⟨kept, space, hspace, ?_, ?_⟩
      · rw [List.flatMap_cons, ← List.append_assoc, hwritten]
      · rw [List.filter_cons_of_neg (by simp [ha]), hcontent]

/-- A given dimension as an attribute. -/
def Attribute.given (name : List Char) (h : name ∈ dimensions) (value : String) : Attribute where
  space := [' ']
  name := name
  quote := .double
  value := Text.escapedAttribute value.toList
  space_blank := forall_mem_of_all (by decide)
  space_ne := by decide
  name_plain :=
    have hall : ∀ name ∈ dimensions, name.all isNameChar = true := by decide
    List.all_eq_true.mp (hall name h)
  name_ne := by revert name; decide
  value_plain c hc := by
    obtain ⟨hbracket, hquote⟩ := not_mem_escapedAttribute value.toList
    refine ⟨?_, ?_⟩
    · rintro rfl
      exact hquote hc
    · rintro rfl
      exact hbracket hc

def givenAttributes (width height : Option String) : List Attribute :=
  (width.map (.given "width".toList (by decide))).toList ++
    (height.map (.given "height".toList (by decide))).toList

theorem written_givenAttributes (width height : Option String) :
    (givenAttributes width height).flatMap Attribute.written =
      attrChars (optAttr .width width ++ optAttr .height height) := by
  cases width <;> cases height <;>
    simp [givenAttributes, Attribute.given, Attribute.written, Attribute.bare, attrChars, optAttr,
      attr, Attr.chars, Piece.chars, AttrName.spelling, Quote.char]

theorem content_givenAttributes (width height : Option String) :
    (givenAttributes width height).map Attribute.content = givenContents width height := by
  cases width <;> cases height <;> rfl

/-- Whether attributes are dimensions is told by what they say. -/
theorem content_filter (p : Bool → Bool) (attributes : List Attribute) :
    (attributes.filter fun a => p a.isDimension).map Attribute.content =
      (attributes.map Attribute.content).filter fun x => p (Attribute.dimensions.contains x.1) := by
  rw [List.filter_map]
  rfl

theorem dimension_of_mem_givenContents {width height : Option String}
    {x : List Char × Quote × List Char} (h : x ∈ givenContents width height) :
    x.1 ∈ Attribute.dimensions := by
  rw [givenContents, List.mem_append, Option.mem_toList, Option.mem_toList, Option.map_eq_some_iff,
    Option.map_eq_some_iff] at h
  rcases h with ⟨_, _, rfl⟩ | ⟨_, _, rfl⟩
  · exact List.mem_cons_self
  · exact List.mem_cons_of_mem _ List.mem_cons_self

theorem double_of_mem_givenContents {width height : Option String}
    {x : List Char × Quote × List Char} (h : x ∈ givenContents width height) :
    x.2.1 = .double := by
  rw [givenContents, List.mem_append, Option.mem_toList, Option.mem_toList, Option.map_eq_some_iff,
    Option.map_eq_some_iff] at h
  rcases h with ⟨_, _, rfl⟩ | ⟨_, _, rfl⟩ <;> rfl

theorem givenContents_ne_nil {width height : Option String}
    (h : width.isSome = true ∨ height.isSome = true) : givenContents width height ≠ [] := by
  rcases h with hsome | hsome <;> obtain ⟨value, rfl⟩ := Option.isSome_iff_exists.mp hsome <;>
    simp [givenContents]

theorem names_givenContents (width height : Option String) :
    ((givenContents width height).map Prod.fst).Nodup := by
  cases width <;> cases height <;> simp [givenContents]

namespace StartTag

variable {t new : StartTag} {width height : Option String}

/-- A tag is resized if it has the other attributes and then the given ones. -/
theorem resized_of_content (hcontent : new.attributes.map Attribute.content =
      (t.attributes.filter (!·.isDimension)).map Attribute.content ++ givenContents width height)
    (hclosed : new.closed = t.closed) : t.Resized width height new where
  others := by
    have hnone : (givenContents width height).filter
        (fun x => !Attribute.dimensions.contains x.1) = [] :=
      List.filter_eq_nil_iff.mpr fun x hx => by simp [dimension_of_mem_givenContents hx]
    rw [content_filter (!·), hcontent, List.filter_append, hnone, List.append_nil,
      content_filter (!·), List.filter_filter]
    simp only [Bool.and_self]
  given := by
    have hnone : ((t.attributes.map Attribute.content).filter
        fun x => !Attribute.dimensions.contains x.1).filter
          (fun x => Attribute.dimensions.contains x.1) = [] :=
      List.filter_eq_nil_iff.mpr fun x hx => by simpa using (List.mem_filter.mp hx).2
    have hall : (givenContents width height).filter
        (fun x => Attribute.dimensions.contains x.1) = givenContents width height :=
      List.filter_eq_self.mpr fun x hx => by simp [dimension_of_mem_givenContents hx]
    rw [content_filter (fun b => b), hcontent, List.filter_append, content_filter (!·), hnone, hall]
    exact .refl _
  closed := hclosed

/-- No given name is the name of an attribute that is kept. -/
theorem distinct_of_content {attributes : List Attribute}
    (hcontent : attributes.map Attribute.content =
      (t.attributes.filter (!·.isDimension)).map Attribute.content ++ givenContents width height) :
    (attributes.map Attribute.name).Nodup := by
  have hname (as : List Attribute) :
      as.map Attribute.name = (as.map Attribute.content).map Prod.fst := by
    rw [List.map_map]
    rfl
  rw [hname, hcontent, List.map_append, ← hname, List.nodup_append]
  refine ⟨t.distinct.sublist (List.filter_sublist.map _), names_givenContents width height, ?_⟩
  rintro name hother _ hnamed rfl
  obtain ⟨a, ha, rfl⟩ := List.mem_map.mp hother
  obtain ⟨x, hx, hname⟩ := List.mem_map.mp hnamed
  have hdim := List.contains_iff_mem.mpr (dimension_of_mem_givenContents hx)
  rw [hname] at hdim
  have hother : (!a.isDimension) = true := (List.mem_filter.mp ha).2
  rw [Attribute.isDimension, hdim] at hother
  exact Bool.noConfusion hother

/-- A tag that does not close itself is resized by putting the given dimensions ahead of its end. -/
theorem exists_resized (t : StartTag) (hopen : t.closed = false) (width height : Option String) :
    ∃ new, t.Resized width height new ∧ new.written =
      t.left ++ attrChars (optAttr .width width ++ optAttr .height height) ++ ['>'] := by
  have hdrop : ∀ a : Attribute, (!a.isDimension) = false → ∀ c ∈ a.left, isBlank c = true := by
    intro a ha c hc
    rw [Attribute.left, if_pos (by simpa using ha)] at hc
    exact a.space_blank c (List.dropLast_subset _ hc)
  have hkeep : ∀ a : Attribute, (!a.isDimension) = true → a.left = a.written := by
    intro a ha
    rw [Attribute.left, if_neg (by simpa using ha)]
  obtain ⟨kept, space, hspace, hkept, hothers⟩ := regroup hkeep hdrop t.attributes []
    (List.forall_mem_nil _)
  have hblank : ∀ c ∈ space ++ t.space, isBlank c = true := fun c hc =>
    (List.mem_append.mp hc).elim (hspace c) (t.space_blank c)
  have hall : ∀ a : Attribute, (fun _ => true) a = true → a.written = a.written := fun _ _ => rfl
  obtain ⟨added, space', hspace', hadded, hgiven⟩ :=
    regroup hall nofun (givenAttributes width height) _ hblank
  have hcontent : (kept ++ added).map Attribute.content =
      (t.attributes.filter (!·.isDimension)).map Attribute.content ++
        givenContents width height := by
    rw [List.map_append, hothers, hgiven, List.filter_eq_self.mpr fun _ _ => rfl,
      content_givenAttributes]
  refine ⟨⟨kept ++ added, space', false, distinct_of_content hcontent, hspace'⟩,
    resized_of_content hcontent hopen.symm, ?_⟩
  rw [List.nil_append] at hkept
  have hslash : t.slash = [] := if_neg (by simp [hopen])
  calc rootStart ++ (kept ++ added).flatMap Attribute.written ++ space' ++ [] ++ ['>']
    _ = rootStart ++ (kept.flatMap Attribute.written ++
          (added.flatMap Attribute.written ++ space')) ++ ['>'] := by
      rw [List.flatMap_append]
      simp only [List.append_assoc, List.append_nil]
    _ = rootStart ++ (kept.flatMap Attribute.written ++ ((space ++ t.space) ++
          attrChars (optAttr .width width ++ optAttr .height height))) ++ ['>'] := by
      rw [← hadded, written_givenAttributes]
    _ = t.left ++ attrChars (optAttr .width width ++ optAttr .height height) ++ ['>'] := by
      rw [left, hslash, hkept]
      simp only [List.append_assoc, List.append_nil]

theorem quote_mem_resized (hgiven : width.isSome = true ∨ height.isSome = true)
    (hresized : t.Resized width height new) : '"' ∈ new.written := by
  obtain ⟨x, hx⟩ := List.exists_mem_of_ne_nil _ (givenContents_ne_nil hgiven)
  obtain ⟨a, ha, rfl⟩ := List.mem_map.mp (hresized.given.mem_iff.mpr hx)
  have hdouble : a.quote.char = '"' := congrArg Quote.char (double_of_mem_givenContents hx)
  have hmem : '"' ∈ new.attributes.flatMap Attribute.written :=
    List.mem_flatMap.mpr ⟨a, (List.mem_filter.mp ha).1, by
      simp [Attribute.written, Attribute.bare, hdouble]⟩
  simp [written, body, hmem]

/-- A tag that closes itself has no value right ahead of its last bracket. -/
theorem not_resized_of_value (hclosed : t.closed = true) (hresized : t.Resized width height new)
    (before : List Char) : new.written ≠ before ++ ['"'] ++ ['>'] := by
  intro heq
  have hslash : new.slash = ['/'] := if_pos (hresized.closed.trans hclosed)
  have hbody : new.body = before ++ ['"'] := List.append_cancel_right heq
  rw [body, hslash] at hbody
  exact absurd (List.append_inj_right' hbody rfl) (by decide)

theorem attrChars_given (hgiven : width.isSome = true ∨ height.isSome = true) :
    ∃ before, attrChars (optAttr .width width ++ optAttr .height height) = before ++ ['"'] := by
  rcases List.eq_nil_or_concat (givenAttributes width height) with hnil | ⟨init, a, hlast⟩
  · have hcontents := congrArg (List.map Attribute.content) hnil
    rw [content_givenAttributes] at hcontents
    exact absurd hcontents (givenContents_ne_nil hgiven)
  · have hcontent : a.content ∈ givenContents width height := by
      rw [← content_givenAttributes, hlast]
      simp
    have hdouble : a.quote.char = '"' := congrArg Quote.char (double_of_mem_givenContents hcontent)
    rw [← written_givenAttributes, hlast]
    refine ⟨init.flatMap Attribute.written ++ (a.space ++ (a.name ++ '=' :: '"' :: a.value)), ?_⟩
    simp [Attribute.written, Attribute.bare, hdouble]

/-- Whatever is put into a tag that closes itself, it is not resized. -/
theorem not_resized (hgiven : width.isSome = true ∨ height.isSome = true) (h : t.Plain)
    (hclosed : t.closed = true) (hresized : t.Resized width height new) (rest : List Char) :
    resize (String.ofList (t.written ++ rest)) width height ≠
      String.ofList (new.written ++ rest) := by
  intro heq
  by_cases hshut : t.Shut
  · rw [resize_shut t rest width height hshut, String.ofList_inj] at heq
    have hquote := quote_mem_resized hgiven hresized
    rw [← List.append_cancel_right heq, written, body, slash, hshut.1, hshut.2.1,
      hshut.2.2] at hquote
    exact absurd hquote (by decide)
  · obtain ⟨before, hbefore⟩ := attrChars_given hgiven
    rw [resize_written t rest hgiven h hshut, String.ofList_inj, hbefore] at heq
    refine not_resized_of_value hclosed hresized (t.left ++ before) ?_
    refine List.append_cancel_right (heq.symm.trans ?_)
    simp

end StartTag

/-- When dimensions are given, the start tag of the root element gets them in place of its own and
is otherwise the same, exactly if it does not close itself. -/
theorem resize_startTag (t : StartTag) (rest : List Char) (width height : Option String)
    (hgiven : width.isSome = true ∨ height.isSome = true) (h : t.Plain) :
    (∃ new, t.Resized width height new ∧
      resize (String.ofList (t.written ++ rest)) width height =
        String.ofList (new.written ++ rest)) ↔ t.closed = false := by
  constructor
  · rintro ⟨new, hresized, heq⟩
    exact Bool.eq_false_iff.mpr fun hclosed =>
      StartTag.not_resized hgiven h hclosed hresized rest heq
  · intro hopen
    obtain ⟨new, hresized, hwritten⟩ := t.exists_resized hopen width height
    have hroom : ¬ t.Shut := fun hshut => Bool.noConfusion (hopen.symm.trans hshut.2.2)
    refine ⟨new, hresized, ?_⟩
    rw [resize_written t rest hgiven h hroom, hwritten]
    simp only [List.append_assoc, List.singleton_append]

theorem Attribute.not_imitates {a : Attribute}
    (h : ∀ name ∈ dimensions, ¬ name ++ ['='] <:+: a.value) : ¬ a.Imitates := by
  rintro ⟨before, c, name, after, hvalue, _, hname, _⟩
  exact h name hname ⟨before ++ [c], after, by simp [hvalue]⟩

/-- An attribute of parts that have been checked. -/
def Attribute.ofParts (space name : List Char) (quote : Quote) (value : List Char)
    (hspace : space.all isBlank = true) (hname : name.all isNameChar = true)
    (hvalue : value.all (fun c => c != quote.char && c != '<') = true)
    (hsome : space ≠ [] ∧ name ≠ []) : Attribute where
  space := space
  name := name
  quote := quote
  value := value
  space_blank := List.all_eq_true.mp hspace
  space_ne := hsome.1
  name_plain := List.all_eq_true.mp hname
  name_ne := hsome.2
  value_plain c hc := by simpa using List.all_eq_true.mp hvalue c hc

/-- A tag with dimensions, with a label that speaks of one, and with both kinds of quotes. -/
def drawingTag : StartTag where
  attributes :=
    [.ofParts [' '] "width".toList .double "10".toList rfl rfl rfl (by decide),
      .ofParts ['\n', ' '] "aria-label".toList .single "the \"width\" = 10".toList rfl rfl rfl
        (by decide),
      .ofParts [' '] "style".toList .single "a".toList rfl rfl rfl (by decide)]
  space := [' ']
  closed := false
  distinct := by decide
  space_blank := forall_mem_of_all (by decide)

theorem drawingTag_plain : drawingTag.Plain where
  unbracketed := by decide
  unlike a ha hother := by
    simp only [drawingTag, List.mem_cons, List.not_mem_nil, or_false] at ha
    rcases ha with rfl | rfl | rfl
    · exact absurd hother (by decide)
    · exact Attribute.not_imitates (by decide +kernel)
    · exact absurd hother (by decide)

/-- The drawing gets a width and a height in place of its own width and style. -/
theorem resize_drawing :
    drawingTag.Plain ∧ (some "100").isSome = true ∧ drawingTag.closed = false ∧
    resize (String.ofList (drawingTag.written ++ "<g/></svg>".toList)) (some "100") (some "5\"") =
      "<svg\n aria-label='the \"width\" = 10'  width=\"100\" height=\"5&quot;\"><g/></svg>" ∧
    ∃ new, drawingTag.Resized (some "100") (some "5\"") new ∧
      resize (String.ofList (drawingTag.written ++ "<g/></svg>".toList)) (some "100") (some "5\"") =
        String.ofList (new.written ++ "<g/></svg>".toList) :=
  ⟨drawingTag_plain, rfl, rfl, by decide +kernel,
    (resize_startTag drawingTag _ (some "100") (some "5\"") (.inl rfl) drawingTag_plain).mpr rfl⟩

theorem StartTag.Resized.bare_infix {t new : StartTag} {width height : Option String}
    (h : t.Resized width height new) {a : Attribute} (ha : a ∈ t.attributes)
    (hother : a.isDimension = false) : a.bare <:+: new.written := by
  have hkept : a.content ∈ (new.attributes.filter (!·.isDimension)).map Attribute.content := by
    rw [h.others]
    exact List.mem_map_of_mem (List.mem_filter.mpr ⟨ha, by rw [hother]; rfl⟩)
  obtain ⟨b, hb, hcontent⟩ := List.mem_map.mp hkept
  obtain ⟨hname, hquote, hvalue⟩ :
      b.name = a.name ∧ b.quote = a.quote ∧ b.value = a.value := by
    simpa [Attribute.content] using hcontent
  have hbare : b.bare = a.bare := by rw [Attribute.bare, hname, hquote, hvalue, Attribute.bare]
  obtain ⟨before, after, hsplit⟩ := List.append_of_mem (List.mem_filter.mp hb).1
  rw [← hbare]
  refine ⟨rootStart ++ before.flatMap Attribute.written ++ b.space,
    after.flatMap Attribute.written ++ new.space ++ new.slash ++ ['>'], ?_⟩
  simp [StartTag.written, StartTag.body, hsplit, Attribute.written]

/-- A tag with a label. -/
def labelledTag (label : String) (closed : Bool)
    (h : label.toList.all (fun c => c != '"' && c != '<') = true) : StartTag where
  attributes := [.ofParts [' '] "aria-label".toList .double label.toList rfl rfl h (by decide)]
  space := []
  closed := closed
  distinct := List.pairwise_singleton _ _
  space_blank := List.forall_mem_nil _

/-- The slash that closes a tag ends up ahead of the given width, a bracket in a value is taken for
the end of the tag, and a part of a value for a dimension. -/
theorem resize_misread :
    let closing := labelledTag "a" true rfl
    let bracketed := labelledTag "a>b" false rfl
    let imitating := labelledTag "a width='5'" false rfl
    let sized (t : StartTag) := resize (String.ofList t.written) (some "100") none
    sized closing = "<svg aria-label=\"a\"/ width=\"100\">" ∧
    sized bracketed = "<svg aria-label=\"a width=\"100\">b\">" ∧
    sized imitating = "<svg aria-label=\"a\" width=\"100\">" ∧
    ∀ t ∈ [closing, bracketed, imitating], ∀ new, t.Resized (some "100") none new →
      sized t ≠ String.ofList new.written := by
  intro closing bracketed imitating sized
  have hclosing : sized closing = "<svg aria-label=\"a\"/ width=\"100\">" := by decide
  have hbracketed : sized bracketed = "<svg aria-label=\"a width=\"100\">b\">" := by decide
  have himitating : sized imitating = "<svg aria-label=\"a\" width=\"100\">" := by decide
  -- A label that stays is found in the new tag, but is not in the text.
  have hkept (label : String) (hlabel : label.toList.all (fun c => c != '"' && c != '<') = true)
      (out : String) (hout : ¬ "aria-label=\"".toList ++ label.toList ++ ['"'] <:+: out.toList)
      (new : StartTag) (hnew : (labelledTag label false hlabel).Resized (some "100") none new) :
      out ≠ String.ofList new.written := by
    rintro rfl
    have hinfix := hnew.bare_infix List.mem_cons_self rfl
    rw [String.toList_ofList] at hout
    refine hout ?_
    simpa [Attribute.ofParts, Attribute.bare, Quote.char] using hinfix
  -- The tag that closes itself ends with a value and not with a slash.
  have hlast (new : StartTag) (hnew : closing.Resized (some "100") none new) :
      sized closing ≠ String.ofList new.written := by
    intro heq
    have hclosed : closing.closed = true := rfl
    have hwritten : new.written =
        "<svg aria-label=\"a\"/ width=\"100".toList ++ ['"'] ++ ['>'] := by
      rw [hclosing] at heq
      rw [← String.toList_ofList (l := new.written), ← heq]
      decide
    exact StartTag.not_resized_of_value hclosed hnew _ hwritten
  refine ⟨hclosing, hbracketed, himitating, ?_⟩
  intro t ht new hnew
  simp only [List.mem_cons, List.not_mem_nil, or_false] at ht
  rcases ht with ht | ht | ht <;> subst ht
  · exact hlast new hnew
  · rw [hbracketed]
    have hout : ¬ "aria-label=\"".toList ++ "a>b".toList ++ ['"'] <:+:
        "<svg aria-label=\"a width=\"100\">b\">".toList := by decide +kernel
    exact hkept "a>b" rfl _ hout new hnew
  · rw [himitating]
    have hout : ¬ "aria-label=\"".toList ++ "a width='5'".toList ++ ['"'] <:+:
        "<svg aria-label=\"a\" width=\"100\">".toList := by decide +kernel
    exact hkept "a width='5'" rfl _ hout new hnew

end DocPress.Svg
