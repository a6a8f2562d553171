import DocPress.Proofs.Entities
import DocPress.Proofs.Tags

/-! What markup inserts into its tags and its text, and markup that is read as it was made: nothing
inserted moves the reader out of the text or of the value that it is inserted into. -/

namespace DocPress

set_option autoImplicit false

open Reader (Place run run_append run_step run_quiet run_text run_name run_attrName run_quoted
  isGap)

/-! ### What is inserted -/

/-- A stretch that is inserted into the text or into an attribute value, as it is written. -/
inductive Inserted where
  | text (cs : List Char)
  | value (cs : List Char)
  deriving DecidableEq, Repr

/-- Whether a reader is in the place it came from behind the stretch, and has met no tag. -/
def Inserted.Held : Inserted → Prop
  | .text cs => run .text cs = (.text, [])
  | .value cs => ∀ t n v, run (.quoted t n '"' v) cs = (.quoted t n '"' (v ++ cs), [])

theorem Inserted.held_text {cs : List Char} : (Inserted.text cs).Held ↔ '<' ∉ cs :=
  Reader.run_text_iff

theorem Inserted.held_value {cs : List Char} : (Inserted.value cs).Held ↔ '"' ∉ cs := by
  constructor
  · intro h
    exact (Reader.run_quoted_iff ⟨[], []⟩ [] []).1 (h _ _ _)
  · intro h t n v
    exact run_quoted h t n v

def Attr.inserted : Attr → List Inserted
  | .flag _ => []
  | .value _ pieces => pieces.map fun p => .value p.chars

mutual

/-- What a node inserts, in the order in which it is written. -/
def Html.inserted : Html → List Inserted
  | .doctype => []
  | .text s => [.text (Text.escapedText s.toList)]
  | .attrText s => [.text (Text.escapedAttribute s.toList)]
  | .raw s => [.text s.toList]
  | .charRef _ => []
  | .void _ attrs => attrs.flatMap Attr.inserted
  | .element _ attrs content => attrs.flatMap Attr.inserted ++ insertedOf content

def insertedOf : List Html → List Inserted
  | [] => []
  | h :: hs => h.inserted ++ insertedOf hs

end

def Attr.rawValues : Attr → List String
  | .flag _ => []
  | .value _ pieces => pieces.filterMap Piece.raw?

mutual

/-- The texts within attribute values that are not escaped. -/
def Html.rawValues : Html → List String
  | .void _ attrs => attrs.flatMap Attr.rawValues
  | .element _ attrs content => attrs.flatMap Attr.rawValues ++ rawValuesOf content
  | _ => []

def rawValuesOf : List Html → List String
  | [] => []
  | h :: hs => h.rawValues ++ rawValuesOf hs

end

mutual

/-- The texts outside of tags that are not escaped. -/
def Html.rawTexts : Html → List String
  | .raw s => [s]
  | .element _ _ content => rawTextsOf content
  | _ => []

def rawTextsOf : List Html → List String
  | [] => []
  | h :: hs => h.rawTexts ++ rawTextsOf hs

end

/-! ### Escaping holds -/

theorem not_mem_escapedText (cs : List Char) : '<' ∉ Text.escapedText cs :=
  fun h => (TagFree.escapedText cs _ h).1 rfl

theorem not_mem_escapedAttribute (cs : List Char) :
    '<' ∉ Text.escapedAttribute cs ∧ '"' ∉ Text.escapedAttribute cs :=
  ⟨fun h => (TagFree.escapedAttribute cs _ h).1 rfl,
    fun h => (Text.escapedAttribute_free cs _ h).1 rfl⟩

/-! ### Names -/

/-- The attribute names that code tags give themselves. -/
def codeNames : List String := ["class", "data-lang", "data-noescape", "data-id", "data-trim"]

def AttrName.Known : AttrName → Prop
  | .custom spelling => spelling ∈ codeNames
  | _ => True

def Attr.name : Attr → AttrName
  | .flag name => name
  | .value name _ => name

mutual

/-- Whether every attribute has a name of the templates. -/
def Html.Named : Html → Prop
  | .void _ attrs => ∀ a ∈ attrs, a.name.Known
  | .element _ attrs content => (∀ a ∈ attrs, a.name.Known) ∧ NamedAll content
  | _ => True

def NamedAll : List Html → Prop
  | [] => True
  | h :: hs => h.Named ∧ NamedAll hs

end

theorem AttrName.Known.plain {name : AttrName} (h : name.Known) :
    ∃ c cs, name.spelling.toList = c :: cs ∧
      ∀ d ∈ c :: cs, d ≠ '>' ∧ isGap d = false ∧ d ≠ '=' := by
  cases name with
  | custom spelling =>
    have hs : spelling ∈ codeNames := h
    simp only [codeNames, List.mem_cons, List.not_mem_nil, or_false] at hs
    rcases hs with rfl | rfl | rfl | rfl | rfl <;>
      exact ⟨_, _, rfl, forall_mem_of_all (by decide)⟩
  | _ => exact ⟨_, _, rfl, forall_mem_of_all (by decide)⟩

theorem Tag.name_plain (tag : Tag) : ∀ c ∈ tag.name.toList, c ≠ '>' ∧ isGap c = false := by
  cases tag with
  | heading level =>
    rw [heading_name]
    intro c hc
    rcases List.mem_cons.1 hc with rfl | hc
    · decide
    · have hd := isDigit_of_mem_toString hc
      constructor
      · rintro rfl
        exact absurd hd (by decide)
      · rw [Bool.eq_false_iff]
        intro hg
        simp only [isGap, Bool.or_eq_true, beq_iff_eq] at hg
        rcases hg with (((rfl | rfl) | rfl) | rfl) | rfl <;> exact absurd hd (by decide)
  | _ => exact forall_mem_of_all (by decide)

theorem VoidTag.name_plain (tag : VoidTag) : ∀ c ∈ tag.name.toList, c ≠ '>' ∧ isGap c = false := by
  cases tag <;> exact forall_mem_of_all (by decide)

/-! ### Reading what is written -/

/-- Whether the reader is behind a part of a tag, with what it has read of the tag. -/
structure Closes (p : Place) (t : TagRead) : Prop where
  gap : Reader.step p ' ' = (.attrs t, none)
  close : Reader.step p '>' = (.text, some t)

theorem closes_name (cs : List Char) : Closes (.name cs) ⟨cs, []⟩ := ⟨rfl, rfl⟩

theorem closes_attrs (t : TagRead) : Closes (.attrs t) t := ⟨rfl, rfl⟩

theorem closes_attrName (t : TagRead) (n : List Char) :
    Closes (.attrName t n) (Reader.addAttr t n none) := ⟨rfl, rfl⟩

theorem run_pieces {pieces : List Piece} (h : ∀ p ∈ pieces, (Inserted.value p.chars).Held)
    (t : TagRead) (n v : List Char) :
    run (.quoted t n '"' v) (pieces.flatMap Piece.chars) =
      (.quoted t n '"' (v ++ pieces.flatMap Piece.chars), []) := by
  induction pieces generalizing v with
  | nil => simp [run]
  | cons p ps ih =>
    have hp := h p List.mem_cons_self t n v
    have hps := ih fun q hq => h q (List.mem_cons_of_mem p hq)
    rw [List.flatMap_cons, run_append, hp, hps, List.append_assoc]
    rfl

theorem run_attr {a : Attr} (hname : a.name.Known) (held : ∀ x ∈ a.inserted, x.Held) {p : Place}
    {t : TagRead} (hp : Closes p t) :
    ∃ q, run p a.chars = (q, []) ∧ Closes q { t with attrs := t.attrs ++ [a.read] } := by
  obtain ⟨c, cs, hs, hplain⟩ := hname.plain
  have hc := hplain c List.mem_cons_self
  have hcs : ∀ d ∈ cs, d ≠ '>' ∧ isGap d = false ∧ d ≠ '=' := fun d hd =>
    hplain d (List.mem_cons_of_mem c hd)
  have hfirst : Reader.step (.attrs t) c = (.attrName t [c], none) := by
    simp [Reader.step, hc.1, hc.2.1]
  have hopen : ∀ rest, run p (' ' :: c :: rest) = run (.attrName t [c]) rest := by
    intro rest
    rw [run_quiet hp.gap, run_quiet hfirst]
  cases a with
  | flag name =>
    have hs' : name.spelling.toList = c :: cs := hs
    refine ⟨.attrName t (c :: cs), ?_, ?_⟩
    · rw [Attr.chars, hs', hopen, run_attrName hcs]
      rfl
    · rw [Attr.read, hs']
      exact closes_attrName t (c :: cs)
  | value name pieces =>
    have hs' : name.spelling.toList = c :: cs := hs
    have hpieces : ∀ p ∈ pieces, (Inserted.value p.chars).Held := fun p hm =>
      held _ (List.mem_map_of_mem hm)
    refine ⟨.attrs { t with attrs := t.attrs ++ [(Attr.value name pieces).read] }, ?_,
      closes_attrs _⟩
    have hassign : Reader.step (.attrName t (c :: cs)) '=' = (.assign t (c :: cs), none) := rfl
    have hquote : Reader.step (.assign t (c :: cs)) '"' = (.quoted t (c :: cs) '"' [], none) := rfl
    rw [Attr.chars, hs', List.cons_append, hopen, run_append, run_attrName hcs,
      List.singleton_append, run_quiet hassign, run_quiet hquote, run_append, run_pieces hpieces,
      Attr.read, hs']
    rfl

theorem run_attrs {attrs : List Attr} (hnames : ∀ a ∈ attrs, a.name.Known)
    (held : ∀ x ∈ attrs.flatMap Attr.inserted, x.Held) {p : Place} {t : TagRead}
    (hp : Closes p t) :
    ∃ q, run p (attrChars attrs) = (q, []) ∧
      Closes q { t with attrs := t.attrs ++ attrs.map Attr.read } := by
  induction attrs generalizing p t with
  | nil => exact ⟨p, rfl, by simpa using hp⟩
  | cons a as ih =>
    simp only [List.flatMap_cons, List.mem_append, or_imp, forall_and] at held
    obtain ⟨q, hq, hcq⟩ := run_attr (hnames a List.mem_cons_self) held.1 hp
    obtain ⟨r, hr, hcr⟩ := ih (fun b hb => hnames b (List.mem_cons_of_mem a hb)) held.2 hcq
    refine ⟨r, ?_, by simpa using hcr⟩
    rw [attrChars, List.flatMap_cons, run_append, hq]
    exact Prod.ext (congrArg Prod.fst hr) (congrArg Prod.snd hr)

theorem run_start {name : List Char} (hplain : ∀ c ∈ name, c ≠ '>' ∧ isGap c = false)
    {attrs : List Attr} (hnames : ∀ a ∈ attrs, a.name.Known)
    (held : ∀ x ∈ attrs.flatMap Attr.inserted, x.Held) (rest : List Char) :
    run .text ('<' :: (name ++ (attrChars attrs ++ '>' :: rest))) =
      ((run .text rest).1, ⟨name, attrs.map Attr.read⟩ :: (run .text rest).2) := by
  obtain ⟨q, hq, hc⟩ := run_attrs hnames held (closes_name name)
  have hopen : Reader.step .text '<' = (.name [], none) := rfl
  rw [run_quiet hopen, run_append, run_name hplain, List.nil_append, run_append, hq,
    run_step hc.close]
  rfl

theorem run_stop {name : List Char} (hplain : ∀ c ∈ name, c ≠ '>' ∧ isGap c = false)
    (rest : List Char) :
    run .text ('<' :: '/' :: (name ++ '>' :: rest)) =
      ((run .text rest).1, ⟨'/' :: name, []⟩ :: (run .text rest).2) := by
  have hopen : Reader.step .text '<' = (.name [], none) := rfl
  have hslash : Reader.step (.name []) '/' = (.name ['/'], none) := rfl
  rw [run_quiet hopen, run_quiet hslash, run_append, run_name hplain,
    run_step (closes_name _).close]
  rfl

theorem isDigit_text {cs : List Char} (h : ∀ c ∈ cs, c.isDigit = true) : '<' ∉ cs := by
  intro hm
  exact absurd (h _ hm) (by decide)

theorem run_inserted {cs : List Char} (h : (Inserted.text cs).Held) (rest : List Char) :
    run .text (cs ++ rest) = ((run .text rest).1, [] ++ (run .text rest).2) := by
  have hcs : run .text cs = (.text, []) := h
  simp only [run_append, hcs]

theorem held_charRef (code : Nat) : (Inserted.text (Html.charRef code).chars).Held := by
  have hdigits : '<' ∉ (toString code).toList := isDigit_text fun _ => isDigit_of_mem_toString
  rw [Inserted.held_text, Html.chars_charRef]
  simp only [List.mem_cons, List.mem_append, hdigits, List.not_mem_nil]
  decide

theorem run_doctype (rest : List Char) :
    run .text (Html.doctype.chars ++ rest) =
      ((run .text rest).1, Html.doctype.tags ++ (run .text rest).2) := by
  have hd : run .text Html.doctype.chars = (.text, Html.doctype.tags) := by decide
  simp only [run_append, hd]

mutual

theorem run_html : ∀ h : Html, h.Named → (∀ x ∈ h.inserted, x.Held) → ∀ rest,
    run .text (h.chars ++ rest) = ((run .text rest).1, h.tags ++ (run .text rest).2)
  | .doctype, _, _, rest => run_doctype rest
  | .text s, _, held, rest => by
    exact run_inserted (held _ (List.mem_singleton_self _)) rest
  | .attrText s, _, held, rest => by
    exact run_inserted (held _ (List.mem_singleton_self _)) rest
  | .raw s, _, held, rest => by
    exact run_inserted (held _ (List.mem_singleton_self _)) rest
  | .charRef code, _, _, rest => by
    exact run_inserted (held_charRef code) rest
  | .void tag attrs, hn, held, rest => by
    have hs := run_start tag.name_plain hn held rest
    rw [Html.chars_void, List.cons_append, List.append_assoc, List.append_assoc]
    exact hs
  | .element tag attrs content, hn, held, rest => by
    have held' : (∀ x ∈ attrs.flatMap Attr.inserted, x.Held) ∧
        ∀ x ∈ insertedOf content, x.Held := by
      simpa only [Html.inserted, List.mem_append, or_imp, forall_and] using held
    have hcontent := run_markup content hn.2 held'.2
    simp only [Html.chars_element, List.cons_append, List.append_assoc, List.nil_append]
    rw [run_start tag.name_plain hn.1 held'.1, hcontent, run_stop tag.name_plain]
    simp only [Html.tags, Tag.start, Tag.stop, List.cons_append, List.append_assoc,
      List.nil_append]

theorem run_markup : ∀ m : List Html, NamedAll m → (∀ x ∈ insertedOf m, x.Held) → ∀ rest,
    run .text (charsOf m ++ rest) = ((run .text rest).1, tagsOf m ++ (run .text rest).2)
  | [], _, _, _ => rfl
  | h :: hs, hn, held, rest => by
    have held' : (∀ x ∈ h.inserted, x.Held) ∧ ∀ x ∈ insertedOf hs, x.Held := by
      simpa only [insertedOf, List.mem_append, or_imp, forall_and] using held
    rw [charsOf, List.append_assoc, run_html h hn.1 held'.1, run_markup hs hn.2 held'.2, tagsOf,
      List.append_assoc]

end

/-- Markup whose insertions are held is read as the tags of its tree. -/
theorem readTags_chars {m : Markup} (hn : NamedAll m) (held : ∀ x ∈ insertedOf m, x.Held) :
    readTags m.chars = some (tagsOf m) := by
  have h := run_markup m hn held []
  rw [List.append_nil] at h
  simp [readTags, Markup.chars, h, run]

/-! ### Unescaped texts as they are listed -/

theorem isTagFree_codeName : ∀ x ∈ codeNames, isTagFree x = true := by decide

theorem mem_raws_attr {a : Attr} (hk : a.name.Known) {x : String} (h : x ∈ a.raws) :
    x ∈ a.rawValues ∨ x ∈ codeNames := by
  have hname : ∀ name : AttrName, name.Known → x ∈ name.custom?.toList → x ∈ codeNames := by
    intro name hk hx
    cases name with
    | custom spelling =>
      obtain rfl := List.mem_singleton.1 hx
      exact hk
    | _ => exact absurd hx nofun
  cases a with
  | flag name => exact .inr (hname name hk h)
  | value name pieces => exact (List.mem_append.1 h).symm.imp_right (hname name hk)

theorem mem_raws_attrs {attrs : List Attr} (hk : ∀ a ∈ attrs, a.name.Known) {x : String}
    (h : x ∈ attrs.flatMap Attr.raws) : x ∈ attrs.flatMap Attr.rawValues ∨ x ∈ codeNames := by
  obtain ⟨a, ha, hx⟩ := List.mem_flatMap.1 h
  exact (mem_raws_attr (hk a ha) hx).imp_left fun hv => List.mem_flatMap.2 ⟨a, ha, hv⟩

mutual

theorem mem_raws : ∀ h : Html, h.Named → ∀ x ∈ h.raws,
    x ∈ h.rawTexts ∨ x ∈ h.rawValues ∨ x ∈ codeNames
  | .raw _ => fun _ _ hx => .inl hx
  | .void _ attrs => fun hn _ hx => .inr (mem_raws_attrs hn hx)
  | .element _ attrs content => fun hn x hx => by
    rcases List.mem_append.1 hx with hx | hx
    · exact .inr ((mem_raws_attrs hn.1 hx).imp_left (List.mem_append_left _))
    · exact (mem_rawsOf content hn.2 x hx).imp_right (.imp_left (List.mem_append_right _))
  | .doctype => fun _ _ hx => absurd hx nofun
  | .text _ => fun _ _ hx => absurd hx nofun
  | .attrText _ => fun _ _ hx => absurd hx nofun
  | .charRef _ => fun _ _ hx => absurd hx nofun

theorem mem_rawsOf : ∀ m : List Html, NamedAll m → ∀ x ∈ rawsOf m,
    x ∈ rawTextsOf m ∨ x ∈ rawValuesOf m ∨ x ∈ codeNames
  | [] => fun _ _ hx => absurd hx nofun
  | h :: hs => fun hn x hx => by
    rcases List.mem_append.1 hx with hx | hx
    · exact (mem_raws h hn.1 x hx).imp (List.mem_append_left _) (.imp_left (List.mem_append_left _))
    · exact (mem_rawsOf hs hn.2 x hx).imp (List.mem_append_right _)
        (.imp_left (List.mem_append_right _))

end

/-- What an insertion is that is not held: an unescaped text. -/
def Inserted.Unescaped (texts values : List String) : Inserted → Prop
  | .text cs => ∃ x ∈ texts, cs = x.toList
  | .value cs => ∃ x ∈ values, cs = x.toList

theorem Inserted.Unescaped.mono {a b c d : List String} (hab : a ⊆ b) (hcd : c ⊆ d)
    {x : Inserted} (h : x.Unescaped a c) : x.Unescaped b d := by
  cases x with
  | text cs => exact h.imp fun _ hx => ⟨hab hx.1, hx.2⟩
  | value cs => exact h.imp fun _ hx => ⟨hcd hx.1, hx.2⟩

theorem attrs_inserted {attrs : List Attr} {texts : List String} :
    ∀ x ∈ attrs.flatMap Attr.inserted,
      x.Held ∨ x.Unescaped texts (attrs.flatMap Attr.rawValues) := by
  intro x hx
  obtain ⟨a, ha, hx⟩ := List.mem_flatMap.1 hx
  cases a with
  | flag name => exact absurd hx nofun
  | value name pieces =>
    obtain ⟨p, hp, rfl⟩ := List.mem_map.1 hx
    cases p with
    | escaped t => exact .inl (Inserted.held_value.2 (not_mem_escapedAttribute _).2)
    | raw t =>
      refine .inr ⟨t, List.mem_flatMap.2 ⟨_, ha, ?_⟩, rfl⟩
      exact List.mem_filterMap.2 ⟨_, hp, rfl⟩

mutual

theorem html_inserted : ∀ h : Html, ∀ x ∈ h.inserted,
    x.Held ∨ x.Unescaped h.rawTexts h.rawValues
  | .doctype => fun _ hx => absurd hx nofun
  | .text s => fun x hx => by
    obtain rfl := List.mem_singleton.1 hx
    exact .inl (Inserted.held_text.2 (not_mem_escapedText _))
  | .attrText s => fun x hx => by
    obtain rfl := List.mem_singleton.1 hx
    exact .inl (Inserted.held_text.2 (not_mem_escapedAttribute _).1)
  | .raw s => fun x hx => by
    obtain rfl := List.mem_singleton.1 hx
    exact .inr ⟨s, List.mem_singleton_self s, rfl⟩
  | .charRef _ => fun _ hx => absurd hx nofun
  | .void _ attrs => fun x hx => attrs_inserted x hx
  | .element _ attrs content => fun x hx => by
    rcases List.mem_append.1 hx with hx | hx
    · exact (attrs_inserted x hx).imp_right
        (.mono (List.Subset.refl _) (List.subset_append_left _ _))
    · exact (markup_inserted content x hx).imp_right
        (.mono (List.Subset.refl _) (List.subset_append_right _ _))

/-- Whatever markup inserts is held or unescaped. -/
theorem markup_inserted : ∀ m : List Html, ∀ x ∈ insertedOf m,
    x.Held ∨ x.Unescaped (rawTextsOf m) (rawValuesOf m)
  | [] => fun _ hx => absurd hx nofun
  | h :: hs => fun x hx => by
    rcases List.mem_append.1 hx with hx | hx
    · exact (html_inserted h x hx).imp_right
        (.mono (List.subset_append_left _ _) (List.subset_append_left _ _))
    · exact (markup_inserted hs x hx).imp_right
        (.mono (List.subset_append_right _ _) (List.subset_append_right _ _))

end

/-! ### Sealed markup -/

/-- Whether the unescaped texts of markup hold neither a bracket, outside of tags, nor a quote,
within values. -/
structure Sealed (m : Markup) : Prop where
  texts : ∀ s ∈ rawTextsOf m, '<' ∉ s.toList
  values : ∀ s ∈ rawValuesOf m, '"' ∉ s.toList

theorem Sealed.held {m : Markup} (h : Sealed m) : ∀ x ∈ insertedOf m, x.Held := by
  intro x hx
  rcases markup_inserted m x hx with hheld | hraw
  · exact hheld
  · cases x with
    | text cs =>
      obtain ⟨s, hs, rfl⟩ := hraw
      exact Inserted.held_text.2 (h.texts s hs)
    | value cs =>
      obtain ⟨s, hs, rfl⟩ := hraw
      exact Inserted.held_value.2 (h.values s hs)

/-- Sealed markup is read as the tags of its tree. -/
theorem Sealed.read {m : Markup} (h : Sealed m) (hn : NamedAll m) :
    readTags m.chars = some (tagsOf m) := readTags_chars hn h.held

theorem Sealed.read_nested {m : Markup} (h : Sealed m) (hn : NamedAll m) :
    ∃ ts, readTags m.chars = some ts ∧ nested [] ts = true := by
  refine ⟨tagsOf m, h.read hn, ?_⟩
  have hnested := nested_tagsOf m [] []
  rw [List.append_nil] at hnested
  rw [hnested]
  rfl

end DocPress
