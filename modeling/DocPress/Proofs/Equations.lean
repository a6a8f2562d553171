import DocPress.Block.Verbatim
import DocPress.Proofs.Breaks
import DocPress.Proofs.VisibleWords

/-! What stands between the delimiters of a block of equations. Breaks and delimiters hold none of
the characters of an entity, so a source is split in the same places before and after it is escaped.
The equations of a block are read back from its characters, each delimiter ending one stretch. -/

namespace DocPress

set_option autoImplicit false

namespace Text

/-- Whether a character is written as itself and as no part of an entity. -/
def Unescaped (c : Char) : Prop := textEntity c = [c] ∧ ∀ x, c ∈ textEntity x → x = c

theorem unescaped_of {c : Char} (h : c ∉ "&amp;&lt;&gt;<>".toList) : Unescaped c := by
  constructor
  · unfold textEntity
    split <;> simp_all
  · intro x hx
    have hpart : textEntity x = [x] ∨ ∀ d ∈ textEntity x, d ∈ "&amp;&lt;&gt;<>".toList := by
      unfold textEntity
      split
      · exact .inr (forall_mem_of_all (by decide))
      · exact .inr (forall_mem_of_all (by decide))
      · exact .inr (forall_mem_of_all (by decide))
      · exact .inl rfl
    rcases hpart with hself | hpart
    · rw [hself] at hx
      exact (List.mem_singleton.mp hx).symm
    · exact absurd (hpart c hx) h

variable {a b part : List Char} {d : Char}

theorem escapedText_of_unescaped (h : ∀ c ∈ part, Unescaped c) : escapedText part = part := by
  induction part with
  | nil => rfl
  | cons c part ih =>
    obtain ⟨hc, hpart⟩ := List.forall_mem_cons.mp h
    rw [escapedText_cons, hc.1, ih hpart, List.singleton_append]

theorem eq_append_cons_of_escaped (hd : Unescaped d) : ∀ {cs a : List Char},
    escapedText cs = a ++ d :: b →
    ∃ a' b', cs = a' ++ d :: b' ∧ escapedText a' = a ∧ escapedText b' = b
  | [], _, h => absurd h.symm (by simp)
  | c :: cs, a, h => by
    rw [escapedText_cons] at h
    rcases List.append_eq_append_iff.mp h with ⟨tail, rfl, hrest⟩ | ⟨tail, hentity, hrest⟩
    · obtain ⟨a', b', rfl, rfl, hb⟩ := eq_append_cons_of_escaped hd hrest
      exact ⟨c :: a', b', rfl, rfl, hb⟩
    · cases tail with
      | nil =>
        obtain ⟨a', b', rfl, ha, hb⟩ := eq_append_cons_of_escaped (a := []) hd hrest.symm
        refine ⟨c :: a', b', rfl, ?_, hb⟩
        rw [escapedText_cons, ha, hentity, List.append_nil, List.append_nil]
      | cons e tail =>
        obtain ⟨rfl, rfl⟩ := List.cons.inj hrest
        obtain rfl : c = d := hd.2 c (by rw [hentity]; simp)
        have hone : a ++ c :: tail = [] ++ [c] := hentity.symm.trans hd.1
        obtain ⟨rfl, hb⟩ : a = [] ∧ tail = [] := by
          cases a with
          | nil => exact ⟨rfl, (List.cons.inj hone).2⟩
          | cons x a => exact absurd (List.cons.inj hone).2 (by simp)
        refine ⟨[], cs, rfl, rfl, ?_⟩
        rw [hb]
        rfl

theorem eq_append_of_escaped_cons (h : ∀ c ∈ part, Unescaped c) {cs : List Char}
    (hcs : escapedText cs = part ++ b) : ∃ b', cs = part ++ b' ∧ escapedText b' = b := by
  induction part generalizing cs with
  | nil => exact ⟨cs, rfl, hcs⟩
  | cons d part ih =>
    obtain ⟨hd, hpart⟩ := List.forall_mem_cons.mp h
    obtain ⟨a', b', rfl, ha, hb⟩ := eq_append_cons_of_escaped (a := []) hd hcs
    obtain rfl := escapedText_eq_nil.mp ha
    obtain ⟨b'', rfl, hb'⟩ := ih hpart hb
    exact ⟨b'', rfl, hb'⟩

/-- A part of an escaped text stands in the text too, if it has no character of an entity. -/
theorem eq_append_of_escaped (h : ∀ c ∈ part, Unescaped c) (hsome : part ≠ []) {cs : List Char}
    (hcs : escapedText cs = a ++ part ++ b) :
    ∃ a' b', cs = a' ++ part ++ b' ∧ escapedText a' = a ∧ escapedText b' = b := by
  cases part with
  | nil => exact absurd rfl hsome
  | cons d part =>
    obtain ⟨hd, hpart⟩ := List.forall_mem_cons.mp h
    rw [List.append_assoc, List.cons_append] at hcs
    obtain ⟨a', behind, rfl, ha, hbehind⟩ := eq_append_cons_of_escaped hd hcs
    obtain ⟨b', rfl, hb⟩ := eq_append_of_escaped_cons hpart hbehind
    exact ⟨a', b', by rw [List.append_assoc, List.cons_append], ha, hb⟩

end Text

namespace Equation

open Text

/-! ### Escaped sources -/

theorem IsBreak.unescaped {part : List Char} (h : IsBreak part) : ∀ c ∈ part, Unescaped c := by
  intro c hc
  rcases h.mem c hc with rfl | rfl | rfl
  · exact unescaped_of (by decide)
  · exact unescaped_of (by decide)
  · exact unescaped_of (by decide)

variable {cs first : List Char} {rest : List (List Char × List Char)}

theorem FirstBreak.escaped {before part after : List Char} (h : FirstBreak cs before part after) :
    FirstBreak (escapedText cs) (escapedText before) part (escapedText after) where
  split := by
    rw [h.split, escapedText_append, escapedText_append,
      escapedText_of_unescaped h.isBreak.unescaped]
  isBreak := h.isBreak
  leftmost a b c hsplit hb := by
    obtain ⟨a', c', hcs, rfl, -⟩ := eq_append_of_escaped hb.unescaped hb.ne_nil hsplit
    have hle := h.leftmost a' b c' hcs hb
    have hbefore : before <+: cs := by
      rw [h.split, List.append_assoc]
      exact List.prefix_append before _
    have hahead : a' <+: cs := by
      rw [hcs, List.append_assoc]
      exact List.prefix_append a' _
    obtain ⟨between, rfl⟩ := List.prefix_of_prefix_length_le hbefore hahead hle
    rw [escapedText_append, List.length_append]
    exact Nat.le_add_right _ _
  longest b c hsplit hb := by
    have hpart := escapedText_of_unescaped h.isBreak.unescaped
    rw [← hpart, ← escapedText_append] at hsplit
    obtain ⟨c', hsplit', -⟩ := eq_append_of_escaped_cons hb.unescaped hsplit
    exact h.longest b c' hsplit' hb

/-- A source is split where it is split after escaping. -/
theorem Splits.escaped (h : Splits cs first rest) :
    Splits (escapedText cs) (escapedText first) (rest.map fun p => (p.1, escapedText p.2)) := by
  induction h with
  | whole hnone =>
    refine .whole fun a b c hsplit hb => ?_
    obtain ⟨a', c', hcs, -, -⟩ := eq_append_of_escaped hb.unescaped hb.ne_nil hsplit
    exact hnone a' b c' hcs hb
  | cut hbreak hrest ih => exact .cut hbreak.escaped ih

/-- A text is what it is split into. -/
theorem Splits.text (h : Splits cs first rest) :
    cs = first ++ rest.flatMap fun p => p.1 ++ p.2 := by
  induction h with
  | whole hnone => simp
  | cut hbreak hrest ih =>
    rw [hbreak.split, ih]
    simp

theorem Splits.within (h : Splits cs first rest) : first <:+: cs ∧ ∀ p ∈ rest, p.2 <:+: cs := by
  induction h with
  | whole hnone => exact ⟨List.infix_rfl, nofun⟩
  | @cut cs first part after next rest hbreak hrest ih =>
    have hafter : after <:+: cs := by
      rw [hbreak.split]
      exact (List.suffix_append _ after).isInfix
    refine ⟨?_, List.forall_mem_cons.mpr ⟨ih.1.trans hafter, fun p hp => (ih.2 p hp).trans hafter⟩⟩
    rw [hbreak.split, List.append_assoc]
    exact (List.prefix_append first _).isInfix

/-! ### Lines of equations -/

def delimiter : List Char := ascii.before.toList

/-- What stands between two equations: a line break for each blank line, and the line end. -/
def lineBreaks (part : List Char) : List Char :=
  (List.replicate (part.count '\n' - 1) "\n<br>".toList).flatten ++ ['\n']

def delimited (equation : List Char) : List Char := delimiter ++ equation ++ delimiter

/-- A split text with each of its parts between delimiters. -/
def equationLines (first : List Char) (rest : List (List Char × List Char)) : List Char :=
  delimited first ++ rest.flatMap fun p => lineBreaks p.1 ++ delimited p.2

/-- The lines of equations without the outermost delimiters. -/
def openLines (first : List Char) (rest : List (List Char × List Char)) : List Char :=
  first ++ rest.flatMap fun p => delimiter ++ lineBreaks p.1 ++ delimiter ++ p.2

/-- Whether a split text begins and ends with a break. -/
def Bordered (first : List Char) (rest : List (List Char × List Char)) : Prop :=
  first = [] ∧ ∃ part, rest.getLast? = some (part, [])

theorem delimited_openLines (first : List Char) (rest : List (List Char × List Char)) :
    delimited (openLines first rest) = equationLines first rest := by
  induction rest generalizing first with
  | nil => simp [delimited, openLines, equationLines]
  | cons p rest ih =>
    have hrest := ih p.2
    simp only [delimited, openLines, equationLines, List.flatMap_cons, List.append_assoc]
      at hrest ⊢
    rw [hrest]

theorem chars_text_map (cs : List Char) :
    charsOf (cs.map fun c => .text c.toString) = escapedText cs := by
  induction cs with
  | nil => rfl
  | cons c cs ih =>
    have hone : c.toString.toList = [c] := by simp
    have hhead : (Html.text c.toString).chars = escapedText c.toString.toList := rfl
    rw [List.map_cons, charsOf, hhead, hone, ih, ← escapedText_append]
    rfl

theorem chars_joint (part : List Char) :
    charsOf (joint ascii (part.count '\n')) = delimiter ++ lineBreaks part ++ delimiter := by
  have hbreaks (n : Nat) :
      charsOf (List.replicate n ([.text "\n", .void .br []] : Markup)).flatten =
        (List.replicate n "\n<br>".toList).flatten := by
    induction n with
    | zero => rfl
    | succ n ih =>
      rw [List.replicate_succ, List.flatten_cons, charsOf_append, ih, List.replicate_succ,
        List.flatten_cons]
      rfl
  have hafter : charsOf [.text ascii.after] = delimiter := by decide
  have hend : charsOf [.text "\n", .text ascii.before] = '\n' :: delimiter := by decide
  rw [joint, ← List.singleton_append, charsOf_append, charsOf_append, hbreaks, hafter, hend,
    lineBreaks]
  simp

/-- The characters of a split block of equations. -/
theorem chars_split (source : String) :
    ∃ first rest, Splits (escapedText source.toList) first rest ∧
      (split ascii [.text source]).chars = openLines first rest := by
  have hglyph (c : Char) : Html.glyph? (.text c.toString) = some c := by
    simp [Html.glyph?, onlyChar?]
  obtain ⟨first, rest, hsplits, heq⟩ := splitAt_joined hglyph (joint ascii) source.toList
  refine ⟨_, _, hsplits.escaped, ?_⟩
  have hglyphs : glyphsOf ascii [.text source] = source.toList.map fun c => .text c.toString := by
    simp [glyphsOf, glyphs]
  rw [split, hglyphs, heq, joined, Markup.chars, charsOf_append, chars_text_map, openLines]
  clear hsplits heq
  congr 1
  induction rest with
  | nil => rfl
  | cons p rest ih =>
    simp only [List.flatMap_cons, List.map_cons, charsOf_append, chars_joint, chars_text_map, ih,
      List.append_assoc]

/-! ### The outermost delimiters -/

theorem openLines_concat (first : List Char) (rest : List (List Char × List Char))
    (p : List Char × List Char) :
    openLines first (rest ++ [p]) =
      openLines first rest ++ (delimiter ++ lineBreaks p.1) ++ delimiter ++ p.2 := by
  simp [openLines]

/-- The lines have delimiters at both ends just if there are breaks at both ends. -/
theorem delimiters_iff_bordered (hfirst : ¬ delimiter <:+: first)
    (hrest : ∀ p ∈ rest, ¬ delimiter <:+: p.2) :
    delimiter <+: openLines first rest ∧ delimiter <:+ openLines first rest ↔
      Bordered first rest := by
  constructor
  · rintro ⟨hbegin, hend⟩
    have hnil : first = [] := by
      refine eq_nil_of_pair_begin hbegin hfirst ?_
      cases rest with
      | nil => exact nofun
      | cons p rest => exact fun h => absurd (Option.some.inj h) (by decide)
    subst hnil
    rcases List.eq_nil_or_concat rest with rfl | ⟨before, p, rfl⟩
    · exact absurd hbegin (by decide)
    · rw [List.concat_eq_append] at hrest hend ⊢
      rw [openLines_concat] at hend
      have hlast : p.2 = [] := by
        refine eq_nil_of_pair_end hend (hrest p (by simp)) ?_
        rw [List.getLast?_append]
        exact fun h => absurd (Option.some.inj h) (by decide)
      exact ⟨rfl, p.1, by rw [List.getLast?_concat, ← hlast]⟩
  · rintro ⟨rfl, part, hlast⟩
    constructor
    · cases rest with
      | nil => exact absurd hlast nofun
      | cons p rest => exact ⟨_, by simp [openLines]; rfl⟩
    · obtain ⟨before, rfl⟩ := List.getLast?_eq_some_iff.mp hlast
      rw [openLines_concat, List.append_nil]
      exact List.suffix_append _ delimiter

/-! ### Reading equations -/

/-- The stretches of a text between its delimiters: one more than there are of them. -/
def stretches : List Char → List (List Char)
  | [] => [[]]
  | [c] => [[c]]
  | c :: d :: cs =>
    if [c, d] = delimiter then [] :: stretches cs
    else match stretches (d :: cs) with
      | [] => [[c]]
      | part :: parts => (c :: part) :: parts

/-- The first of the items, the third and so on. -/
def everySecond {α : Type} : List α → List α
  | [] => []
  | [a] => [a]
  | a :: _ :: rest => a :: everySecond rest

/-- What stands between an opening and a closing delimiter. -/
def equationsIn (cs : List Char) : List (List Char) := everySecond (stretches cs).tail

/-- What stands outside of the equations. -/
def outsideEquations (cs : List Char) : List (List Char) := everySecond (stretches cs)

theorem stretches_cons {c : Char} {part : List Char} {parts : List (List Char)}
    (hnone : ¬ delimiter <+: c :: cs) (h : stretches cs = part :: parts) :
    stretches (c :: cs) = (c :: part) :: parts := by
  cases cs with
  | nil =>
    obtain ⟨rfl, rfl⟩ := List.cons.inj h
    rfl
  | cons d cs =>
    have hpair : [c, d] ≠ delimiter := fun heq => hnone ⟨cs, by rw [← heq]; rfl⟩
    rw [stretches, if_neg hpair, h]

/-- A delimiter ends the stretch ahead of it. -/
theorem stretches_append {part : List Char} (h : ¬ delimiter <:+: part) (after : List Char) :
    stretches (part ++ delimiter ++ after) = part :: stretches after := by
  induction part with
  | nil => exact if_pos rfl
  | cons c part ih =>
    have hpart : ¬ delimiter <:+: part := fun hm => h (hm.trans (List.suffix_cons c part).isInfix)
    rw [List.append_assoc, List.cons_append, ← List.append_assoc]
    refine stretches_cons (fun hbegin => ?_) (ih hpart)
    rw [List.append_assoc, ← List.cons_append] at hbegin
    have hhead : (delimiter ++ after).head? ≠ some '$' :=
      fun heq => absurd (Option.some.inj heq) (by decide)
    exact absurd (eq_nil_of_pair_begin hbegin h hhead) (by simp)

theorem not_delimiter_of {part : List Char} (h : '$' ∉ part) : ¬ delimiter <:+: part :=
  fun hm => h (hm.subset (by decide))

theorem lineBreaks_free (part : List Char) : ¬ delimiter <:+: lineBreaks part := by
  refine not_delimiter_of fun h => ?_
  rcases List.mem_append.mp h with h | h
  · obtain ⟨l, hl, hc⟩ := List.mem_flatten.mp h
    rw [List.eq_of_mem_replicate hl] at hc
    exact absurd hc (by decide)
  · exact absurd h (by decide)

theorem stretches_equationLines (hfirst : ¬ delimiter <:+: first)
    (hrest : ∀ p ∈ rest, ¬ delimiter <:+: p.2) :
    stretches (equationLines first rest) =
      [] :: first :: ((rest.flatMap fun p => [lineBreaks p.1, p.2]) ++ [[]]) := by
  have hbehind : stretches (first ++ delimiter ++
      rest.flatMap fun p => lineBreaks p.1 ++ delimited p.2) =
        first :: ((rest.flatMap fun p => [lineBreaks p.1, p.2]) ++ [[]]) := by
    induction rest generalizing first with
    | nil => exact stretches_append hfirst []
    | cons p rest ih =>
      obtain ⟨hp, hrest⟩ := List.forall_mem_cons.mp hrest
      have hnext := ih hp hrest
      have hline : (lineBreaks p.1 ++ delimited p.2 ++
          rest.flatMap fun p => lineBreaks p.1 ++ delimited p.2) =
            lineBreaks p.1 ++ delimiter ++ (p.2 ++ delimiter ++
              rest.flatMap fun p => lineBreaks p.1 ++ delimited p.2) := by
        simp [delimited]
      rw [List.flatMap_cons, stretches_append hfirst, hline, stretches_append (lineBreaks_free _),
        hnext]
      rfl
  have hopen : ¬ delimiter <:+: ([] : List Char) := by decide
  have hbegin := stretches_append hopen (first ++ delimiter ++
    rest.flatMap fun p => lineBreaks p.1 ++ delimited p.2)
  rw [hbehind] at hbegin
  rw [← hbegin, equationLines, delimited]
  simp

theorem everySecond_pairs {α β : Type} (f g : α → β) (b c : β) (l : List α) :
    everySecond (b :: ((l.flatMap fun p => [f p, g p]) ++ [c])) = b :: l.map g := by
  induction l generalizing b with
  | nil => rfl
  | cons p l ih => exact congrArg (b :: ·) (ih (g p))

theorem everySecond_pairs_concat {α β : Type} (f g : α → β) (a b c : β) (l : List α) :
    everySecond (a :: b :: ((l.flatMap fun p => [f p, g p]) ++ [c])) = a :: (l.map f ++ [c]) := by
  induction l generalizing a b with
  | nil => rfl
  | cons p l ih => exact congrArg (a :: ·) (ih (f p) (g p))

theorem equationsIn_equationLines (hfirst : ¬ delimiter <:+: first)
    (hrest : ∀ p ∈ rest, ¬ delimiter <:+: p.2) :
    equationsIn (equationLines first rest) = first :: rest.map Prod.snd := by
  rw [equationsIn, stretches_equationLines hfirst hrest]
  exact everySecond_pairs (fun p => lineBreaks p.1) Prod.snd first [] rest

theorem outsideEquations_equationLines (hfirst : ¬ delimiter <:+: first)
    (hrest : ∀ p ∈ rest, ¬ delimiter <:+: p.2) :
    outsideEquations (equationLines first rest) =
      [] :: ((rest.map fun p => lineBreaks p.1) ++ [[]]) := by
  rw [outsideEquations, stretches_equationLines hfirst hrest]
  exact everySecond_pairs_concat (fun p => lineBreaks p.1) Prod.snd [] first [] rest

/-! ### Blocks of equations -/

theorem Splits.free (h : Splits cs first rest) (hfree : ¬ delimiter <:+: cs) :
    ¬ delimiter <:+: first ∧ ∀ p ∈ rest, ¬ delimiter <:+: p.2 := by
  refine ⟨fun hm => hfree (hm.trans h.within.1), fun p hp hm => hfree (hm.trans (h.within.2 p hp))⟩

theorem escapedText_free (hfree : ¬ delimiter <:+: cs) : ¬ delimiter <:+: escapedText cs := by
  rintro ⟨a, b, hcs⟩
  have hplain : ∀ c ∈ delimiter, c ∉ "&amp;&lt;&gt;<>".toList := forall_mem_of_all (by decide)
  obtain ⟨a', b', rfl, -, -⟩ :=
    eq_append_of_escaped (fun c hc => unescaped_of (hplain c hc)) (by decide) hcs.symm
  exact hfree ⟨a', b', rfl⟩

theorem openLines_ne_nil (h : Splits cs first rest) (hcs : cs ≠ []) :
    openLines first rest ≠ [] := by
  intro hnil
  obtain ⟨rfl, hrest⟩ := List.append_eq_nil_iff.mp hnil
  cases rest with
  | nil => exact hcs h.text
  | cons p rest => exact absurd hrest (by simp [delimiter, ascii])

/-- Delimiters are put around split lines unless these have a break at both ends. -/
theorem chars_delimit_split {source : String} (hsome : source ≠ "")
    (hfree : ¬ delimiter <:+: source.toList) (h : Splits (escapedText source.toList) first rest) :
    (Bordered first rest → (delimit ascii (split ascii [.text source])).chars =
      openLines first rest) ∧
    (¬ Bordered first rest → (delimit ascii (split ascii [.text source])).chars =
      equationLines first rest) := by
  obtain ⟨first', rest', hsplits, hchars⟩ := chars_split source
  obtain ⟨rfl, rfl⟩ := hsplits.eq h
  generalize hm : split ascii [.text source] = m at hchars
  have hcs : escapedText source.toList ≠ [] := by
    rw [ne_eq, escapedText_eq_nil]
    simpa using hsome
  have hblank : m.isBlank = false := by
    rw [Markup.isBlank, hchars, List.isEmpty_eq_false_iff]
    exact openLines_ne_nil h hcs
  obtain ⟨hfirst, hrest⟩ := h.free (escapedText_free hfree)
  have hdelimited : isDelimited ascii m = true ↔ Bordered first' rest' := by
    rw [← delimiters_iff_bordered hfirst hrest, ← hchars, isDelimited, Bool.and_eq_true,
      List.isPrefixOf_iff_prefix, List.isSuffixOf_iff_suffix]
    rfl
  constructor
  · intro hbordered
    rw [delimit, hblank, hdelimited.mpr hbordered]
    exact hchars
  · intro hbordered
    have hopen : isDelimited ascii m = false := by
      rw [← Bool.not_eq_true, hdelimited]
      exact hbordered
    have hbefore : charsOf [.text ascii.before] = delimiter := by decide
    have hafter : charsOf [.text ascii.after] = delimiter := by decide
    rw [delimit, hblank, hopen, ← delimited_openLines, ← hchars, delimited]
    change charsOf ([.text ascii.before] ++ (m ++ [.text ascii.after])) = _
    rw [charsOf_append, charsOf_append, hbefore, hafter, List.append_assoc]
    rfl

end Equation

namespace Block

open Equation

/-- The equations of a block stand between delimiters, with nothing but line breaks outside of them
and nothing but text of the source inside, unless the source begins and ends with a break. Then the
outermost delimiters are missing. -/
theorem stem_equations (s : Scene) (n : Node) (source : String)
    (hstyle : stemStyle s n.data = "asciimath") (htext : n.text = none)
    (hsource : n.source = some source) (hsome : source ≠ "")
    (hfree : ¬ "\\$".toList <:+: source.toList) :
    ∃ m : Markup,
      (stem s n).value = .stack .div (n.data.idAttrs ++ n.data.classAttrs "stem")
        ((titleLine s n false).value ++ [contentBox [m]]) ∧
      (∃ first rest, Splits (Text.escapedText source.toList) first rest) ∧
      ∀ first rest, Splits (Text.escapedText source.toList) first rest →
        (m.chars = equationLines first rest ↔ ¬ Bordered first rest) ∧
        (Bordered first rest → delimited m.chars = equationLines first rest) ∧
        (¬ Bordered first rest →
          equationsIn m.chars = first :: rest.map Prod.snd ∧
          outsideEquations m.chars = [] :: ((rest.map fun p => lineBreaks p.1) ++ [[]]) ∧
          ∀ equation ∈ equationsIn m.chars, '<' ∉ equation) := by
  refine ⟨delimit ascii (split ascii [.text source]), ?_, ?_, ?_⟩
  · have hverbatim : verbatim s n = pure [.text source] := by rw [verbatim, htext, hsource]
    rw [stem, hverbatim, hstyle]
    rfl
  · obtain ⟨first, rest, hsplits, -⟩ := chars_split source
    exact ⟨first, rest, hsplits⟩
  · intro first rest hsplits
    obtain ⟨hclosed, hopen⟩ := chars_delimit_split hsome hfree hsplits
    generalize delimit ascii (split ascii [.text source]) = m at hclosed hopen ⊢
    obtain ⟨hfirst, hrest⟩ := hsplits.free (escapedText_free hfree)
    refine ⟨⟨fun heq hbordered => ?_, hopen⟩, fun hbordered => ?_, fun hbordered => ?_⟩
    · have hlength := congrArg List.length heq
      rw [hclosed hbordered, ← delimited_openLines, delimited, List.length_append,
        List.length_append] at hlength
      have hsize : delimiter.length = 2 := by decide
      omega
    · rw [hclosed hbordered, delimited_openLines]
    · have hequations := equationsIn_equationLines hfirst hrest
      rw [hopen hbordered]
      refine ⟨hequations, outsideEquations_equationLines hfirst hrest, fun equation he hc => ?_⟩
      have hsource : equation <:+: Text.escapedText source.toList := by
        rw [hequations] at he
        rcases List.mem_cons.mp he with rfl | he
        · exact hsplits.within.1
        · obtain ⟨p, hp, rfl⟩ := List.mem_map.mp he
          exact hsplits.within.2 p hp
      exact not_mem_escapedText _ (hsource.subset hc)

/-- A block of equations in AsciiMath. -/
def asciiBlock (source : String) : Node :=
  .leaf { kind := .stem, style := some "asciimath", source := some source }

theorem stem_twoEquations :
    let s : Scene := ⟨.blank, .initial, .blank, none⟩
    let n := asciiBlock "a\n\nb"
    stemStyle s n.data = "asciimath" ∧ n.text = none ∧ n.source = some "a\n\nb" ∧
      ¬ "\\$".toList <:+: "a\n\nb".toList ∧
      ∃ m first rest, Splits (Text.escapedText "a\n\nb".toList) first rest ∧
        ¬ Bordered first rest ∧ m.chars = equationLines first rest ∧
        (stem s n).value = .stack .div [attr .classes "stem"] [contentBox [m]] := by
  intro s n
  have hfree : ¬ "\\$".toList <:+: "a\n\nb".toList := by decide +kernel
  obtain ⟨m, hvalue, ⟨first, rest, hsplits⟩, hlines⟩ :=
    stem_equations s n "a\n\nb" (by decide) rfl rfl (by decide) hfree
  have hbordered : ¬ Bordered first rest := by
    rintro ⟨rfl, part, hlast⟩
    generalize hcs : Text.escapedText "a\n\nb".toList = cs at hsplits
    cases hsplits with
    | whole _ => exact absurd hcs (by decide)
    | @cut _ _ part after next rest hbreak hrest =>
      have hsplit := hcs.trans hbreak.split
      cases part with
      | nil => exact hbreak.isBreak.ne_nil rfl
      | cons c part =>
        obtain rfl := (List.cons.inj hsplit).1
        exact absurd (hbreak.isBreak.mem _ List.mem_cons_self) (by decide)
  exact ⟨by decide, rfl, rfl, hfree, m, first, rest, hsplits, hbordered,
    (hlines first rest hsplits).1.mpr hbordered, hvalue⟩

/-- The breaks at the ends of a source leave equations that are line breaks, and text outside. -/
theorem stem_bordered :
    let s : Scene := ⟨.blank, .initial, .blank, none⟩
    ∃ m : Markup,
      (stem s (asciiBlock "\n\na\n\n")).value =
        .stack .div [attr .classes "stem"] [contentBox [m]] ∧
      m.chars = "\\$\n<br>\n\\$a\\$\n<br>\n\\$".toList ∧
      equationsIn m.chars = ["\n<br>\n".toList, "\n<br>\n".toList] ∧
      outsideEquations m.chars = [[], ['a'], []] ∧
      ∀ first rest, Splits (Text.escapedText "\n\na\n\n".toList) first rest →
        m.chars ≠ equationLines first rest := by
  refine ⟨delimit ascii (split ascii [.text "\n\na\n\n"]), rfl, by decide, by decide, by decide, ?_⟩
  intro first rest hsplits heq
  have hfree : ¬ delimiter <:+: Text.escapedText "\n\na\n\n".toList := by decide +kernel
  obtain ⟨hfirst, hrest⟩ := hsplits.free hfree
  have hread := equationsIn_equationLines hfirst hrest
  have hbreaks : equationsIn (delimit ascii (split ascii [.text "\n\na\n\n"])).chars =
      ["\n<br>\n".toList, "\n<br>\n".toList] := by decide
  rw [heq, hread] at hbreaks
  obtain ⟨rfl, -⟩ := List.cons.inj hbreaks
  exact absurd (hsplits.within.1.subset (by decide : '<' ∈ "\n<br>\n".toList)) (by decide)

end Block

end DocPress
