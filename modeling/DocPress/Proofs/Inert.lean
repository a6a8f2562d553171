import DocPress.Proofs.Origins

/-! Inert texts hold neither brackets nor quotes. A palette of inert texts keeps markup sealed, also
where words are borrowed and where equations are split. -/

namespace DocPress

set_option autoImplicit false

/-- Whether a text holds none of the characters that end a tag or a value, or open one. -/
def Inert (s : String) : Prop := ∀ c ∈ s.toList, c ≠ '<' ∧ c ≠ '>' ∧ c ≠ '"'

namespace Inert

variable {a b : String}

theorem of_all (h : a.toList.all (fun c => decide (c ≠ '<' ∧ c ≠ '>' ∧ c ≠ '"')) = true) :
    Inert a := forall_mem_of_all h

theorem no_bracket (h : Inert a) : '<' ∉ a.toList := fun hm => (h _ hm).1 rfl

theorem no_quote (h : Inert a) : '"' ∉ a.toList := fun hm => (h _ hm).2.2 rfl

theorem isTagFree (h : Inert a) : isTagFree a = true := by
  refine List.all_eq_true.2 fun c hc => ?_
  have hc := h c hc
  simp [hc.1, hc.2.1]

theorem append (ha : Inert a) (hb : Inert b) : Inert (a ++ b) := by
  intro c hc
  rw [String.toList_append, List.mem_append] at hc
  exact hc.elim (ha c) (hb c)

theorem of_subset (ha : Inert a) (h : ∀ c ∈ b.toList, c ∈ a.toList) : Inert b :=
  fun c hc => ha c (h c hc)

theorem trimEnd (ha : Inert a) (c : Char) : Inert (Text.trimEnd c a) := by
  refine ha.of_subset fun d hd => ?_
  rw [Text.trimEnd, String.toList_ofList, Text.dropEnd, List.mem_reverse] at hd
  exact List.mem_reverse.1 ((List.dropWhile_sublist _).subset hd)

theorem decimal (n : Nat) : Inert (toString n) := by
  intro c hc
  have hdigit := isDigit_of_mem_toString hc
  refine ⟨?_, ?_, ?_⟩ <;> rintro rfl <;> exact absurd hdigit (by decide)

end Inert

/-! ### Inert palettes -/

variable {P : Palette}

/-- Whether all that a palette inserts is inert, and nothing is split yet. -/
structure Palette.Inert (P : Palette) : Prop where
  text : ∀ {s : String}, P.text s → DocPress.Inert s
  value : ∀ {s : String}, P.value s → DocPress.Inert s
  number : ∀ {s : String}, P.number s → DocPress.Inert s
  whole : ¬ P.split

namespace Palette.Inert

variable (hP : P.Inert)

include hP

theorem of_text {s : String} (h : P.Text s) : DocPress.Inert s := by
  cases h with
  | own h => exact hP.text h
  | number h => exact hP.number h
  | glyph hs _ _ => exact absurd hs hP.whole

theorem of_value {s : String} (h : P.Value s) : DocPress.Inert s := by
  cases h with
  | own h => exact hP.value h
  | number h => exact hP.number h
  | glyph hs _ _ => exact absurd hs hP.whole
  | joint hs _ => exact absurd hs hP.whole

theorem tagFree {m : Markup} (hm : FineAll P m) : ∀ x ∈ rawsOf m, isTagFree x = true := by
  intro x hx
  obtain ⟨htexts, hvalues⟩ := FineAll.raws m hm
  rcases mem_rawsOf m (FineAll.named m hm) x hx with hx | hx | hx
  · exact (hP.of_text (htexts x hx)).isTagFree
  · exact (hP.of_value (hvalues x hx)).isTagFree
  · exact isTagFree_codeName x hx

end Palette.Inert

/-! ### Sealed pages -/

theorem Equation.no_quote_joint (ends : Nat) : '"' ∉ (joint ascii ends).chars := by
  have hbreaks : ∀ n : Nat,
      '"' ∉ charsOf (List.replicate n ([.text "\n", .void .br []] : Markup)).flatten := by
    intro n
    induction n with
    | zero => exact nofun
    | succ n ih =>
      rw [List.replicate_succ, List.flatten_cons, charsOf_append, List.mem_append]
      rintro (h | h)
      · exact absurd h (by decide)
      · exact ih h
  have hsplit : (joint ascii ends).chars = charsOf [.text ascii.after] ++
      (charsOf (List.replicate (ends - 1) ([.text "\n", .void .br []] : Markup)).flatten ++
        charsOf [.text "\n", .text ascii.before]) := by
    rw [← charsOf_append, ← charsOf_append]
    rfl
  rw [hsplit, List.mem_append, List.mem_append]
  rintro (h | h | h)
  · exact absurd h (by decide)
  · exact hbreaks _ h
  · exact absurd h (by decide)

namespace Palette.Inert

variable (hP : P.Inert)

include hP

theorem page_text {s : String} (h : P.page.Text s) : '<' ∉ s.toList := by
  induction h with
  | own h =>
    rcases h with h | ⟨m, hm, htags, _⟩
    · exact (hP.text h).no_bracket
    -- Words are borrowed as text only where some unescaped text has a tag.
    · rw [List.all_eq_true.2 (hP.tagFree hm)] at htags
      exact absurd htags nofun
  | number h => exact (hP.number h).no_bracket
  | @glyph s c _ _ hc ih =>
    intro hm
    obtain rfl : '<' = c := by simpa using hm
    exact ih hc

theorem page_value {s : String} (h : P.page.Value s) : '"' ∉ s.toList := by
  induction h with
  | own h => exact (hP.value h).no_quote
  | number h => exact (hP.number h).no_quote
  | @glyph s c _ _ hc ih =>
    intro hm
    obtain rfl : '"' = c := by simpa using hm
    exact ih hc
  | joint _ ends =>
    rw [String.toList_ofList]
    exact Equation.no_quote_joint ends

theorem sealed {m : Markup} (hm : FineAll P.page m) : Sealed m where
  texts s hs := hP.page_text ((FineAll.raws m hm).1 s hs)
  values s hs := hP.page_value ((FineAll.raws m hm).2 s hs)

end Palette.Inert

end DocPress
