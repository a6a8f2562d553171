import DocPress.Svg

/-! Where an SVG file is inserted from. The part that begins with the first root element is told by
what stands before and after it; the search finds it, and a text that begins with a longer name is
the one case in which there is no search. -/

namespace DocPress.Svg

set_option autoImplicit false

open Text (isBlank)

variable {cs root : List Char}

/-- Whether a root element begins here: its name is followed by white space or a bracket. -/
def OpensRoot (cs : List Char) : Prop :=
  ∃ c rest, cs = rootStart ++ c :: rest ∧ (isBlank c = true ∨ c = '>')

/-- Whether `root` is the text from its first root element on. -/
structure FirstRoot (cs root : List Char) : Prop where
  suffix : root <:+ cs
  opens : OpensRoot root
  first : ∀ other, other <:+ cs → OpensRoot other → other.length ≤ root.length

def NoRoot (cs : List Char) : Prop := ∀ root, root <:+ cs → ¬ OpensRoot root

/-- Whether `out` is the text without what stands before its root element, if it has one. -/
def WithoutPreamble (cs out : List Char) : Prop := FirstRoot cs out ∨ NoRoot cs ∧ out = cs

/-- Whether a text begins with a name that is longer than that of a root element, and has a root
element further on. -/
def Shadowed (cs : List Char) : Prop := rootStart <+: cs ∧ ¬ OpensRoot cs ∧ ¬ NoRoot cs

theorem startsRoot_iff : startsRoot cs = true ↔ OpensRoot cs := by
  constructor
  · intro h
    obtain ⟨hnamed, hend⟩ := Bool.and_eq_true_iff.mp h
    obtain ⟨rest, rfl⟩ := List.isPrefixOf_iff_prefix.mp hnamed
    have hdrop : (rootStart ++ rest).drop 4 = rest := rfl
    rw [hdrop] at hend
    cases rest with
    | nil => exact absurd hend nofun
    | cons c rest => exact ⟨c, rest, rfl, by simpa using hend⟩
  · rintro ⟨c, rest, rfl, hc⟩
    have hnamed : rootStart.isPrefixOf (rootStart ++ c :: rest) = true :=
      List.isPrefixOf_iff_prefix.mpr (List.prefix_append _ _)
    have hend : (isBlank c || c == '>') = true := by simpa using hc
    exact Bool.and_eq_true_iff.mpr ⟨hnamed, hend⟩

theorem OpensRoot.named (h : OpensRoot cs) : rootStart <+: cs := by
  obtain ⟨c, rest, rfl, _⟩ := h
  exact List.prefix_append _ _

theorem FirstRoot.refl (h : OpensRoot cs) : FirstRoot cs cs :=
  ⟨List.suffix_refl cs, h, fun _ hs _ => hs.length_le⟩

theorem FirstRoot.not_noRoot (h : FirstRoot cs root) : ¬ NoRoot cs :=
  fun hno => hno root h.suffix h.opens

/-- A text has one part from its first root element on. -/
theorem FirstRoot.eq {root' : List Char} (h : FirstRoot cs root) (h' : FirstRoot cs root') :
    root = root' := by
  have hle : root'.length ≤ root.length := h.first root' h'.suffix h'.opens
  have hge : root.length ≤ root'.length := h'.first root h.suffix h.opens
  exact List.suffix_of_suffix_length_le h.suffix h'.suffix hge |>.eq_of_length (by omega)

theorem fromRoot?_spec : ∀ cs : List Char,
    (∀ root, fromRoot? cs = some root → FirstRoot cs root) ∧ (fromRoot? cs = none → NoRoot cs)
  | [] => by
    refine ⟨nofun, fun _ root hs ho => ?_⟩
    obtain rfl := List.suffix_nil.mp hs
    obtain ⟨_, hnamed⟩ := ho.named
    exact absurd hnamed nofun
  | c :: rest => by
    obtain ⟨hsome, hnone⟩ := fromRoot?_spec rest
    unfold fromRoot?
    split
    case isTrue hstart =>
      refine ⟨fun root h => ?_, nofun⟩
      obtain rfl := Option.some.inj h
      exact .refl (startsRoot_iff.mp hstart)
    case isFalse hstart =>
      have hclosed : ¬ OpensRoot (c :: rest) := fun h => hstart (startsRoot_iff.mpr h)
      constructor
      · intro root h
        have hfirst := hsome root h
        refine ⟨hfirst.suffix.trans (List.suffix_cons c rest), hfirst.opens, ?_⟩
        intro other hs ho
        rcases List.suffix_cons_iff.mp hs with rfl | hs
        · exact absurd ho hclosed
        · exact hfirst.first other hs ho
      · intro h root hs ho
        rcases List.suffix_cons_iff.mp hs with rfl | hs
        · exact hclosed ho
        · exact hnone h root hs ho

theorem withoutPreamble_search (cs : List Char) :
    WithoutPreamble cs ((fromRoot? cs).getD cs) := by
  obtain ⟨hsome, hnone⟩ := fromRoot?_spec cs
  cases h : fromRoot? cs with
  | none => exact .inr ⟨hnone h, rfl⟩
  | some root => exact .inl (hsome root h)

theorem dropPreamble_named (h : rootStart <+: cs) : dropPreamble cs = cs :=
  if_pos (List.isPrefixOf_iff_prefix.mpr h)

theorem dropPreamble_unnamed (h : ¬ rootStart <+: cs) :
    dropPreamble cs = (fromRoot? cs).getD cs :=
  if_neg fun hp => h (List.isPrefixOf_iff_prefix.mp hp)

theorem withoutPreamble_iff (cs : List Char) :
    WithoutPreamble cs (dropPreamble cs) ↔ ¬ Shadowed cs := by
  by_cases hnamed : rootStart <+: cs
  · rw [dropPreamble_named hnamed]
    constructor
    · rintro (hfirst | ⟨hno, _⟩) ⟨_, hclosed, hroot⟩
      · exact hclosed hfirst.opens
      · exact hroot hno
    · intro hplain
      by_cases hopens : OpensRoot cs
      · exact .inl (.refl hopens)
      · by_cases hno : NoRoot cs
        · exact .inr ⟨hno, rfl⟩
        · exact absurd ⟨hnamed, hopens, hno⟩ hplain
  · rw [dropPreamble_unnamed hnamed]
    exact iff_of_true (withoutPreamble_search cs) fun hshadowed => hnamed hshadowed.1

/-- What is left begins with a root element, or there was nothing to drop. -/
theorem dropPreamble_dropPreamble (cs : List Char) :
    dropPreamble (dropPreamble cs) = dropPreamble cs := by
  by_cases hnamed : rootStart <+: cs
  · rw [dropPreamble_named hnamed, dropPreamble_named hnamed]
  · rcases withoutPreamble_search cs with hfirst | ⟨_, hsame⟩
    · rw [dropPreamble_unnamed hnamed]
      exact dropPreamble_named hfirst.opens.named
    · rw [dropPreamble_unnamed hnamed, hsame, dropPreamble_unnamed hnamed, hsame]

theorem resize_unsized (svg : String) :
    resize svg none none = String.ofList (dropPreamble svg.toList) := rfl

/-- Without dimensions, an SVG file is inserted from its first root element on, or whole if it has
none, unless it begins with a longer name and has a root element further on: then it is inserted
whole too. In any case nothing more is dropped a second time. -/
theorem resize_preamble (svg : String) :
    (WithoutPreamble svg.toList (resize svg none none).toList ↔ ¬ Shadowed svg.toList) ∧
    (Shadowed svg.toList → resize svg none none = svg) ∧
    resize (resize svg none none) none none = resize svg none none := by
  have hchars : (resize svg none none).toList = dropPreamble svg.toList := by
    rw [resize_unsized, String.toList_ofList]
  refine ⟨?_, ?_, ?_⟩
  · rw [hchars]
    exact withoutPreamble_iff svg.toList
  · rintro ⟨hnamed, _⟩
    rw [resize_unsized, dropPreamble_named hnamed, String.ofList_toList]
  · rw [resize_unsized (resize svg none none), hchars, dropPreamble_dropPreamble, resize_unsized]

/-- A file that begins with an element of a longer name keeps it, ahead of its root element. -/
theorem resize_longerName :
    let svg := "<svgfoo/><svg>x</svg>"
    resize svg none none = svg ∧ FirstRoot svg.toList "<svg>x</svg>".toList ∧
      ¬ WithoutPreamble svg.toList (resize svg none none).toList := by
  have hfound : fromRoot? "<svgfoo/><svg>x</svg>".toList = some "<svg>x</svg>".toList := by decide
  have hfirst := (fromRoot?_spec _).1 _ hfound
  refine ⟨by decide, hfirst, ?_⟩
  rintro (hother | ⟨hno, _⟩)
  · exact absurd (hother.eq hfirst) (by decide)
  · exact hfirst.not_noRoot hno

end DocPress.Svg
