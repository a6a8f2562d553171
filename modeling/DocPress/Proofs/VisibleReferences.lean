import DocPress.Proofs.VisibleWords

/-! References that show nothing. A reference shows the words of its target, or its id in brackets
if these are blank; but words that are anchors and nothing else are not blank, and nothing is left
of them. Of what a target offers, only a title alone and a number with its sign can be lost in this
way. -/

namespace DocPress

set_option autoImplicit false

/-! ### What is left of words -/

theorem dropAnchors_eq_nil {cs : List Char} :
    dropAnchors cs = [] ↔ cs = [] ∨ ("<a".toList <:+: cs ∧ dropAnchorTags 0 cs = []) := by
  rw [dropAnchors, ← Text.occursIn_iff]
  cases hopen : Text.occursIn "<a".toList cs with
  | false => simp
  | true =>
    have hsome : cs ≠ [] := by
      rintro rfl
      exact absurd hopen (by decide)
    simp [hsome]

/-- No tag ends in a stretch without ends of tags. -/
theorem anchorTagLength?_ahead {a tail : List Char} (hend : '>' ∉ tail) {n : Nat}
    (h : anchorTagLength? (a ++ tail) = some n) : 0 < n ∧ n ≤ a.length := by
  obtain ⟨inner, rest, hsplit, hn⟩ := anchorTagLength?_end h
  rcases List.append_eq_append_iff.mp hsplit with ⟨c, -, htail⟩ | ⟨c, ha, hrest⟩
  · exact absurd (htail ▸ List.mem_append_right c List.mem_cons_self) hend
  · cases c with
    | nil =>
      rw [List.nil_append] at hrest
      exact absurd (hrest ▸ List.mem_cons_self) hend
    | cons x xs =>
      rw [ha, List.length_append, List.length_cons]
      omega

/-- A stretch behind the last end of a tag is not passed over. -/
theorem dropAnchorTags_tail {tail : List Char} (hne : tail ≠ []) (hend : '>' ∉ tail)
    (cs : List Char) {k : Nat} (hk : k ≤ cs.length) : dropAnchorTags k (cs ++ tail) ≠ [] := by
  induction cs generalizing k with
  | nil =>
    obtain rfl : k = 0 := Nat.le_zero.mp hk
    cases tail with
    | nil => exact absurd rfl hne
    | cons c cs =>
      cases htag : anchorTagLength? ([] ++ c :: cs) with
      | none =>
        rw [List.nil_append] at htag ⊢
        rw [dropAnchorTags_keep htag]
        exact List.cons_ne_nil _ _
      | some n =>
        have hn := anchorTagLength?_ahead hend htag
        exact absurd hn.2 (Nat.not_le.mpr hn.1)
  | cons c cs ih =>
    cases k with
    | succ k => exact ih (Nat.le_of_succ_le_succ hk)
    | zero =>
      rw [List.cons_append, dropAnchorTags]
      cases htag : anchorTagLength? (c :: (cs ++ tail)) with
      | none => exact List.cons_ne_nil _ _
      | some n =>
        have hn := anchorTagLength?_ahead (a := c :: cs) hend htag
        exact ih (Nat.sub_le_of_le_add hn.2)

namespace Markup

variable {m : Markup} {b : Bool}

theorem isBlank_iff : m.isBlank = true ↔ m.chars = [] := List.isEmpty_iff

/-- Whether something is left of markup without its anchors if anything is written at all. -/
def Stays (m : Markup) : Prop := dropAnchors m.chars = [] → m.isBlank = true

theorem stays_of_drop (h : dropAnchorTags 0 m.chars ≠ []) : m.Stays := by
  intro hgone
  rcases dropAnchors_eq_nil.mp hgone with hblank | ⟨-, hdrop⟩
  · exact isBlank_iff.mpr hblank
  · exact absurd hdrop h

theorem stays_of_weighed (h : Weighed m false) : m.Stays :=
  stays_of_drop fun hdrop => absurd (h.gone.mp hdrop) nofun

/-- Markup with something written in it is lost exactly if it holds nothing but anchors. -/
theorem lost_iff (h : Weighed m b) (hm : m.isBlank = false) :
    dropAnchors m.chars = [] ↔ b = true := by
  have hsome : m.chars ≠ [] := fun hnil => absurd (isBlank_iff.mpr hnil) (by simp [hm])
  rw [dropAnchors_eq_nil, or_iff_right hsome, h.gone, and_iff_right_iff_imp]
  exact fun hb => ((h.opens hb).resolve_left hsome).isInfix

end Markup

/-! ### Words of targets -/

namespace Reference

/-- The number that is shown for a target, if it is a section. -/
def number? (t : RefTarget) : Option String := if t.numbered then t.sectnum else none

/-- Whether a style asks for more than the title. -/
def isDetailed (style : Option String) : Bool := style == some "full" || style == some "short"

theorem isDetailed_eq_false {style : Option String} (hfull : style ≠ some "full")
    (hshort : style ≠ some "short") : isDetailed style = false := by
  rw [isDetailed, beq_eq_false_iff_ne.mpr hfull, beq_eq_false_iff_ne.mpr hshort]
  rfl

/-- Whether the words for a target with a title are this title and nothing else. -/
def titleAlone (t : RefTarget) (style : Option String) : Bool :=
  if t.kind = .section then
    style.isNone || (!isEmphasized (t.sectname.getD "section") &&
      ((number? t).isNone || !isDetailed style))
  else (t.caption.filter (· ≠ "")).isNone || !isDetailed style

/-- The number in the words for a target if these are the number and its sign. -/
def numberAlone? (t : RefTarget) (style : Option String) : Option String :=
  if t.kind = .section ∧ style = some "short" then number? t else none

/-- The number of a target behind its sign. -/
def signedNumber (s : Scene) (t : RefTarget) (num : String) : Markup :=
  signed s (t.sectname.getD "section") num

variable {s : Scene} {t : RefTarget} {style : Option String} {title words : Markup} {b : Bool}

theorem stays_of_emphasized (front : Markup) (h : Weighed title b) :
    Markup.Stays (front ++ [.element .em [] title]) :=
  Markup.stays_of_weighed (.behind front (by decide) [] h)

theorem stays_of_quoted (front : Markup) : Markup.Stays (front ++ [.charRef 8221]) := by
  have hne : charsOf [.charRef 8221] ≠ [] := nofun
  have hend : '>' ∉ charsOf [.charRef 8221] := by decide
  apply Markup.stays_of_drop
  rw [Markup.chars, charsOf_append]
  exact dropAnchorTags_tail hne hend (charsOf front) (Nat.zero_le _)

theorem stays_of_text (x : String) : Markup.Stays [.text x] := by
  have h := Weighed.text x
  cases hx : x == "" with
  | true =>
    obtain rfl := beq_iff_eq.mp hx
    exact fun _ => rfl
  | false =>
    rw [hx] at h
    exact Markup.stays_of_weighed h

theorem fullWords_stays (num : Markup) (sectname : String) (h : Weighed title b) :
    Markup.Stays (num ++ .text ", " :: quotedTitle sectname title) := by
  unfold quotedTitle
  split
  · have hfront := stays_of_emphasized (num ++ [.text ", "]) h
    rwa [List.append_assoc] at hfront
  · have hfront := stays_of_quoted (num ++ .text ", " :: .charRef 8220 :: title)
    rwa [List.append_assoc] at hfront

/-- The words for a section are its title alone, its number alone, or not lost. -/
theorem sectionWords_cases {title : Option Markup} (hkind : t.kind = .section)
    (htitle : ∀ m ∈ title, ∃ b, Weighed m b) (h : sectionWords s t style title = some words) :
    (titleAlone t style = true ∧ title = some words) ∨
      (∃ num, numberAlone? t style = some num ∧ words = signedNumber s t num) ∨ words.Stays := by
  have hbasic (sectname : String) (hw : title.map (basic sectname) = some words) :
      (isEmphasized sectname = false ∧ title = some words) ∨ words.Stays := by
    obtain ⟨m, hm, rfl⟩ := Option.map_eq_some_iff.mp hw
    rw [basic]
    cases hemphasized : isEmphasized sectname with
    | false => exact .inl ⟨rfl, hm⟩
    | true =>
      obtain ⟨b, hb⟩ := htitle m hm
      exact .inr (stays_of_emphasized [] hb)
  have hfull (sectname num : String) : Markup.Stays
      (signed s sectname num ++ .text ", " :: quotedTitle sectname (title.getD [])) := by
    cases title with
    | none => exact fullWords_stays _ _ .nil
    | some m =>
      obtain ⟨b, hb⟩ := htitle m rfl
      exact fullWords_stays _ _ hb
  have hnumber : (if t.numbered then t.sectnum else none) = number? t := rfl
  simp only [sectionWords, hnumber] at h
  split at h
  case h_1 => exact .inl ⟨by simp [titleAlone, hkind], h⟩
  case h_2 hnone =>
    refine (hbasic _ h).imp (fun hw => ⟨?_, hw.2⟩) .inr
    simp [titleAlone, hkind, hw.1, hnone]
  case h_3 =>
    obtain rfl := Option.some.inj h
    exact .inr (.inr (hfull _ _))
  case h_4 num hnum =>
    obtain rfl := Option.some.inj h
    exact .inr (.inl ⟨num, by simp [numberAlone?, hkind, hnum], rfl⟩)
  case h_5 hf hs _ =>
    refine (hbasic _ h).imp (fun hw => ⟨?_, hw.2⟩) .inr
    have hplain := isDetailed_eq_false (fun hx => hf (Option.some.inj hx))
      fun hx => hs (Option.some.inj hx)
    simp [titleAlone, hkind, hw.1, hplain]

/-- The words for any other target are its title alone or not lost. -/
theorem captionWords_cases {title : Option Markup} (hkind : t.kind ≠ .section)
    (htitle : ∀ m ∈ title, ∃ b, Weighed m b) (h : captionWords t style title = some words) :
    (titleAlone t style = true ∧ title = some words) ∨ words.Stays := by
  unfold captionWords at h
  split at h
  case h_1 m _ =>
    obtain rfl := Option.some.inj h
    exact .inr (stays_of_quoted (_ :: .charRef 8220 :: m))
  case h_2 =>
    obtain rfl := Option.some.inj h
    exact .inr (stays_of_text _)
  case h_3 hfull hshort =>
    refine .inl ⟨?_, h⟩
    rw [titleAlone, if_neg hkind]
    cases hcaption : t.caption.filter (· ≠ "") with
    | none => rfl
    | some caption =>
      rw [isDetailed_eq_false (fun hstyle => hfull caption words hstyle hcaption h)
        fun hstyle => hshort caption words hstyle hcaption h]
      rfl

theorem sectionWords_alone (hkind : t.kind = .section) (h : titleAlone t style = true)
    (title : Option Markup) : sectionWords s t style title = title := by
  have hnumber : (if t.numbered then t.sectnum else none) = number? t := rfl
  simp only [titleAlone, hkind, if_true, Bool.or_eq_true, Bool.and_eq_true, Bool.not_eq_true',
    Option.isNone_iff_eq_none] at h
  simp only [sectionWords, hnumber]
  rcases h with rfl | ⟨hemphasized, hplain⟩
  · rfl
  · have hbasic : title.map (basic (t.sectname.getD "section")) = title := by
      have hid : basic (t.sectname.getD "section") = id := by
        funext m
        exact if_neg (by rw [hemphasized]; decide)
      rw [hid, Option.map_id]
      rfl
    split
    case h_1 => rfl
    case h_2 => exact hbasic
    case h_3 hnum => exact absurd (hplain.resolve_left (by simp [hnum])) (by decide)
    case h_4 hnum => exact absurd (hplain.resolve_left (by simp [hnum])) (by decide)
    case h_5 => exact hbasic

theorem captionWords_alone (hkind : t.kind ≠ .section) (h : titleAlone t style = true)
    (title : Option Markup) : captionWords t style title = title := by
  simp only [titleAlone, hkind, if_false, Bool.or_eq_true, Bool.not_eq_true',
    Option.isNone_iff_eq_none] at h
  unfold captionWords
  split
  case h_1 hcaption =>
    exact absurd (h.resolve_left (by rw [hcaption]; exact Option.some_ne_none _)) (by decide)
  case h_2 hcaption =>
    exact absurd (h.resolve_left (by rw [hcaption]; exact Option.some_ne_none _)) (by decide)
  case h_3 => rfl

/-- What a target offers if it has no reference text. -/
theorem offered_untold (h : t.reftext.filter (· ≠ "") = none) :
    (offered s t style).value =
      if t.kind = .section then
        sectionWords s t style (t.title.map fun ns => (borrowed s ns).value)
      else captionWords t style (t.title.map fun ns => (borrowed s ns).value) := by
  rw [offered, h]
  cases t.title with
  | none => rfl
  | some ns => rfl

/-- A reference text is shown as it is. -/
theorem offered_told {reftext : String} (h : t.reftext.filter (· ≠ "") = some reftext) :
    (offered s t style).value = some [.text reftext] := by
  rw [offered, h]
  rfl

theorem offered_title {ns : Inlines} (htext : t.reftext.filter (· ≠ "") = none)
    (htitle : t.title = some ns) (halone : titleAlone t style = true) :
    (offered s t style).value = some (borrowed s ns).value := by
  rw [offered_untold htext, htitle, Option.map_some]
  split
  case isTrue hkind => exact sectionWords_alone hkind halone _
  case isFalse hkind => exact captionWords_alone hkind halone _

theorem offered_number {num : String} (htext : t.reftext.filter (· ≠ "") = none)
    (hnum : numberAlone? t style = some num) :
    (offered s t style).value = some (signedNumber s t num) := by
  unfold numberAlone? at hnum
  split at hnum
  case isTrue h =>
    have hnumber : (if t.numbered then t.sectnum else none) = some num := hnum
    rw [offered_untold htext, if_pos h.1]
    simp only [sectionWords, h.2, hnumber]
    rfl
  case isFalse => exact absurd hnum.symm (Option.some_ne_none num)

/-- What a target offers is its title alone, its number alone, or not lost. -/
theorem offered_cases (h : (offered s t style).value = some words) :
    words.Stays ∨ t.reftext.filter (· ≠ "") = none ∧
      ((∃ ns, t.title = some ns ∧ titleAlone t style = true ∧ words = (borrowed s ns).value) ∨
        ∃ num, numberAlone? t style = some num ∧ words = signedNumber s t num) := by
  cases htext : t.reftext.filter (· ≠ "") with
  | some reftext =>
    rw [offered_told htext] at h
    obtain rfl := Option.some.inj h
    exact .inl (stays_of_text reftext)
  | none =>
    have htitle : ∀ m ∈ t.title.map fun ns => (borrowed s ns).value, ∃ b, Weighed m b := by
      intro m hm
      obtain ⟨ns, -, rfl⟩ := Option.map_eq_some_iff.mp hm
      exact ⟨_, inlines_weighed s ns⟩
    have hborrowed (hw : (t.title.map fun ns => (borrowed s ns).value) = some words) :
        ∃ ns, t.title = some ns ∧ words = (borrowed s ns).value := by
      obtain ⟨ns, hns, rfl⟩ := Option.map_eq_some_iff.mp hw
      exact ⟨ns, hns, rfl⟩
    rw [offered_untold htext] at h
    split at h
    case isTrue hkind =>
      rcases sectionWords_cases hkind htitle h with ⟨halone, hw⟩ | hnum | hstays
      · obtain ⟨ns, hns, hw⟩ := hborrowed hw
        exact .inr ⟨rfl, .inl ⟨ns, hns, halone, hw⟩⟩
      · exact .inr ⟨rfl, .inr hnum⟩
      · exact .inl hstays
    case isFalse hkind =>
      rcases captionWords_cases hkind htitle h with ⟨halone, hw⟩ | hstays
      · obtain ⟨ns, hns, hw⟩ := hborrowed hw
        exact .inr ⟨rfl, .inl ⟨ns, hns, halone, hw⟩⟩
      · exact .inl hstays

/-! ### References -/

/-- How the words for a target without a reference text are lost: its title is shown alone and is
anchors, or its number is shown alone and is written as anchors, by itself or with its sign. -/
inductive LosesWords (s : Scene) (t : RefTarget) (style : Option String) : Prop where
  | title {ns : Inlines} (htitle : t.title = some ns) (halone : titleAlone t style = true)
      (hanchors : Node.isAnchorsOnlyAll ns = true)
      (hwritten : (borrowed s ns).value.isBlank = false)
  | number {num : String} (hnum : numberAlone? t style = some num)
      (hwritten : (signedNumber s t num).isBlank = false)
      (hgone : dropAnchors (signedNumber s t num).chars = [])

theorem offered_lost_iff :
    (∃ words, (offered s t style).value = some words ∧ words.isBlank = false ∧
      dropAnchors words.chars = []) ↔
      t.reftext.filter (· ≠ "") = none ∧ LosesWords s t style := by
  constructor
  · rintro ⟨words, hoffered, hwritten, hgone⟩
    rcases offered_cases hoffered with hstays | ⟨htext, ⟨ns, htitle, halone, rfl⟩ |
      ⟨num, hnum, rfl⟩⟩
    · exact absurd (hstays hgone) (by simp [hwritten])
    · have hanchors := (Markup.lost_iff (inlines_weighed s ns) hwritten).mp hgone
      exact ⟨htext, .title htitle halone hanchors hwritten⟩
    · exact ⟨htext, .number hnum hwritten hgone⟩
  · rintro ⟨htext, hlost⟩
    cases hlost with
    | title htitle halone hanchors hwritten =>
      have hgone := (Markup.lost_iff (inlines_weighed s _) hwritten).mpr hanchors
      exact ⟨_, offered_title htext htitle halone, hwritten, hgone⟩
    | number hnum hwritten hgone => exact ⟨_, offered_number htext hnum, hwritten, hgone⟩

theorem bracketed_written (s : Scene) (id : String) : (bracketed s id).chars ≠ [] := by
  rw [bracketed_eq]
  intro hnil
  have hgone := (bracketedText_weighed s id).gone
  rw [hnil] at hgone
  exact absurd (hgone.mp rfl) nofun

theorem render_bracketed (s : Scene) (id : String) : (bracketed s id).render =
    if id = "" ∧ s.doc.catalog.ref? id = none then "[^top]"
    else Text.escapeText ("[" ++ id ++ "]") := by
  have htop : (id.isEmpty && (s.doc.catalog.ref? id).isNone) = true ↔
      id = "" ∧ s.doc.catalog.ref? id = none := by simp
  rw [bracketed]
  by_cases h : id = "" ∧ s.doc.catalog.ref? id = none
  · rw [if_pos (htop.mpr h), if_pos h]
    decide
  · rw [if_neg fun hb => h (htop.mp hb), if_neg h]
    exact congrArg String.ofList (List.append_nil _)

/-- The words that are made for an id, if there is anything to make them of. -/
def made? (s : Scene) (style : Option String) (id : String) : Option Markup :=
  (target? s id).bind fun t => (offered s t style).value

theorem wordsFor_value (s : Scene) (style : Option String) (id : String) :
    (wordsFor s style id).value =
      match made? s style id with
      | some words => if words.isBlank then bracketed s id else words.withoutAnchors
      | none => bracketed s id := by
  rw [wordsFor, made?]
  cases target? s id with
  | none => rfl
  | some t =>
    rw [Rendered.value_bind, Option.bind_some]
    cases (offered s t style).value with
    | none => rfl
    | some words => rfl

theorem wordsFor_bracketed {id : String} (h : (made? s style id).all Markup.isBlank = true) :
    (wordsFor s style id).value = bracketed s id := by
  rw [wordsFor_value]
  cases hmade : made? s style id with
  | none => rfl
  | some words =>
    rw [hmade] at h
    exact if_pos h

theorem wordsFor_made {id : String} (hmade : made? s style id = some words)
    (hwritten : words.isBlank = false) :
    (wordsFor s style id).value = words.withoutAnchors := by
  rw [wordsFor_value, hmade]
  exact if_neg (by simp [hwritten])

/-- A reference shows nothing exactly if its target loses its words. -/
theorem wordsFor_lost_iff {id : String} : (wordsFor s style id).value.chars = [] ↔
    ∃ t, target? s id = some t ∧ t.reftext.filter (· ≠ "") = none ∧ LosesWords s t style := by
  simp only [← offered_lost_iff]
  constructor
  · intro hnil
    have hshown : (made? s style id).all Markup.isBlank ≠ true := by
      intro hblank
      rw [wordsFor_bracketed hblank] at hnil
      exact bracketed_written s id hnil
    cases hmade : made? s style id with
    | none => exact absurd (by rw [hmade]; rfl) hshown
    | some words =>
      rw [hmade, Option.all_some, ne_eq, Bool.not_eq_true] at hshown
      obtain ⟨t, htarget, hoffered⟩ := Option.bind_eq_some_iff.mp hmade
      rw [wordsFor_made hmade hshown, withoutAnchors_chars] at hnil
      exact ⟨t, htarget, words, hoffered, hshown, hnil⟩
  · rintro ⟨t, htarget, words, hoffered, hwritten, hgone⟩
    have hmade : made? s style id = some words := Option.bind_eq_some_iff.mpr ⟨t, htarget, hoffered⟩
    rw [wordsFor_made hmade hwritten, withoutAnchors_chars]
    exact hgone

end Reference

/-- A section with an id and a title. -/
def titledSection (title : Inlines) : Document :=
  let part : Node :=
    { Node.leaf { kind := .section, id := some "s", level := 1 } with title := some title }
  { Document.blank with root := { Node.ofKind .document with blocks := [part] } }

namespace Converter

open Reference

/-- A reference shows nothing exactly if its target has no reference text and loses its words. Where
no words are made for the id, or blank ones, it shows the id in brackets. -/
theorem resolve_visible (c : Converter) (d : Document) (id : String) :
    let s := c.scene d
    let style := s.attr? "xrefstyle"
    (c.resolve d id none = "" ↔
      ∃ t, target? s id = some t ∧ t.reftext.filter (· ≠ "") = none ∧ LosesWords s t style) ∧
    ((made? s style id).all Markup.isBlank = true →
      c.resolve d id none =
        if id = "" ∧ d.catalog.ref? id = none then "[^top]"
        else Text.escapeText ("[" ++ id ++ "]")) := by
  intro s style
  have hresolve : c.resolve d id none = (wordsFor s style id).value.render := rfl
  constructor
  · rw [hresolve, ← wordsFor_lost_iff, Markup.render, String.ofList_eq_empty_iff]
  · intro hblank
    exact (congrArg Markup.render (wordsFor_bracketed hblank)).trans (render_bracketed s id)

/-- A title that is a hidden index term is blank, so the id is shown in its place. -/
theorem resolve_hiddenTitle :
    let c : Converter := ⟨.initial, none, .blank⟩
    let d := (titledSection [.ofKind .inlineIndexterm]).prepareWith ∅
    made? (c.scene d) ((c.scene d).attr? "xrefstyle") "s" = some [] ∧
      c.resolve d "s" none = "[s]" := by
  intro c d
  have hmade : made? (c.scene d) ((c.scene d).attr? "xrefstyle") "s" = some [] := rfl
  exact ⟨hmade, (c.resolve_visible d "s").2 (by rw [hmade]; rfl)⟩

/-- A title that is a bare anchor is not blank, but nothing is left of it. -/
theorem resolve_bareAnchor :
    let c : Converter := ⟨.initial, none, .blank⟩
    let anchor : Node := .leaf { kind := .inlineAnchor, variant := some "ref", id := some "a" }
    c.resolve ((titledSection [anchor]).prepareWith ∅) "s" none = "" := by
  decide

end Converter

end DocPress
