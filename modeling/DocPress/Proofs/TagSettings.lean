import DocPress.Highlighter.CodeTags

/-! Code tags as a record of what was set: a name has the place where it was first set and the value
that was set last. The tags that are written around a listing hold each name once. -/

namespace DocPress

set_option autoImplicit false

/-- The value that a name was given last. -/
def lastSet? (settings : List (String × String)) (name : String) : Option String :=
  settings.reverse.lookup name

/-- What a list of values comes to when they are set one after the other: the names in the order in
which they were first set, each with the value that was set last. -/
structure AttrList.Collects (list : AttrList) (settings : List (String × String)) : Prop where
  names : list.map Prod.fst = (settings.map Prod.fst).eraseDups
  distinct : (list.map Prod.fst).Nodup
  values : ∀ e ∈ list, lastSet? settings e.1 = some e.2

theorem eraseDups_concat (names : List String) (name : String) :
    (names ++ [name]).eraseDups =
      if name ∈ names then names.eraseDups else names.eraseDups ++ [name] := by
  rw [List.eraseDups_append]
  split
  · rename_i h
    simp [List.removeAll, h]
  · rename_i h
    simp [List.removeAll, h, List.eraseDups_cons]

theorem lastSet?_concat (settings : List (String × String)) (name value other : String) :
    lastSet? (settings ++ [(name, value)]) other =
      if other = name then some value else lastSet? settings other := by
  simp only [lastSet?, List.reverse_append, List.reverse_singleton, List.singleton_append,
    List.lookup_cons]
  by_cases h : other = name
  · simp [h]
  · rw [beq_false_of_ne h, if_neg h]

namespace AttrList

variable {list : AttrList} {name value : String}

/-- Setting a value adds the name at the end, unless it is there. -/
theorem names_set (list : AttrList) (name value : String) :
    (list.set name value).map Prod.fst =
      if name ∈ list.map Prod.fst then list.map Prod.fst else list.map Prod.fst ++ [name] := by
  induction list with
  | nil => simp [AttrList.set]
  | cons e rest ih =>
    simp only [AttrList.set]
    by_cases h : e.1 = name
    · simp [h]
    · rw [if_neg h, List.map_cons, ih]
      by_cases hmem : name ∈ rest.map Prod.fst
      · simp [hmem]
      · have hnot : name ∉ (e :: rest).map Prod.fst := by
          rw [List.map_cons, List.mem_cons, not_or]
          exact ⟨Ne.symm h, hmem⟩
        rw [if_neg hmem, if_neg hnot]
        rfl

/-- Setting a value changes the entry of its name, and no other entry. -/
theorem mem_set (h : (list.map Prod.fst).Nodup) {e : String × String}
    (he : e ∈ list.set name value) : e = (name, value) ∨ e.1 ≠ name ∧ e ∈ list := by
  induction list with
  | nil => exact .inl (List.mem_singleton.1 he)
  | cons first rest ih =>
    obtain ⟨hfirst, hrest⟩ := List.nodup_cons.1 h
    simp only [AttrList.set] at he
    by_cases hname : first.1 = name
    · rw [if_pos hname] at he
      rcases List.mem_cons.1 he with rfl | he
      · exact .inl (by rw [hname])
      · refine .inr ⟨fun heq => hfirst ?_, List.mem_cons_of_mem _ he⟩
        rw [hname, ← heq]
        exact List.mem_map_of_mem he
    · rw [if_neg hname] at he
      rcases List.mem_cons.1 he with rfl | he
      · exact .inr ⟨hname, List.mem_cons_self⟩
      · exact (ih hrest he).imp_right (And.imp_right (List.mem_cons_of_mem _))

namespace Collects

theorem nil : Collects [] [] := ⟨rfl, .nil, nofun⟩

theorem single (name value : String) : Collects [(name, value)] [(name, value)] where
  names := rfl
  distinct := by simp
  values := by simp [lastSet?]

/-- Setting one value more keeps a list the record of what was set. -/
theorem set {settings : List (String × String)} (h : Collects list settings)
    (name value : String) :
    Collects (list.set name value) (settings ++ [(name, value)]) where
  names := by
    have hmem : name ∈ list.map Prod.fst ↔ name ∈ settings.map Prod.fst := by
      rw [h.names, List.mem_eraseDups]
    rw [names_set, List.map_append, List.map_singleton, eraseDups_concat, ← h.names]
    simp only [hmem]
  distinct := by
    rw [names_set]
    split
    · exact h.distinct
    · rename_i hnew
      refine List.nodup_append.2 ⟨h.distinct, by simp, fun a ha b hb hab => hnew ?_⟩
      rwa [← List.mem_singleton.1 hb, ← hab]
  values e he := by
    rw [lastSet?_concat]
    rcases mem_set h.distinct he with rfl | ⟨hname, he⟩
    · exact if_pos rfl
    · rw [if_neg hname]
      exact h.values e he

end Collects

end AttrList

namespace CodeTags

/-- A value that is set on one of the two tags. -/
inductive Setting where
  | pre (name value : String)
  | code (name value : String)
  deriving DecidableEq, Repr

namespace Setting

def onPre? : Setting → Option (String × String)
  | .pre name value => some (name, value)
  | .code _ _ => none

def onCode? : Setting → Option (String × String)
  | .pre _ _ => none
  | .code name value => some (name, value)

end Setting

def apply (tags : CodeTags) : Setting → CodeTags
  | .pre name value => tags.setPre name value
  | .code name value => tags.setCode name value

/-- The tags after values are set one after the other. -/
def applyAll (tags : CodeTags) (settings : List Setting) : CodeTags := settings.foldl apply tags

/-- Whether both lists of the tags are the records of what was set on them. -/
structure Collects (tags : CodeTags) (pre code : List (String × String)) : Prop where
  pre : tags.pre.Collects pre
  code : tags.code.Collects code

theorem collects_new (preClass : String) (lang : Option String) (nowrap : Bool) :
    (new preClass lang nowrap).Collects
      [("class", preClass ++ " highlight" ++ if nowrap then " nowrap" else "")]
      (lang.map fun lang => ("data-lang", lang)).toList := by
  cases lang with
  | none => exact ⟨.single _ _, .nil⟩
  | some lang => exact ⟨.single _ _, .single _ _⟩

theorem Collects.apply {tags : CodeTags} {pre code : List (String × String)}
    (h : tags.Collects pre code) (s : Setting) :
    (tags.apply s).Collects (pre ++ s.onPre?.toList) (code ++ s.onCode?.toList) := by
  cases s with
  | pre name value =>
    refine ⟨h.pre.set name value, ?_⟩
    exact (List.append_nil code).symm ▸ h.code
  | code name value =>
    refine ⟨?_, h.code.set name value⟩
    exact (List.append_nil pre).symm ▸ h.pre

theorem Collects.applyAll {tags : CodeTags} {pre code : List (String × String)}
    (h : tags.Collects pre code) (settings : List Setting) :
    (tags.applyAll settings).Collects (pre ++ settings.filterMap Setting.onPre?)
      (code ++ settings.filterMap Setting.onCode?) := by
  induction settings generalizing tags pre code with
  | nil =>
    rw [List.filterMap_nil, List.filterMap_nil, List.append_nil, List.append_nil]
    exact h
  | cons s rest ih =>
    have hcons (f : Setting → Option (String × String)) :
        (s :: rest).filterMap f = (f s).toList ++ rest.filterMap f := by
      rw [List.filterMap_cons]
      cases f s <;> rfl
    have hrest := ih (h.apply s)
    rwa [List.append_assoc, List.append_assoc, ← hcons, ← hcons] at hrest

/-! ### What is written -/

/-- Attributes as they are written, in the order of the list. -/
def written (list : AttrList) : String :=
  String.join (list.map fun e => " " ++ e.1 ++ "=\"" ++ Text.escapeAttribute e.2 ++ "\"")

theorem langLast_split (code : AttrList) : langLast code =
    code.eraseP (·.1 == langName) ++ (code.find? (·.1 == langName)).toList := by
  unfold langLast
  cases h : code.find? (·.1 == langName) with
  | some e => rfl
  | none =>
    have hnone : ∀ e ∈ code, ¬ (e.1 == langName) = true := List.find?_eq_none.1 h
    rw [List.eraseP_of_forall_not hnone]
    exact (List.append_nil code).symm

/-- The list with the language behind everything else. -/
theorem langLast_eq {code : AttrList} (h : (code.map Prod.fst).Nodup) :
    langLast code = code.filter (·.1 != langName) ++ code.filter (·.1 == langName) := by
  rw [langLast_split]
  induction code with
  | nil => rfl
  | cons e rest ih =>
    obtain ⟨hfirst, hrest⟩ := List.nodup_cons.1 h
    by_cases he : e.1 = langName
    · have hother : ∀ f ∈ rest, f.1 ≠ langName := fun f hf hname => by
        rw [he, ← hname] at hfirst
        exact hfirst (List.mem_map_of_mem hf)
      have hkept : rest.filter (·.1 != langName) = rest :=
        List.filter_eq_self.2 fun f hf => bne_iff_ne.2 (hother f hf)
      have hgone : rest.filter (·.1 == langName) = [] :=
        List.filter_eq_nil_iff.2 fun f hf hname => hother f hf (beq_iff_eq.1 hname)
      simp [he, hkept, hgone]
    · have hskip : (e.1 == langName) = false := beq_false_of_ne he
      simp only [List.eraseP_cons, List.find?_cons, List.filter_cons, hskip, bne, Bool.not_false,
        if_true, cond_false, Bool.false_eq_true, if_false, List.cons_append] at ih ⊢
      rw [ih hrest]

theorem attrChars_attrsOf (list : AttrList) :
    attrChars (attrsOf list) = (written list).toList := by
  induction list with
  | nil => rfl
  | cons e rest ih =>
    have hfirst : (attr (.custom e.1) e.2).chars =
        (" " ++ e.1 ++ "=\"" ++ Text.escapeAttribute e.2 ++ "\"").toList := by
      simp [attr, Attr.chars, AttrName.spelling, Piece.chars, Text.escapeAttribute]
    rw [written] at ih ⊢
    rw [List.map_cons, String.join_cons, String.toList_append, ← ih, ← hfirst]
    rfl

/-- Tags are written around the content as it is, with the attributes of both lists in order, but
for the language behind everything else. -/
theorem render_wrap {tags : CodeTags} (h : (tags.code.map Prod.fst).Nodup) (content : Markup) :
    Markup.render (tags.wrap content) =
      "<pre" ++ written tags.pre ++ "><code" ++
        written (tags.code.filter (·.1 != langName) ++ tags.code.filter (·.1 == langName)) ++ ">" ++
        content.render ++ "</code></pre>" := by
  rw [← langLast_eq h, ← String.toList_inj]
  simp [wrap, Markup.render, Markup.chars, charsOf, Html.chars_element, attrChars_attrsOf, Tag.name]

/-- However values are set on new tags, each list holds every name once, where it was first set and
with the value that was set last; and the tags are written around the content as it is, with every
attribute of the lists once and escaped, in their order but for the language, which comes last. -/
theorem new_applyAll (preClass : String) (lang : Option String) (nowrap : Bool)
    (settings : List Setting) (content : Markup) :
    let tags := (new preClass lang nowrap).applyAll settings
    tags.pre.Collects
        (("class", preClass ++ " highlight" ++ if nowrap then " nowrap" else "") ::
          settings.filterMap Setting.onPre?) ∧
      tags.code.Collects
        ((lang.map fun lang => ("data-lang", lang)).toList ++
          settings.filterMap Setting.onCode?) ∧
      Markup.render (tags.wrap content) =
        "<pre" ++ written tags.pre ++ "><code" ++
          written (tags.code.filter (·.1 != "data-lang") ++
            tags.code.filter (·.1 == "data-lang")) ++ ">" ++
          content.render ++ "</code></pre>" := by
  intro tags
  obtain ⟨hpre, hcode⟩ := (collects_new preClass lang nowrap).applyAll settings
  exact ⟨hpre, hcode, render_wrap hcode.distinct content⟩

end CodeTags

end DocPress
