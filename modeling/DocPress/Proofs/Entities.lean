import DocPress.Text.Escape

/-! Entities. What escaping writes is read back as it was, so that escaped values are equal only if
the values are. It holds nothing that ends the place it is written in, and an ampersand only where
an entity begins. -/

namespace DocPress

set_option autoImplicit false

/-! ### Stretches without brackets -/

theorem forall_mem_of_all {p : Char → Prop} [DecidablePred p] {cs : List Char}
    (h : cs.all (fun c => decide (p c)) = true) : ∀ c ∈ cs, p c :=
  fun c hc => of_decide_eq_true (List.all_eq_true.1 h c hc)

/-- A stretch that neither opens nor ends a tag. -/
def TagFree (cs : List Char) : Prop := ∀ c ∈ cs, c ≠ '<' ∧ c ≠ '>'

namespace TagFree

variable {a b : List Char}

theorem append (ha : TagFree a) (hb : TagFree b) : TagFree (a ++ b) := by
  intro c hc
  rcases List.mem_append.mp hc with hc | hc
  · exact ha c hc
  · exact hb c hc

theorem flatMap {α : Type} {f : α → List Char} {as : List α} (h : ∀ a ∈ as, TagFree (f a)) :
    TagFree (as.flatMap f) := by
  intro c hc
  obtain ⟨a, ha, hc⟩ := List.mem_flatMap.mp hc
  exact h a ha c hc

theorem textEntity (c : Char) : TagFree (Text.textEntity c) := by
  unfold Text.textEntity TagFree
  split <;> simp_all

theorem attributeEntity (c : Char) : TagFree (Text.attributeEntity c) := by
  unfold Text.attributeEntity
  split
  · exact forall_mem_of_all (by decide)
  · exact forall_mem_of_all (by decide)
  · exact textEntity c

theorem escapedText (cs : List Char) : TagFree (Text.escapedText cs) :=
  flatMap fun c _ => textEntity c

theorem escapedAttribute (cs : List Char) : TagFree (Text.escapedAttribute cs) :=
  flatMap fun c _ => attributeEntity c

end TagFree

namespace Text

/-! ### Entities read back -/

/-- The characters, read once from left to right, with the entities of escaped values in their plain
form. -/
def decoded : List Char → List Char
  | [] => []
  | '&' :: 'a' :: 'm' :: 'p' :: ';' :: cs => '&' :: decoded cs
  | '&' :: 'l' :: 't' :: ';' :: cs => '<' :: decoded cs
  | '&' :: 'g' :: 't' :: ';' :: cs => '>' :: decoded cs
  | '&' :: 'q' :: 'u' :: 'o' :: 't' :: ';' :: cs => '"' :: decoded cs
  | '&' :: '#' :: 'x' :: '2' :: '7' :: ';' :: cs => '\'' :: decoded cs
  | c :: cs => c :: decoded cs

theorem decoded_cons {c : Char} (h : c ≠ '&') (cs : List Char) :
    decoded (c :: cs) = c :: decoded cs := by
  rw [decoded.eq_def]
  split <;> simp_all

theorem decoded_textEntity (c : Char) (cs : List Char) :
    decoded (textEntity c ++ cs) = c :: decoded cs := by
  unfold textEntity
  split
  · rfl
  · rfl
  · rfl
  · rename_i h _ _
    exact decoded_cons h cs

theorem decoded_attributeEntity (c : Char) (cs : List Char) :
    decoded (attributeEntity c ++ cs) = c :: decoded cs := by
  unfold attributeEntity
  split
  · rfl
  · rfl
  · exact decoded_textEntity c cs

theorem decoded_escapedText (cs : List Char) : decoded (escapedText cs) = cs := by
  induction cs with
  | nil => rfl
  | cons c cs ih => rw [escapedText_cons, decoded_textEntity, ih]

theorem decoded_escapedAttribute (cs : List Char) : decoded (escapedAttribute cs) = cs := by
  induction cs with
  | nil => rfl
  | cons c cs ih => rw [escapedAttribute_cons, decoded_attributeEntity, ih]

def quoteEntity : Char → List Char
  | '"' => "&quot;".toList
  | '\'' => "&#x27;".toList
  | c => [c]

/-- A text with its quotes written as entities. -/
def escapeQuotes (s : String) : String := String.ofList (s.toList.flatMap quoteEntity)

theorem quoteEntity_of_ne {c : Char} (hdouble : c ≠ '"') (hsingle : c ≠ '\'') :
    quoteEntity c = [c] := by
  unfold quoteEntity
  split
  · exact absurd rfl hdouble
  · exact absurd rfl hsingle
  · rfl

theorem attributeEntity_eq (c : Char) : attributeEntity c = (textEntity c).flatMap quoteEntity := by
  unfold attributeEntity
  split
  · rfl
  · rfl
  · rename_i hdouble hsingle
    unfold textEntity
    split
    · rfl
    · rfl
    · rfl
    · rw [List.flatMap_singleton]
      exact (quoteEntity_of_ne hdouble hsingle).symm

theorem escapedAttribute_eq (cs : List Char) :
    escapedAttribute cs = (escapedText cs).flatMap quoteEntity := by
  rw [escapedAttribute, escapedText, List.flatMap_assoc]
  exact congrArg cs.flatMap (funext attributeEntity_eq)

theorem quoteEntity_free (c : Char) : ∀ d ∈ quoteEntity c, d ≠ '"' ∧ d ≠ '\'' := by
  unfold quoteEntity
  split
  · exact forall_mem_of_all (by decide)
  · exact forall_mem_of_all (by decide)
  · rename_i hdouble hsingle
    simpa using ⟨hdouble, hsingle⟩

/-- An escaped value holds none of the quotes that can stand around it. -/
theorem escapedAttribute_free (cs : List Char) :
    ∀ c ∈ escapedAttribute cs, c ≠ '"' ∧ c ≠ '\'' := by
  intro c hc
  rw [escapedAttribute_eq] at hc
  obtain ⟨d, -, hd⟩ := List.mem_flatMap.mp hc
  exact quoteEntity_free d c hd

/-! ### Ampersands -/

/-- The entities of character data. -/
def textEntities : List String := ["&amp;", "&lt;", "&gt;"]

/-- The entities of quotes, which only attribute values need. -/
def quoteEntities : List String := ["&quot;", "&#x27;"]

/-- Whether every ampersand begins one of the entities. -/
def OnlyEntities (entities : List String) (cs : List Char) : Prop :=
  ∀ rest, '&' :: rest <:+ cs → ∃ e ∈ entities, e.toList <+: '&' :: rest

namespace OnlyEntities

variable {entities : List String} {cs : List Char}

theorem nil : OnlyEntities entities [] := fun _ h => absurd (List.suffix_nil.mp h) nofun

theorem behind (hcs : OnlyEntities entities cs) {part : List Char} (hpart : '&' ∉ part) :
    OnlyEntities entities (part ++ cs) := by
  induction part with
  | nil => exact hcs
  | cons c part ih =>
    intro rest h
    rcases List.suffix_cons_iff.mp h with heq | hlater
    · exact absurd (List.cons.inj heq).1 fun hc => hpart (hc ▸ List.mem_cons_self)
    · exact ih (fun hc => hpart (List.mem_cons_of_mem c hc)) rest hlater

theorem entity (hcs : OnlyEntities entities cs) {e : String} {body : List Char} (he : e ∈ entities)
    (hbody : e.toList = '&' :: body) (hfree : '&' ∉ body) :
    OnlyEntities entities (e.toList ++ cs) := by
  rw [hbody]
  intro rest h
  rcases List.suffix_cons_iff.mp h with heq | hlater
  · exact ⟨e, he, by rw [heq, hbody]; exact List.prefix_append _ _⟩
  · exact hcs.behind hfree rest hlater

theorem textEntity (hcs : OnlyEntities entities cs) (hsub : textEntities ⊆ entities) (c : Char) :
    OnlyEntities entities (textEntity c ++ cs) := by
  have entity {e : String} {body : List Char} (he : e ∈ textEntities)
      (hbody : e.toList = '&' :: body) (hfree : '&' ∉ body) :
      OnlyEntities entities (e.toList ++ cs) := hcs.entity (hsub he) hbody hfree
  unfold Text.textEntity
  split
  · exact entity (e := "&amp;") (by decide) rfl (by decide)
  · exact entity (e := "&lt;") (by decide) rfl (by decide)
  · exact entity (e := "&gt;") (by decide) rfl (by decide)
  · rename_i h _ _
    exact hcs.behind (by simpa using Ne.symm h)

end OnlyEntities

theorem onlyEntities_escapedText (cs : List Char) :
    OnlyEntities textEntities (escapedText cs) := by
  induction cs with
  | nil => exact .nil
  | cons c cs ih => exact ih.textEntity (List.Subset.refl _) c

theorem onlyEntities_escapedAttribute (cs : List Char) :
    OnlyEntities (textEntities ++ quoteEntities) (escapedAttribute cs) := by
  induction cs with
  | nil => exact .nil
  | cons c cs ih =>
    rw [escapedAttribute_cons]
    unfold attributeEntity
    split
    · exact ih.entity (e := "&quot;") (by decide) rfl (by decide)
    · exact ih.entity (e := "&#x27;") (by decide) rfl (by decide)
    · exact ih.textEntity (List.subset_append_left _ _) c

/-- A text with the entities of escaped values in their plain form. -/
def decode (s : String) : String := String.ofList (decoded s.toList)

/-- Escaping loses nothing, leaves no bracket, and in attribute values no quote, and makes an
ampersand the beginning of an entity wherever it stands. An attribute value is escaped as character
data with its quotes escaped behind that. -/
theorem decode_escaped (s : String) :
    decode (escapeAttribute s) = s ∧ decode (escapeText s) = s ∧
      (∀ c ∈ (escapeAttribute s).toList, c ∉ ['<', '>', '"', '\'']) ∧
      (∀ c ∈ (escapeText s).toList, c ∉ ['<', '>']) ∧
      OnlyEntities (textEntities ++ quoteEntities) (escapeAttribute s).toList ∧
      OnlyEntities textEntities (escapeText s).toList ∧
      escapeAttribute s = escapeQuotes (escapeText s) := by
  simp only [decode, escapeAttribute, escapeText, escapeQuotes, String.toList_ofList]
  refine ⟨?_, ?_, ?_, ?_, onlyEntities_escapedAttribute _, onlyEntities_escapedText _, ?_⟩
  · rw [decoded_escapedAttribute, String.ofList_toList]
  · rw [decoded_escapedText, String.ofList_toList]
  · intro c hc
    have hbrackets := TagFree.escapedAttribute _ c hc
    have hquotes := escapedAttribute_free _ c hc
    simp [hbrackets, hquotes]
  · intro c hc
    have hbrackets := TagFree.escapedText _ c hc
    simp [hbrackets]
  · rw [escapedAttribute_eq]

end Text

end DocPress
