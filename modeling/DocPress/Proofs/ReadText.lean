import DocPress.Proofs.Tokens

/-! Reading the text off written markup: what a reader meets outside of tags. Markup whose
insertions are held is read as the text of its tree, entities and all. -/

namespace DocPress

set_option autoImplicit false

namespace Reader

/-- The characters that are met outside of tags from a place on. -/
def textFrom : Place → List Char → List Char
  | _, [] => []
  | p, c :: cs =>
    if p = .text ∧ c ≠ '<' then c :: textFrom (step p c).1 cs else textFrom (step p c).1 cs

/-- The characters outside of tags are those of the tokens. -/
theorem textFrom_tokens (p : Place) (cs : List Char) :
    textFrom p cs = (tokensFrom p cs).filterMap Token.char? := by
  induction cs generalizing p with
  | nil => rfl
  | cons c cs ih =>
    rw [textFrom, tokensFrom]
    rcases hstep : step p c with ⟨q, _ | t⟩
    · dsimp only
      split
      · rw [ih]
        rfl
      · exact ih q
    · have hp : p ≠ .text := by
        rintro rfl
        rw [step] at hstep
        split at hstep <;> simp at hstep
      rw [if_neg fun hc => hp hc.1, ih]
      rfl

end Reader

/-- The text that is read off written markup. -/
def readText (cs : List Char) : List Char := Reader.textFrom .text cs

/-! ### The text of the tree -/

mutual

/-- What a node is written with outside of tags. -/
def Html.textChars : Html → List Char
  | .doctype => []
  | .text s => Text.escapedText s.toList
  | .attrText s => Text.escapedAttribute s.toList
  | .raw s => s.toList
  | .charRef code => (Html.charRef code).chars
  | .void _ _ => []
  | .element _ _ content => textCharsOf content

def textCharsOf : List Html → List Char
  | [] => []
  | h :: hs => h.textChars ++ textCharsOf hs

end

theorem textCharsOf_append (a b : List Html) :
    textCharsOf (a ++ b) = textCharsOf a ++ textCharsOf b := by
  induction a with
  | nil => rfl
  | cons h hs ih => simp only [List.cons_append, textCharsOf, ih, List.append_assoc]

theorem filterMap_chars (cs : List Char) : (cs.map Token.char).filterMap Token.char? = cs := by
  rw [List.filterMap_map]
  exact List.filterMap_some

mutual

theorem Html.textChars_tokens : ∀ h : Html, h.textChars = h.tokens.filterMap Token.char?
  | .doctype => rfl
  | .text _ => (filterMap_chars _).symm
  | .attrText _ => (filterMap_chars _).symm
  | .raw _ => (filterMap_chars _).symm
  | .charRef _ => (filterMap_chars _).symm
  | .void _ _ => rfl
  | .element tag attrs content => by
    have hcontent := textCharsOf_tokens content
    rw [Html.textChars, hcontent, Html.tokens, List.filterMap_cons, List.filterMap_append]
    exact (List.append_nil _).symm

theorem textCharsOf_tokens : ∀ m : List Html, textCharsOf m = (tokensOf m).filterMap Token.char?
  | [] => rfl
  | h :: hs => by
    rw [textCharsOf, tokensOf, List.filterMap_append, Html.textChars_tokens h,
      textCharsOf_tokens hs]

end

/-- Sealed markup is read as the text of its tree. -/
theorem Sealed.readText {m : Markup} (h : Sealed m) (hn : NamedAll m) :
    readText m.chars = textCharsOf m := by
  have htokens : Reader.tokensFrom .text m.chars = tokensOf m := h.readTokens hn
  rw [DocPress.readText, Reader.textFrom_tokens, htokens, textCharsOf_tokens]

end DocPress
