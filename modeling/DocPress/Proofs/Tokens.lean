import DocPress.Proofs.Sealed

/-! Reading written markup in full: the tags and the characters between them, in the order in which
they are met. Markup whose insertions are held is read as the tokens of its tree. -/

namespace DocPress

set_option autoImplicit false

open Reader (Place run run_append run_name isGap)

/-- What is met in written markup: a tag, or a character outside of tags. -/
inductive Token where
  | tag (t : TagRead)
  | char (c : Char)
  deriving DecidableEq, Repr

def Token.char? : Token → Option Char
  | .tag _ => none
  | .char c => some c

namespace Reader

/-- What is met from a place on. A tag is met where it ends. -/
def tokensFrom : Place → List Char → List Token
  | _, [] => []
  | p, c :: cs =>
    match step p c with
    | (q, some t) => .tag t :: tokensFrom q cs
    | (q, none) => if p = .text ∧ c ≠ '<' then .char c :: tokensFrom q cs else tokensFrom q cs

theorem tokensFrom_text {cs : List Char} (h : '<' ∉ cs) (rest : List Char) :
    tokensFrom .text (cs ++ rest) = cs.map .char ++ tokensFrom .text rest := by
  induction cs with
  | nil => rfl
  | cons c cs ih =>
    have hc : c ≠ '<' := fun hc => h (hc ▸ List.mem_cons_self)
    have hstep : step .text c = (.text, none) := if_neg hc
    rw [List.cons_append, tokensFrom, hstep]
    simp only [ne_eq, hc, not_false_eq_true, and_self, if_true]
    rw [ih fun hm => h (List.mem_cons_of_mem c hm)]
    rfl

theorem tokensFrom_quiet {p q : Place} {c : Char} (hp : p ≠ .text) (h : step p c = (q, none))
    (rest : List Char) : tokensFrom p (c :: rest) = tokensFrom q rest := by
  rw [tokensFrom, h]
  exact if_neg fun hc => hp hc.1

theorem tokensFrom_end {p q : Place} {c : Char} {t : TagRead} (h : step p c = (q, some t))
    (rest : List Char) : tokensFrom p (c :: rest) = .tag t :: tokensFrom q rest := by
  rw [tokensFrom, h]

/-- Nothing is met within a tag while it does not end. -/
theorem tokensFrom_within {p q : Place} {cs : List Char} (hp : p ≠ .text) (h : run p cs = (q, []))
    (rest : List Char) : tokensFrom p (cs ++ rest) = tokensFrom q rest := by
  induction cs generalizing p with
  | nil =>
    obtain rfl : p = q := congrArg Prod.fst h
    rfl
  | cons c cs ih =>
    rcases hstep : step p c with ⟨r, tag⟩
    simp only [run, hstep, Prod.mk.injEq, List.append_eq_nil_iff] at h
    cases tag with
    | some t => simp at h
    | none =>
      rw [List.cons_append, tokensFrom_quiet hp hstep]
      exact ih (step_within hp hstep).1 (Prod.ext h.1 h.2.2)

/-- A tag that is written whole is met at its end. -/
theorem tokensFrom_tag {q : Place} {t : TagRead} {cs : List Char} (h : run (.name []) cs = (q, []))
    (hclose : step q '>' = (.text, some t)) (rest : List Char) :
    tokensFrom .text ('<' :: (cs ++ '>' :: rest)) = .tag t :: tokensFrom .text rest := by
  have hopen : tokensFrom .text ('<' :: (cs ++ '>' :: rest)) =
      tokensFrom (.name []) (cs ++ '>' :: rest) := rfl
  rw [hopen, tokensFrom_within (by simp) h, tokensFrom_end hclose]

end Reader

open Reader (tokensFrom tokensFrom_text tokensFrom_tag)

/-- The tokens that are read off written markup. -/
def readTokens (cs : List Char) : List Token := tokensFrom .text cs

theorem tokensFrom_start {name : List Char} (hplain : ∀ c ∈ name, c ≠ '>' ∧ isGap c = false)
    {attrs : List Attr} (hnames : ∀ a ∈ attrs, a.name.Known)
    (held : ∀ x ∈ attrs.flatMap Attr.inserted, x.Held) (rest : List Char) :
    tokensFrom .text ('<' :: (name ++ (attrChars attrs ++ '>' :: rest))) =
      .tag ⟨name, attrs.map Attr.read⟩ :: tokensFrom .text rest := by
  obtain ⟨q, hq, hclose⟩ := run_attrs hnames held (closes_name name)
  have hrun : run (.name []) (name ++ attrChars attrs) = (q, []) := by
    rw [run_append, run_name hplain, List.nil_append, hq]
    rfl
  rw [← List.append_assoc]
  exact tokensFrom_tag hrun hclose.close rest

theorem tokensFrom_stop {name : List Char} (hplain : ∀ c ∈ name, c ≠ '>' ∧ isGap c = false)
    (rest : List Char) :
    tokensFrom .text ('<' :: '/' :: (name ++ '>' :: rest)) =
      .tag ⟨'/' :: name, []⟩ :: tokensFrom .text rest := by
  have hrun : run (.name []) ('/' :: name) = (.name ('/' :: name), []) := run_name hplain ['/']
  exact tokensFrom_tag hrun (closes_name _).close rest

/-! ### The tokens of the tree -/

mutual

/-- The tags and the characters outside of tags that a node is written with. -/
def Html.tokens : Html → List Token
  | .doctype => [.tag doctypeTag]
  | .text s => (Text.escapedText s.toList).map .char
  | .attrText s => (Text.escapedAttribute s.toList).map .char
  | .raw s => s.toList.map .char
  | .charRef code => (Html.charRef code).chars.map .char
  | .void tag attrs => [.tag (tag.start attrs)]
  | .element tag attrs content =>
    .tag (tag.start attrs) :: (tokensOf content ++ [.tag tag.stop])

def tokensOf : List Html → List Token
  | [] => []
  | h :: hs => h.tokens ++ tokensOf hs

end

theorem tokensOf_append (a b : List Html) : tokensOf (a ++ b) = tokensOf a ++ tokensOf b := by
  induction a with
  | nil => rfl
  | cons h hs ih => simp only [List.cons_append, tokensOf, ih, List.append_assoc]

theorem tokensFrom_inserted {cs : List Char} (h : (Inserted.text cs).Held) (rest : List Char) :
    tokensFrom .text (cs ++ rest) = cs.map .char ++ tokensFrom .text rest :=
  tokensFrom_text (Inserted.held_text.mp h) rest

mutual

theorem tokensFrom_html : ∀ h : Html, h.Named → (∀ x ∈ h.inserted, x.Held) → ∀ rest,
    tokensFrom .text (h.chars ++ rest) = h.tokens ++ tokensFrom .text rest
  | .doctype, _, _, rest => by
    have hchars : Html.doctype.chars = '<' :: ("!DOCTYPE html".toList ++ ['>']) := by decide
    rw [hchars, List.cons_append, List.append_assoc]
    exact tokensFrom_tag (t := doctypeTag) (q := .attrName ⟨"!DOCTYPE".toList, []⟩ "html".toList)
      (by decide) (by decide) rest
  | .text s, _, held, rest => tokensFrom_inserted (held _ List.mem_cons_self) rest
  | .attrText s, _, held, rest => tokensFrom_inserted (held _ List.mem_cons_self) rest
  | .raw s, _, held, rest => tokensFrom_inserted (held _ List.mem_cons_self) rest
  | .charRef code, _, _, rest => tokensFrom_inserted (held_charRef code) rest
  | .void tag attrs, hn, held, rest => by
    rw [Html.chars_void, List.cons_append, List.append_assoc, List.append_assoc]
    exact tokensFrom_start tag.name_plain hn held rest
  | .element tag attrs content, hn, held, rest => by
    obtain ⟨hattrs, hcontent⟩ := List.forall_mem_append.mp held
    have hmarkup := tokensFrom_markup content hn.2 hcontent
    simp only [Html.chars_element, List.cons_append, List.append_assoc, List.nil_append]
    rw [tokensFrom_start tag.name_plain hn.1 hattrs, hmarkup, tokensFrom_stop tag.name_plain,
      Html.tokens, List.cons_append, List.append_assoc]
    rfl

theorem tokensFrom_markup : ∀ m : List Html, NamedAll m → (∀ x ∈ insertedOf m, x.Held) → ∀ rest,
    tokensFrom .text (charsOf m ++ rest) = tokensOf m ++ tokensFrom .text rest
  | [], _, _, _ => rfl
  | h :: hs, hn, held, rest => by
    obtain ⟨hh, hhs⟩ := List.forall_mem_append.mp held
    rw [charsOf, List.append_assoc, tokensFrom_html h hn.1 hh, tokensFrom_markup hs hn.2 hhs,
      tokensOf, List.append_assoc]

end

/-- Sealed markup is read as the tokens of its tree. -/
theorem Sealed.readTokens {m : Markup} (h : Sealed m) (hn : NamedAll m) :
    readTokens m.chars = tokensOf m := by
  have hread := tokensFrom_markup m hn h.held []
  rw [List.append_nil] at hread
  exact hread.trans (List.append_nil _)

end DocPress
