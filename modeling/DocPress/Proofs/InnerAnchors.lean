import DocPress.Block.Title
import DocPress.Proofs.Drawn

/-! The anchors of a markup that stand within another anchor. They are counted on the tree, and tags
whose tree has none of them open no anchor while one is open. -/

namespace DocPress

set_option autoImplicit false

mutual

/-- How many anchors of a node stand within another one; the node itself may stand within one. -/
def Html.inner (inside : Bool) : Html → Nat
  | .doctype => 0
  | .text _ => 0
  | .attrText _ => 0
  | .raw _ => 0
  | .charRef _ => 0
  | .void _ _ => 0
  | .element tag _ content =>
    if tag = .a then inside.toNat + innerOf true content else innerOf inside content

def innerOf (inside : Bool) : List Html → Nat
  | [] => 0
  | h :: hs => h.inner inside + innerOf inside hs

end

variable {inside : Bool}

/-! ### Nodes of markup -/

@[simp] theorem innerOf_nil : innerOf inside [] = 0 := rfl

@[simp] theorem innerOf_append (a b : Markup) :
    innerOf inside (a ++ b) = innerOf inside a + innerOf inside b := by
  induction a with
  | nil => exact (Nat.zero_add _).symm
  | cons h a ih => rw [List.cons_append, innerOf, innerOf, ih, Nat.add_assoc]

theorem innerOf_cons (h : Html) (m : Markup) :
    innerOf inside (h :: m) = innerOf inside [h] + innerOf inside m :=
  innerOf_append [h] m

theorem inner_of_tags {h : Html} (ht : h.tags = []) : h.inner inside = 0 := by
  cases h with
  | void tag attrs => cases ht
  | element tag attrs content => cases ht
  | _ => rfl

theorem innerOf_of_tags {m : Markup} (h : tagsOf m = []) : innerOf inside m = 0 := by
  induction m with
  | nil => rfl
  | cons k m ih =>
    obtain ⟨hk, hm⟩ := List.append_eq_nil_iff.mp h
    rw [innerOf, inner_of_tags hk, ih hm]

@[simp] theorem innerOf_text (t : String) (m : Markup) :
    innerOf inside (.text t :: m) = innerOf inside m := Nat.zero_add _

@[simp] theorem innerOf_raw (t : String) (m : Markup) :
    innerOf inside (.raw t :: m) = innerOf inside m := Nat.zero_add _

@[simp] theorem innerOf_charRef (code : Nat) (m : Markup) :
    innerOf inside (.charRef code :: m) = innerOf inside m := Nat.zero_add _

@[simp] theorem innerOf_void (tag : VoidTag) (attrs : List Attr) (m : Markup) :
    innerOf inside (.void tag attrs :: m) = innerOf inside m := Nat.zero_add _

@[simp] theorem innerOf_lineEnd (m : Markup) :
    innerOf inside (.lineEnd :: m) = innerOf inside m := Nat.zero_add _

@[simp] theorem innerOf_element {tag : Tag} (h : tag ≠ .a) (attrs : List Attr)
    (content m : Markup) : innerOf inside (.element tag attrs content :: m) =
      innerOf inside content + innerOf inside m := by
  rw [innerOf, Html.inner, if_neg h]

@[simp] theorem innerOf_anchor (attrs : List Attr) (content m : Markup) :
    innerOf inside (.element .a attrs content :: m) =
      inside.toNat + innerOf true content + innerOf inside m := by
  rw [innerOf, Html.inner, if_pos rfl]

mutual

theorem inner_le : ∀ h : Html, h.inner false ≤ h.inner true
  | .doctype => Nat.le_refl 0
  | .text _ => Nat.le_refl 0
  | .attrText _ => Nat.le_refl 0
  | .raw _ => Nat.le_refl 0
  | .charRef _ => Nat.le_refl 0
  | .void _ _ => Nat.le_refl 0
  | .element tag attrs content => by
    have hcontent := innerOf_le content
    unfold Html.inner
    split
    · simp
    · exact hcontent

/-- Within an anchor no fewer of them stand in one. -/
theorem innerOf_le : ∀ m : List Html, innerOf false m ≤ innerOf true m
  | [] => Nat.le_refl 0
  | h :: hs => Nat.add_le_add (inner_le h) (innerOf_le hs)

end

/-! ### Parts -/

@[simp] theorem innerOf_intercalate {sep : Markup} (hsep : innerOf inside sep = 0)
    (parts : List Markup) :
    innerOf inside (sep.intercalate parts) = innerOf inside parts.flatten := by
  match parts with
  | [] => rfl
  | [p] => simp
  | p :: q :: ps =>
    rw [List.intercalate_cons_cons, innerOf_append, innerOf_append, hsep,
      innerOf_intercalate hsep (q :: ps), Nat.add_zero, ← innerOf_append, ← List.flatten_cons]

@[simp] theorem innerOf_lines (parts : List Markup) :
    innerOf inside (Markup.lines parts) = innerOf inside parts.flatten :=
  innerOf_intercalate rfl parts

theorem innerOf_intersperse {sep : Html} (hsep : innerOf inside [sep] = 0) (m : Markup) :
    innerOf inside (m.intersperse sep) = innerOf inside m := by
  match m with
  | [] => rfl
  | [_] => rfl
  | h :: k :: m =>
    rw [List.intersperse_cons_cons, innerOf_cons h, innerOf_cons sep, hsep,
      innerOf_intersperse hsep (k :: m), innerOf_cons h (k :: m), Nat.zero_add]

theorem innerOf_map {β : Type} {f : β → Html} (hf : ∀ b, innerOf inside [f b] = 0)
    (bs : List β) : innerOf inside (bs.map f) = 0 := by
  induction bs with
  | nil => rfl
  | cons b bs ih => rw [List.map_cons, innerOf_cons, hf, ih]

/-- Parts that are put in other markup with as many inner anchors. -/
theorem innerOf_flatten_map {β : Type} {f g : β → Markup}
    (h : ∀ b, innerOf inside (f b) = innerOf inside (g b)) (bs : List β) :
    innerOf inside (bs.map f).flatten = innerOf inside (bs.map g).flatten := by
  induction bs with
  | nil => rfl
  | cons b bs ih => simp only [List.map_cons, List.flatten_cons, innerOf_append, h, ih]

/-- Parts that other markup is put around. -/
theorem innerOf_flatten_wrap {wrap : Markup → Markup}
    (h : ∀ m, innerOf inside (wrap m) = innerOf inside m) (parts : List Markup) :
    innerOf inside (parts.map wrap).flatten = innerOf inside parts.flatten := by
  have hparts : innerOf inside (parts.map wrap).flatten = innerOf inside (parts.map id).flatten :=
    innerOf_flatten_map h parts
  rwa [List.map_id] at hparts

@[simp] theorem innerOf_stack {tag : Tag} (h : tag ≠ .a) (attrs : List Attr)
    (parts : List Markup) :
    innerOf inside (Markup.stack tag attrs parts) = innerOf inside parts.flatten := by
  have hends : innerOf inside (parts.flatMap (· ++ [Html.lineEnd])) =
      innerOf inside parts.flatten := by
    rw [List.flatMap_def]
    exact innerOf_flatten_wrap (fun p => by simp) parts
  rw [Markup.stack, innerOf_element h, innerOf_lineEnd, hends]
  rfl

@[simp] theorem innerOf_contentBox (parts : List Markup) :
    innerOf inside (Block.contentBox parts) = innerOf inside parts.flatten := by
  simp [Block.contentBox]

@[simp] theorem innerOf_when (present : Bool) (part : Markup) :
    innerOf inside (Markup.when present part).flatten =
      if present then innerOf inside part else 0 := by
  cases present <;> simp [Markup.when]

/-! ### Borrowed words -/

mutual

theorem innerOf_unwrapAnchors : ∀ h : Html, innerOf inside h.unwrapAnchors = 0
  | .element tag attrs content => by
    have hcontent := innerOf_unwrapAnchorsOf content
    rw [unwrapAnchors_element]
    split
    · exact hcontent
    · rename_i ht
      rw [innerOf_element ht, hcontent]
      rfl
  | .void _ _ => rfl
  | .doctype => rfl
  | .text _ => rfl
  | .attrText _ => rfl
  | .raw _ => rfl
  | .charRef _ => rfl

theorem innerOf_unwrapAnchorsOf : ∀ m : List Html, innerOf inside (unwrapAnchorsOf m) = 0
  | [] => rfl
  | h :: hs => by
    rw [unwrapAnchorsOf, innerOf_append, innerOf_unwrapAnchors h, innerOf_unwrapAnchorsOf hs]

end

@[simp] theorem innerOf_withoutAnchors (m : Markup) : innerOf inside m.withoutAnchors = 0 := by
  unfold Markup.withoutAnchors
  split
  · exact innerOf_unwrapAnchorsOf m
  · rfl

/-! ### Split equations -/

theorem innerOf_joint (ends : Nat) :
    innerOf inside (Equation.joint Equation.ascii ends) = 0 := by
  have hbreaks : ∀ n : Nat,
      innerOf inside (List.replicate n ([.text "\n", .void .br []] : Markup)).flatten = 0 := by
    intro n
    induction n with
    | zero => rfl
    | succ n ih =>
      rw [List.replicate_succ, List.flatten_cons, innerOf_append, ih]
      rfl
  rw [Equation.joint, innerOf_text, innerOf_append, hbreaks]
  rfl

theorem innerOf_splitAt (items : List Html) :
    innerOf inside (Equation.splitAt Equation.Html.glyph? (Equation.joint Equation.ascii) 0 items) =
      innerOf inside items := by
  -- The count as the length of a list, since what is read off a split is a list.
  let f : Markup → List Unit := fun m => List.replicate (innerOf inside m) ()
  have happ : ∀ a b, f (a ++ b) = f a ++ f b := by
    intro a b
    simp only [f, innerOf_append, List.replicate_append_replicate]
  have hjoint : ∀ ends, f (Equation.joint Equation.ascii ends) = [] := by
    intro ends
    simp only [f, innerOf_joint, List.replicate_zero]
  have hleaf : ∀ h : Html, h.tags = [] → f [h] = [] := by
    intro h ht
    simp only [f, innerOf, inner_of_tags ht, Nat.add_zero, List.replicate_zero]
  have hsplit : f (Equation.splitAt Equation.Html.glyph? (Equation.joint Equation.ascii) 0 items) =
      f items := Equation.read_splitAt happ hjoint hleaf (by simp)
  simpa only [f, List.length_replicate] using congrArg List.length hsplit

mutual

theorem innerOf_glyphs : ∀ (inside : Bool) (h : Html),
    innerOf inside (Equation.glyphs Equation.ascii h) = innerOf inside [h]
  | inside, .text t => by
    rw [Equation.glyphs, innerOf_map fun _ => rfl]
    rfl
  | inside, .attrText t => by
    rw [Equation.glyphs, innerOf_map fun _ => rfl]
    rfl
  | inside, .raw t => by
    rw [Equation.glyphs, innerOf_map fun _ => rfl]
    rfl
  | inside, .element tag attrs content => by
    have hcontent : ∀ inside, innerOf inside (Equation.splitAt Equation.Html.glyph?
        (Equation.joint Equation.ascii) 0 (Equation.glyphsOf Equation.ascii content)) =
          innerOf inside content := by
      intro inside
      rw [innerOf_splitAt, innerOf_glyphsOf inside content]
    rw [Equation.glyphs]
    by_cases ht : tag = .a
    · rw [ht, innerOf_anchor, innerOf_anchor, hcontent]
    · rw [innerOf_element ht, innerOf_element ht, hcontent]
  | _, .void _ _ => rfl
  | _, .charRef _ => rfl
  | _, .doctype => rfl

theorem innerOf_glyphsOf : ∀ (inside : Bool) (m : List Html),
    innerOf inside (Equation.glyphsOf Equation.ascii m) = innerOf inside m
  | _, [] => rfl
  | inside, h :: hs => by
    rw [Equation.glyphsOf, innerOf_append, innerOf_glyphs inside h, innerOf_glyphsOf inside hs,
      ← innerOf_cons]

end

theorem innerOf_split (m : Markup) :
    innerOf inside (Equation.split Equation.ascii m) = innerOf inside m := by
  rw [Equation.split, innerOf_splitAt, innerOf_glyphsOf]

theorem innerOf_delimit (d : Equation.Delimiters) (m : Markup) :
    innerOf inside (Equation.delimit d m) = innerOf inside m := by
  unfold Equation.delimit
  split
  · rfl
  · simp

/-! ### Tags -/

/-- Whether the tags close each other in order as far as they close anything, and none of them opens
an anchor while one is open; the names that are open before them come first. -/
def anchorsApart : List (List Char) → List TagRead → Prop
  | _, [] => True
  | stack, t :: ts =>
    (t.name = "a".toList → "a".toList ∉ stack) ∧
      ∃ after, openAfter stack t = some after ∧ anchorsApart after ts

instance anchorsApart.decidable : ∀ (stack : List (List Char)) (ts : List TagRead),
    Decidable (anchorsApart stack ts)
  | _, [] => isTrue trivial
  | stack, t :: ts =>
    match h : openAfter stack t with
    | none => isFalse (by simp [anchorsApart, h])
    | some after =>
      have := decidable after ts
      decidable_of_iff ((t.name = "a".toList → "a".toList ∉ stack) ∧ anchorsApart after ts)
        (by simp [anchorsApart, h])

theorem anchorsApart_pass {t : TagRead} {stack after : List (List Char)}
    (ht : t.name ≠ "a".toList) (ho : openAfter stack t = some after) (ts : List TagRead) :
    anchorsApart stack (t :: ts) ↔ anchorsApart after ts := by
  constructor
  · rintro ⟨-, _, h, hts⟩
    obtain rfl := Option.some.inj (ho.symm.trans h)
    exact hts
  · intro hts
    exact ⟨fun h => absurd h ht, after, ho, hts⟩

theorem anchorsApart_start (tag : Tag) (attrs : List Attr) (stack : List (List Char))
    (ts : List TagRead) : anchorsApart stack (tag.start attrs :: ts) ↔
      (tag = .a → "a".toList ∉ stack) ∧ anchorsApart (tag.name.toList :: stack) ts := by
  have hname : (tag.start attrs).name = "a".toList ↔ tag = .a := name_eq_a
  rw [anchorsApart, hname, openAfter_start]
  constructor
  · rintro ⟨ha, _, h, hts⟩
    obtain rfl := Option.some.inj h
    exact ⟨ha, hts⟩
  · rintro ⟨ha, hts⟩
    exact ⟨ha, _, rfl, hts⟩

theorem mem_names {tag : Tag} {stack : List (List Char)} :
    "a".toList ∈ tag.name.toList :: stack ↔ tag = .a ∨ "a".toList ∈ stack := by
  rw [List.mem_cons, eq_comm, name_eq_a]

mutual

theorem anchorsApart_tags : ∀ (h : Html) (stack : List (List Char)) (ts : List TagRead),
    anchorsApart stack (h.tags ++ ts) ↔
      h.inner (decide ("a".toList ∈ stack)) = 0 ∧ anchorsApart stack ts
  | .doctype, _, ts => (anchorsApart_pass (by decide) rfl ts).trans (and_iff_right rfl).symm
  | .text _, _, _ => (and_iff_right rfl).symm
  | .attrText _, _, _ => (and_iff_right rfl).symm
  | .raw _, _, _ => (and_iff_right rfl).symm
  | .charRef _, _, _ => (and_iff_right rfl).symm
  | .void tag attrs, stack, ts => by
    have hname : tag.name.toList ≠ "a".toList := by cases tag <;> decide
    have hopen : openAfter stack (tag.start attrs) = some stack := by cases tag <;> rfl
    exact (anchorsApart_pass hname hopen ts).trans (and_iff_right rfl).symm
  | .element tag attrs content, stack, ts => by
    have hcontent := anchorsApart_tagsOf content (tag.name.toList :: stack) (tag.stop :: ts)
    have hstop : anchorsApart (tag.name.toList :: stack) (tag.stop :: ts) ↔
        anchorsApart stack ts := by
      apply anchorsApart_pass
      · simp [Tag.stop]
      · simp [openAfter, Tag.stop]
    simp only [Html.tags, List.cons_append, List.append_assoc, List.nil_append]
    rw [anchorsApart_start, hcontent, hstop, Html.inner, ← and_assoc]
    apply and_congr_left'
    by_cases ht : tag = .a
    · have hin : decide ("a".toList ∈ tag.name.toList :: stack) = true :=
        decide_eq_true (mem_names.mpr (Or.inl ht))
      rw [hin, if_pos ht, Nat.add_eq_zero_iff, Bool.toNat_eq_zero, decide_eq_false_iff_not]
      exact and_congr_left' (forall_prop_of_true ht)
    · have hin : decide ("a".toList ∈ tag.name.toList :: stack) = decide ("a".toList ∈ stack) :=
        decide_eq_decide.mpr (mem_names.trans (or_iff_right ht))
      rw [hin, if_neg ht]
      exact and_iff_right fun h => absurd h ht

/-- The tags of a markup keep anchors apart exactly when it has no inner ones. -/
theorem anchorsApart_tagsOf : ∀ (m : List Html) (stack : List (List Char)) (ts : List TagRead),
    anchorsApart stack (tagsOf m ++ ts) ↔
      innerOf (decide ("a".toList ∈ stack)) m = 0 ∧ anchorsApart stack ts
  | [], _, _ => (and_iff_right rfl).symm
  | h :: hs, stack, ts => by
    rw [tagsOf, List.append_assoc, anchorsApart_tags h, anchorsApart_tagsOf hs, innerOf,
      Nat.add_eq_zero_iff, and_assoc]

end

theorem anchorsApart_iff (m : Markup) : anchorsApart [] (tagsOf m) ↔ innerOf false m = 0 := by
  have h := anchorsApart_tagsOf m [] []
  rw [List.append_nil] at h
  simpa [anchorsApart] using h

end DocPress
