/-!
# Blanks and cuts

The white space of Unicode, and the ways a text is trimmed and cut at a character.
-/

namespace DocPress.Text

set_option autoImplicit false

/-- White space: the five controls, the spaces, the line and paragraph separators. -/
def isBlank (c : Char) : Bool :=
  let n := c.toNat
  (9 ≤ n && n ≤ 13) || n == 32 || n == 133 || n == 160 || n == 5760 || (8192 ≤ n && n ≤ 8202) ||
    n == 8232 || n == 8233 || n == 8239 || n == 8287 || n == 12288

/-- What is left when the characters that satisfy `p` are taken off the end. -/
def dropEnd (p : Char → Bool) (cs : List Char) : List Char := (cs.reverse.dropWhile p).reverse

def trimEnd (c : Char) (s : String) : String := String.ofList (dropEnd (· == c) s.toList)

def trimStart (c : Char) (s : String) : String := String.ofList (s.toList.dropWhile (· == c))

/-- The text without the blanks at both ends. -/
def trim (s : String) : String := String.ofList (dropEnd isBlank (s.toList.dropWhile isBlank))

/-- The parts before and after the first `c`, if there is one. -/
def cut (c : Char) : List Char → Option (List Char × List Char)
  | [] => none
  | x :: rest => if x = c then some ([], rest) else (cut c rest).map fun p => (x :: p.1, p.2)

theorem eq_of_cut {c : Char} : ∀ {cs : List Char} {p : List Char × List Char},
    cut c cs = some p → cs = p.1 ++ c :: p.2
  | [], _, h => absurd h nofun
  | x :: rest, p, h => by
    unfold cut at h
    split at h
    · rename_i hx
      obtain rfl := Option.some.inj h
      rw [hx]
      rfl
    · obtain ⟨q, hq, rfl⟩ := Option.map_eq_some_iff.1 h
      exact congrArg (x :: ·) (eq_of_cut hq)

theorem cut_of_not_mem {c : Char} {a : List Char} (h : c ∉ a) (b : List Char) :
    cut c (a ++ c :: b) = some (a, b) := by
  induction a with
  | nil => simp [cut]
  | cons x xs ih =>
    have hx : x ≠ c := fun heq => h (heq ▸ List.mem_cons_self)
    rw [List.cons_append, cut, if_neg hx, ih fun hm => h (List.mem_cons_of_mem x hm)]
    rfl

theorem cut_eq_none {c : Char} {cs : List Char} : cut c cs = none ↔ c ∉ cs := by
  induction cs with
  | nil => simp [cut]
  | cons x xs ih =>
    by_cases hx : x = c
    · simp [cut, hx]
    · simp [cut, hx, ih, Ne.symm hx]

def cutAt (c : Char) (s : String) : Option (String × String) :=
  (cut c s.toList).map fun p => (String.ofList p.1, String.ofList p.2)

/-- The parts between the occurrences of `c`: one more than there are of them. -/
def pieces (c : Char) : List Char → List (List Char)
  | [] => [[]]
  | x :: rest =>
    match pieces c rest with
    | [] => [[]]
    | p :: ps => if x = c then [] :: p :: ps else (x :: p) :: ps

theorem pieces_ne_nil (c : Char) : ∀ cs : List Char, pieces c cs ≠ []
  | [] => by simp [pieces]
  | x :: rest => by
    unfold pieces
    split
    · simp
    · split <;> simp

theorem pieces_append (c : Char) (a b : List Char) :
    pieces c (a ++ c :: b) = pieces c a ++ pieces c b := by
  induction a with
  | nil =>
    obtain ⟨p, ps, hb⟩ := List.exists_cons_of_ne_nil (pieces_ne_nil c b)
    simp [pieces, hb]
  | cons x a ih =>
    obtain ⟨p, ps, ha⟩ := List.exists_cons_of_ne_nil (pieces_ne_nil c a)
    rw [List.cons_append, pieces, ih, pieces, ha]
    simp only [List.cons_append]
    split <;> rfl

theorem pieces_of_not_mem {c : Char} {cs : List Char} (h : c ∉ cs) : pieces c cs = [cs] := by
  induction cs with
  | nil => rfl
  | cons x cs ih =>
    have hx : x ≠ c := by
      intro hx
      exact h (hx ▸ List.mem_cons_self)
    have hrest := ih fun hc => h (List.mem_cons_of_mem x hc)
    simp [pieces, hrest, hx]

def split (c : Char) (s : String) : List String := (pieces c s.toList).map String.ofList

/-- The text without `tail`, if it ends so. -/
def dropTail (tail s : String) : String :=
  if tail.toList.isSuffixOf s.toList then String.ofList (s.toList.take (s.length - tail.length))
  else s

/-- Whether `part` occurs in the list. -/
def occursIn (part : List Char) : List Char → Bool
  | [] => part.isEmpty
  | c :: rest => part.isPrefixOf (c :: rest) || occursIn part rest

theorem occursIn_iff {part cs : List Char} : occursIn part cs = true ↔ part <:+: cs := by
  induction cs with
  | nil => simp [occursIn]
  | cons c cs ih => simp [occursIn, ih, List.infix_cons_iff]

def contains (s part : String) : Bool := occursIn part.toList s.toList

/-- A text begins with two characters that do not stand side by side in its first part: there is
nothing in that part, unless the second of them follows on it. -/
theorem eq_nil_of_pair_begin {x y : Char} {part after : List Char}
    (h : [x, y] <+: part ++ after) (hpart : ¬ [x, y] <:+: part) (hafter : after.head? ≠ some y) :
    part = [] := by
  match part with
  | [] => rfl
  | [c] =>
    obtain ⟨-, hrest⟩ := List.cons_prefix_cons.mp h
    cases after with
    | nil => exact absurd hrest (by simp)
    | cons d after => exact absurd (congrArg some (List.cons_prefix_cons.mp hrest).1.symm) hafter
  | c :: d :: part =>
    obtain ⟨rfl, hrest⟩ := List.cons_prefix_cons.mp h
    obtain ⟨rfl, -⟩ := List.cons_prefix_cons.mp hrest
    exact absurd ⟨[], part, rfl⟩ hpart

theorem eq_nil_of_pair_end {x y : Char} {before part : List Char}
    (h : [x, y] <:+ before ++ part) (hpart : ¬ [x, y] <:+: part)
    (hbefore : before.getLast? ≠ some x) : part = [] := by
  have hreverse : [y, x] <+: part.reverse ++ before.reverse := by
    rw [← List.reverse_append]
    exact List.reverse_prefix.mpr h
  rw [← List.head?_reverse] at hbefore
  exact List.reverse_eq_nil_iff.mp
    (eq_nil_of_pair_begin hreverse (fun h => hpart (List.reverse_infix.mp h)) hbefore)

end DocPress.Text
