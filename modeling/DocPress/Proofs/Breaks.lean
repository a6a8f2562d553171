import DocPress.Equation

/-! Where equations are split. Breaks are told by a grammar, and the breaks of a text are the first
one, as long as it can be, then those of the text behind it. Each text has one such splitting, and
the scan over its characters finds it. -/

namespace DocPress.Equation

set_option autoImplicit false

universe u

/-! ### Breaks of a text -/

/-- Line ends, each perhaps behind a backslash. -/
inductive LineEnds : List Char → Prop where
  | nil : LineEnds []
  | plain {cs : List Char} (h : LineEnds cs) : LineEnds ('\n' :: cs)
  | escaped {cs : List Char} (h : LineEnds cs) : LineEnds ('\\' :: '\n' :: cs)

/-- A line end behind spaces and a backslash with the line ends that follow, or two and more line
ends. -/
inductive IsBreak : List Char → Prop where
  | marked (spaces : Nat) {ends : List Char} (h : LineEnds ends) :
    IsBreak (List.replicate spaces ' ' ++ '\\' :: '\n' :: ends)
  | blank (more : Nat) : IsBreak (List.replicate (more + 2) '\n')

/-- Whether `part` is the longest beginning of a text that is of a kind, and `after` the rest. -/
structure Longest (P : List Char → Prop) (cs part after : List Char) : Prop where
  split : cs = part ++ after
  holds : P part
  longest : ∀ a b, cs = a ++ b → P a → a.length ≤ part.length

/-- Whether a text has its first break behind `before`, and `after` behind the break. -/
structure FirstBreak (cs before part after : List Char) : Prop where
  split : cs = before ++ part ++ after
  isBreak : IsBreak part
  leftmost : ∀ a b c, cs = a ++ b ++ c → IsBreak b → before.length ≤ a.length
  longest : ∀ b c, part ++ after = b ++ c → IsBreak b → b.length ≤ part.length

/-- The splitting of a text: what stands ahead of its first break, and each break with what stands
behind it. -/
inductive Splits : List Char → List Char → List (List Char × List Char) → Prop where
  | whole {cs : List Char} (h : ∀ a b c, cs = a ++ b ++ c → ¬ IsBreak b) : Splits cs cs []
  | cut {cs first part after next : List Char} {rest : List (List Char × List Char)}
    (h : FirstBreak cs first part after) (hrest : Splits after next rest) :
    Splits cs first ((part, next) :: rest)

theorem IsBreak.ne_nil {part : List Char} (h : IsBreak part) : part ≠ [] := by
  cases h with
  | marked spaces h => simp
  | blank more => simp

theorem LineEnds.mem {ends : List Char} (h : LineEnds ends) :
    ∀ c ∈ ends, c = '\n' ∨ c = '\\' := by
  induction h with
  | nil => exact nofun
  | plain h ih => simpa using ih
  | escaped h ih => simpa using ih

theorem IsBreak.mem {part : List Char} (h : IsBreak part) :
    ∀ c ∈ part, c = ' ' ∨ c = '\n' ∨ c = '\\' := by
  intro c hc
  cases h with
  | marked spaces h =>
    rcases List.mem_append.mp hc with hc | hc
    · exact .inl (List.eq_of_mem_replicate hc)
    · have hends := (h.escaped).mem c hc
      exact .inr hends
  | blank more => exact .inr (.inl (List.eq_of_mem_replicate hc))

namespace FirstBreak

variable {cs before part after before' part' after' : List Char}

theorem eq (h : FirstBreak cs before part after) (h' : FirstBreak cs before' part' after') :
    before = before' ∧ part = part' ∧ after = after' := by
  have hlength : before.length = before'.length :=
    Nat.le_antisymm (h.leftmost _ _ _ h'.split h'.isBreak) (h'.leftmost _ _ _ h.split h.isBreak)
  have hsplit := h.split.symm.trans h'.split
  rw [List.append_assoc, List.append_assoc] at hsplit
  obtain ⟨rfl, hbehind⟩ := List.append_inj hsplit hlength
  have hpart : part.length = part'.length :=
    Nat.le_antisymm (h'.longest _ _ hbehind.symm h.isBreak) (h.longest _ _ hbehind h'.isBreak)
  exact ⟨rfl, List.append_inj hbehind hpart⟩

/-- The first break of a text at whose beginning there is none. -/
theorem cons {c : Char} (hnone : ∀ a b, c :: cs = a ++ b → ¬ IsBreak a)
    (h : FirstBreak cs before part after) : FirstBreak (c :: cs) (c :: before) part after where
  split := by rw [h.split, List.cons_append, List.cons_append]
  isBreak := h.isBreak
  leftmost a b d hsplit hb := by
    cases a with
    | nil => exact absurd hb (hnone b d hsplit)
    | cons x a => exact Nat.succ_le_succ (h.leftmost a b d (List.cons.inj hsplit).2 hb)
  longest := h.longest

theorem of_longest (h : Longest IsBreak cs part after) : FirstBreak cs [] part after where
  split := h.split
  isBreak := h.holds
  leftmost _ _ _ _ _ := Nat.zero_le _
  longest b c hsplit hb := h.longest b c (h.split.trans hsplit) hb

end FirstBreak

namespace Splits

variable {cs first first' : List Char} {rest rest' : List (List Char × List Char)}

/-- A text is split in one way. -/
theorem eq (h : Splits cs first rest) (h' : Splits cs first' rest') :
    first = first' ∧ rest = rest' := by
  induction h generalizing first' rest' with
  | whole hnone =>
    cases h' with
    | whole _ => exact ⟨rfl, rfl⟩
    | cut hbreak _ => exact absurd hbreak.isBreak (hnone _ _ _ hbreak.split)
  | cut hbreak hrest ih =>
    cases h' with
    | whole hnone => exact absurd hbreak.isBreak (hnone _ _ _ hbreak.split)
    | cut hbreak' hrest' =>
      obtain ⟨rfl, rfl, rfl⟩ := hbreak.eq hbreak'
      obtain ⟨rfl, rfl⟩ := ih hrest'
      exact ⟨rfl, rfl⟩

theorem cons {c : Char} (hnone : ∀ a b, c :: cs = a ++ b → ¬ IsBreak a)
    (h : Splits cs first rest) : Splits (c :: cs) (c :: first) rest := by
  cases h with
  | whole hfree =>
    refine .whole fun a b d hsplit hb => ?_
    cases a with
    | nil => exact hnone b d hsplit hb
    | cons x a => exact hfree a b d (List.cons.inj hsplit).2 hb
  | cut hbreak hrest => exact .cut (hbreak.cons hnone) hrest

end Splits

/-! ### The scan for a break -/

namespace LineEnds

variable {cs part after : List Char}

theorem longest_plain (h : Longest LineEnds cs part after) :
    Longest LineEnds ('\n' :: cs) ('\n' :: part) after where
  split := by rw [h.split, List.cons_append]
  holds := h.holds.plain
  longest a b hsplit ha := by
    cases ha with
    | nil => exact Nat.zero_le _
    | plain ha => exact Nat.succ_le_succ (h.longest _ b (List.cons.inj hsplit).2 ha)
    | escaped ha => exact absurd (List.cons.inj hsplit).1 (by decide)

theorem longest_escaped (h : Longest LineEnds cs part after) :
    Longest LineEnds ('\\' :: '\n' :: cs) ('\\' :: '\n' :: part) after where
  split := by rw [h.split, List.cons_append, List.cons_append]
  holds := h.holds.escaped
  longest a b hsplit ha := by
    cases ha with
    | nil => exact Nat.zero_le _
    | plain ha => exact absurd (List.cons.inj hsplit).1 (by decide)
    | escaped ha =>
      have hbehind := (List.cons.inj (List.cons.inj hsplit).2).2
      exact Nat.succ_le_succ (Nat.succ_le_succ (h.longest _ b hbehind ha))

theorem longest_none (hplain : ∀ rest, cs ≠ '\n' :: rest)
    (hescaped : ∀ rest, cs ≠ '\\' :: '\n' :: rest) : Longest LineEnds cs [] cs where
  split := rfl
  holds := .nil
  longest a b hsplit ha := by
    cases ha with
    | nil => exact Nat.le_refl _
    | plain ha => exact absurd hsplit (hplain _)
    | escaped ha => exact absurd hsplit (hescaped _)

end LineEnds

@[simp] theorem shows_some (c d : Char) : shows some c d = (d == c) := by
  simp [shows]

theorem furtherBreaks_longest : ∀ cs : List Char, ∃ part after,
    Longest LineEnds cs part after ∧ furtherBreaks some cs = (part.length, part.count '\n')
  | [] => ⟨[], [], LineEnds.longest_none nofun nofun, rfl⟩
  | [c] => by
    by_cases hc : c = '\n'
    · subst hc
      exact ⟨['\n'], [], LineEnds.longest_plain (LineEnds.longest_none nofun nofun), rfl⟩
    · refine ⟨[], [c], LineEnds.longest_none ?_ nofun, by simp [furtherBreaks, hc]⟩
      exact fun rest h => hc (List.cons.inj h).1
  | c :: d :: rest => by
    by_cases hc : c = '\n'
    · subst hc
      obtain ⟨part, after, hlongest, heq⟩ := furtherBreaks_longest (d :: rest)
      refine ⟨'\n' :: part, after, LineEnds.longest_plain hlongest, ?_⟩
      simp [furtherBreaks, heq]
    · by_cases hmarked : c = '\\' ∧ d = '\n'
      · obtain ⟨rfl, rfl⟩ := hmarked
        obtain ⟨part, after, hlongest, heq⟩ := furtherBreaks_longest rest
        refine ⟨'\\' :: '\n' :: part, after, LineEnds.longest_escaped hlongest, ?_⟩
        simp [furtherBreaks, heq]
      · refine ⟨[], c :: d :: rest, LineEnds.longest_none ?_ ?_, ?_⟩
        · exact fun rest h => hc (List.cons.inj h).1
        · intro rest h
          exact hmarked ⟨(List.cons.inj h).1, (List.cons.inj (List.cons.inj h).2).1⟩
        · simp only [furtherBreaks, shows_some, beq_iff_eq, hc, if_false, Bool.and_eq_true, hmarked]
          rfl

/-- Nothing but the same run of a character stands ahead of another one. -/
theorem replicate_append_cons {c d e : Char} (hd : d ≠ c) (he : e ≠ c) {m n : Nat}
    {a b : List Char} (h : List.replicate m c ++ d :: a = List.replicate n c ++ e :: b) :
    m = n ∧ d :: a = e :: b := by
  induction m generalizing n with
  | zero =>
    cases n with
    | zero => exact ⟨rfl, h⟩
    | succ n => exact absurd (List.cons.inj h).1 hd
  | succ m ih =>
    cases n with
    | zero => exact absurd (List.cons.inj h).1.symm he
    | succ n =>
      obtain ⟨rfl, heq⟩ := ih (List.cons.inj h).2
      exact ⟨rfl, heq⟩

/-- A text is a run of a character, and what does not begin with it. -/
theorem eq_replicate_append (c : Char) (cs : List Char) :
    ∃ rest, cs = List.replicate (cs.takeWhile (shows some c)).length c ++ rest ∧
      rest.head? ≠ some c := by
  induction cs with
  | nil => exact ⟨[], rfl, nofun⟩
  | cons d cs ih =>
    by_cases hd : d = c
    · subst hd
      obtain ⟨rest, hrest, hhead⟩ := ih
      refine ⟨rest, ?_, hhead⟩
      simp only [List.takeWhile_cons, shows_some, beq_self_eq_true, if_true, List.length_cons,
        List.replicate_succ, List.cons_append]
      exact congrArg (d :: ·) hrest
    · refine ⟨d :: cs, ?_, fun h => hd (Option.some.inj h)⟩
      simp [hd]

theorem le_of_replicate_append {c : Char} {m n : Nat} {a b : List Char}
    (h : List.replicate m c ++ a = List.replicate n c ++ b) (hb : b.head? ≠ some c) : m ≤ n := by
  induction m generalizing n with
  | zero => exact Nat.zero_le n
  | succ m ih =>
    cases n with
    | zero =>
      rw [List.replicate_zero, List.nil_append] at h
      exact absurd (congrArg List.head? h.symm) hb
    | succ n => exact Nat.succ_le_succ (ih (List.cons.inj h).2)

/-- Whether a text begins with spaces, a backslash and a line end. -/
def BeginsMarked (cs : List Char) : Prop :=
  ∃ spaces rest, cs = List.replicate spaces ' ' ++ '\\' :: '\n' :: rest

theorem IsBreak.eq_blank {cs a b : List Char} (ha : IsBreak a) (hsplit : cs = a ++ b)
    (hmarked : ¬ BeginsMarked cs) : ∃ more, a = List.replicate (more + 2) '\n' := by
  cases ha with
  | marked spaces h =>
    rw [List.append_assoc] at hsplit
    exact absurd ⟨spaces, _, hsplit⟩ hmarked
  | blank more => exact ⟨more, rfl⟩

/-- The scan for line ends, where no line end behind a backslash begins. -/
theorem blankLines?_longest {cs : List Char} (hmarked : ¬ BeginsMarked cs) :
    (∃ part after, Longest IsBreak cs part after ∧
      blankLines? some cs = some (part.length, part.count '\n')) ∨
    (∀ a b, cs = a ++ b → ¬ IsBreak a) ∧ blankLines? some cs = none := by
  obtain ⟨rest, hrun, hhead⟩ := eq_replicate_append '\n' cs
  rw [blankLines?]
  generalize (cs.takeWhile (shows some '\n')).length = n at hrun ⊢
  have hshort (a b : List Char) (hsplit : cs = a ++ b) (ha : IsBreak a) :
      a.length ≤ n ∧ 2 ≤ a.length := by
    obtain ⟨more, rfl⟩ := ha.eq_blank hsplit hmarked
    have hle := le_of_replicate_append (hsplit.symm.trans hrun) hhead
    simpa using hle
  by_cases hn : 2 ≤ n
  · obtain ⟨more, rfl⟩ := Nat.exists_eq_add_of_le' hn
    refine .inl ⟨List.replicate (more + 2) '\n', rest, ⟨hrun, .blank more, ?_⟩, ?_⟩
    · intro a b hsplit ha
      simpa using (hshort a b hsplit ha).1
    · simp
  · refine .inr ⟨fun a b hsplit ha => ?_, by simp [hn]⟩
    have hlength := hshort a b hsplit ha
    omega

/-- Two line ends stand ahead of no space, and are no part of anything shorter. -/
theorem blank_ne_spaces {more spaces : Nat} {a rest : List Char}
    (h : ∀ tail, rest ≠ '\n' :: '\n' :: tail) :
    List.replicate (more + 2) '\n' ++ a ≠ List.replicate spaces ' ' ++ rest := by
  intro heq
  cases spaces with
  | zero => exact h _ heq.symm
  | succ spaces => exact absurd (List.cons.inj heq).1 (by decide)

theorem BeginsMarked.behind_spaces {spaces : Nat} {rest : List Char}
    (h : BeginsMarked (List.replicate spaces ' ' ++ rest)) (hhead : rest.head? ≠ some ' ') :
    ∃ tail, rest = '\\' :: '\n' :: tail := by
  obtain ⟨before, tail, hmarked⟩ := h
  cases rest with
  | nil =>
    have hmem : '\\' ∈ List.replicate spaces ' ' := by
      rw [← List.append_nil (List.replicate spaces ' '), hmarked]
      simp
    exact absurd (List.eq_of_mem_replicate hmem) (by decide)
  | cons c rest =>
    have hc : c ≠ ' ' := fun heq => hhead (congrArg some heq)
    obtain ⟨_, heq⟩ := replicate_append_cons (by decide) hc hmarked.symm
    exact ⟨tail, heq.symm⟩

theorem LineEnds.longest_marked {cs part after : List Char} (h : Longest LineEnds cs part after)
    (spaces : Nat) : Longest IsBreak (List.replicate spaces ' ' ++ '\\' :: '\n' :: cs)
      (List.replicate spaces ' ' ++ '\\' :: '\n' :: part) after where
  split := by simp [h.split]
  holds := .marked spaces h.holds
  longest a b hsplit ha := by
    cases ha with
    | marked before hends =>
      rw [List.append_assoc] at hsplit
      obtain ⟨rfl, heq⟩ := replicate_append_cons (by decide) (by decide) hsplit.symm
      have hle := h.longest _ b (List.cons.inj (List.cons.inj heq).2).2.symm hends
      simpa using hle
    | blank more => exact absurd hsplit.symm (blank_ne_spaces (by simp))

/-- The scan finds the longest break that a text begins with, if it begins with one. -/
theorem break?_longest (cs : List Char) :
    (∃ part after, Longest IsBreak cs part after ∧
      break? some cs = some (part.length, part.count '\n')) ∨
    (∀ a b, cs = a ++ b → ¬ IsBreak a) ∧ break? some cs = none := by
  obtain ⟨rest, hrun, hhead⟩ := eq_replicate_append ' ' cs
  rw [break?]
  generalize (cs.takeWhile (shows some ' ')).length = spaces at hrun ⊢
  subst hrun
  rw [List.drop_left' (List.length_replicate ..)]
  have hbegins (h : BeginsMarked (List.replicate spaces ' ' ++ rest)) := h.behind_spaces hhead
  match rest, hbegins with
  | [], hbegins =>
    refine .inr ⟨fun a b hsplit ha => ?_, rfl⟩
    obtain ⟨more, rfl⟩ := ha.eq_blank hsplit fun h => absurd (hbegins h) nofun
    exact absurd hsplit.symm (blank_ne_spaces nofun)
  | [c], hbegins =>
    refine .inr ⟨fun a b hsplit ha => ?_, rfl⟩
    obtain ⟨more, rfl⟩ := ha.eq_blank hsplit fun h => absurd (hbegins h) nofun
    exact absurd hsplit.symm (blank_ne_spaces (by simp))
  | c :: d :: tail, hbegins =>
    by_cases hmark : c = '\\' ∧ d = '\n'
    · obtain ⟨rfl, rfl⟩ := hmark
      obtain ⟨part, after, hlongest, hfurther⟩ := furtherBreaks_longest tail
      refine .inl ⟨_, after, LineEnds.longest_marked hlongest spaces, ?_⟩
      have hcount : (List.replicate spaces ' ').count '\n' = 0 :=
        List.count_eq_zero.mpr fun hm => absurd (List.eq_of_mem_replicate hm) (by decide)
      simp [hfurther, hcount]
      omega
    · have hmarked : ¬ BeginsMarked (List.replicate spaces ' ' ++ c :: d :: tail) := by
        intro h
        obtain ⟨tail', heq⟩ := hbegins h
        exact hmark ⟨(List.cons.inj heq).1, (List.cons.inj (List.cons.inj heq).2).1⟩
      have hblank := blankLines?_longest hmarked
      simpa [hmark] using hblank

/-! ### Texts of glyphs -/

section

variable {α : Type u} {glyph? : α → Option Char} {g : Char → α}

theorem takeWhile_shows (hg : ∀ c, glyph? (g c) = some c) (d : Char) (cs : List Char) :
    (cs.map g).takeWhile (shows glyph? d) = (cs.takeWhile (shows some d)).map g := by
  have hshows : shows glyph? d ∘ g = shows some d := by
    funext c
    simp [shows, hg]
  rw [List.takeWhile_map, hshows]

theorem furtherBreaks_map (hg : ∀ c, glyph? (g c) = some c) :
    ∀ cs : List Char, furtherBreaks glyph? (cs.map g) = furtherBreaks some cs
  | [] => rfl
  | [c] => by simp [furtherBreaks, shows, hg]
  | c :: d :: rest => by
    have hline := furtherBreaks_map hg (d :: rest)
    have hmarked := furtherBreaks_map hg rest
    rw [List.map_cons] at hline
    simp [furtherBreaks, shows, hg, hline, hmarked]

theorem break?_map (hg : ∀ c, glyph? (g c) = some c) (cs : List Char) :
    break? glyph? (cs.map g) = break? some cs := by
  have hblank : blankLines? glyph? (cs.map g) = blankLines? some cs := by
    rw [blankLines?, blankLines?, takeWhile_shows hg, List.length_map]
  rw [break?, break?, takeWhile_shows hg, List.length_map, ← List.map_drop, hblank]
  match cs.drop (cs.takeWhile (shows some ' ')).length with
  | [] => rfl
  | [c] => rfl
  | c :: d :: rest => simp [shows, hg, furtherBreaks_map hg rest]

theorem splitAt_skip (joint : Nat → List α) (part after : List α) :
    splitAt glyph? joint part.length (part ++ after) = splitAt glyph? joint 0 after := by
  induction part with
  | nil => rfl
  | cons a part ih => rw [List.length_cons, List.cons_append, splitAt, ih]

/-- A text with joints in the place of its breaks. -/
def joined (g : Char → α) (joint : Nat → List α) (first : List Char)
    (rest : List (List Char × List Char)) : List α :=
  first.map g ++ rest.flatMap fun p => joint (p.1.count '\n') ++ p.2.map g

/-- Every text has a splitting, and the scan puts a joint in the place of each break of it. -/
theorem splitAt_joined (hg : ∀ c, glyph? (g c) = some c) (joint : Nat → List α) :
    ∀ cs : List Char, ∃ first rest, Splits cs first rest ∧
      splitAt glyph? joint 0 (cs.map g) = joined g joint first rest
  | [] => by
    refine ⟨[], [], .whole fun a b c hsplit hb => hb.ne_nil ?_, rfl⟩
    exact (List.append_eq_nil_iff.mp (List.append_eq_nil_iff.mp hsplit.symm).1).2
  | c :: cs => by
    have hscan := break?_map hg (c :: cs)
    rw [List.map_cons] at hscan ⊢
    rcases break?_longest (c :: cs) with ⟨part, after, hlongest, hbreak⟩ | ⟨hnone, hbreak⟩
    · match part, hlongest, hbreak with
      | [], hlongest, _ => exact absurd rfl hlongest.holds.ne_nil
      | d :: part, hlongest, hbreak =>
        have hsplit := hlongest.split
        rw [List.cons_append] at hsplit
        obtain ⟨rfl, hbehind⟩ := List.cons.inj hsplit
        have hshorter : after.length < (c :: cs).length := by
          rw [hbehind, List.length_cons, List.length_append]
          omega
        obtain ⟨first, rest, hsplits, heq⟩ := splitAt_joined hg joint after
        refine ⟨[], (c :: part, first) :: rest, .cut (.of_longest hlongest) hsplits, ?_⟩
        have hskip : splitAt glyph? joint ((c :: part).length - 1) (cs.map g) =
            splitAt glyph? joint 0 (after.map g) := by
          rw [hbehind, List.map_append, ← splitAt_skip joint (part.map g), List.length_map]
          rfl
        rw [splitAt, hscan, hbreak]
        simp only [hskip, heq, joined, List.map_nil, List.nil_append, List.flatMap_cons,
          List.append_assoc]
    · obtain ⟨first, rest, hsplits, heq⟩ := splitAt_joined hg joint cs
      refine ⟨c :: first, rest, hsplits.cons hnone, ?_⟩
      rw [splitAt, hscan, hbreak]
      simp only [heq, joined, List.map_cons, List.cons_append]
termination_by cs => cs.length

end

end DocPress.Equation
