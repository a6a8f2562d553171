import DocPress.Config.Load

/-! What variables stand for in a setting. A text is read into its references and the characters
between them in one way. The scan reads it in this way as long as no other dollar sign has a meaning
of its own, and otherwise expands it to something else in some environment. -/

namespace DocPress

set_option autoImplicit false

namespace Segment

/-! ### References -/

/-- Names end ahead of the closing brace and of the mark of a default. -/
structure IsName (name : List Char) : Prop where
  nonempty : name ≠ []
  unclosed : '\x7d' ∉ name
  unmarked : ¬ [':', '-'] <:+: name

/-- What stands between the braces of a reference. -/
def body (name : String) : Option String → List Char
  | none => name.toList
  | some default => name.toList ++ ':' :: '-' :: default.toList

/-- A segment as it stands in a setting. -/
def written : Segment → List Char
  | .char c => [c]
  | .variable name default => '$' :: '\x7b' :: (body name default ++ ['\x7d'])

/-- Whether a segment is a reference to a variable, perhaps with a default. -/
inductive IsReference : Segment → Prop where
  | named {name : String} {default : Option String} (hname : IsName name.toList)
    (hdefault : ∀ value, default = some value → '\x7d' ∉ value.toList) :
    IsReference (.variable name default)

/-- The reading of a text: a reference where one begins, and otherwise a character. -/
inductive Reads : List Char → List Segment → Prop where
  | nil : Reads [] []
  | reference {s : Segment} {cs rest : List Char} {segments : List Segment} (hs : s.IsReference)
    (hcs : cs = s.written ++ rest) (h : Reads rest segments) : Reads cs (s :: segments)
  | char {c : Char} {rest : List Char} {segments : List Segment}
    (hnone : ∀ s tail, IsReference s → c :: rest ≠ s.written ++ tail) (h : Reads rest segments) :
    Reads (c :: rest) (.char c :: segments)

/-- Whether a dollar sign ahead of these characters stands for nothing but itself. -/
def Inert : List Char → Prop
  | [] => True
  | '\x7b' :: tail => '\x7d' ∉ tail
  | c :: _ => c ≠ '$' ∧ isNameChar c = false

/-- Whether every dollar sign outside of the references stands for nothing but itself. -/
def DollarsInert : List Segment → Prop
  | [] => True
  | s :: rest => (s = .char '$' → Inert (rest.flatMap written)) ∧ DollarsInert rest

theorem Reads.written {cs : List Char} {segments : List Segment} (h : Reads cs segments) :
    segments.flatMap Segment.written = cs := by
  induction h with
  | nil => rfl
  | reference hs hcs h ih => rw [List.flatMap_cons, ih, hcs]
  | char hnone h ih => rw [List.flatMap_cons, ih]; rfl

theorem written_ne_nil (s : Segment) : s.written ≠ [] := by
  cases s <;> exact List.cons_ne_nil _ _

/-- Every text has a reading. -/
theorem exists_reads : ∀ cs : List Char, ∃ segments, Reads cs segments
  | [] => ⟨[], .nil⟩
  | c :: rest => by
    by_cases hreference : ∃ s tail, IsReference s ∧ c :: rest = s.written ++ tail
    · obtain ⟨s, tail, hs, hcs⟩ := hreference
      have hshorter : tail.length ≤ rest.length := by
        have hlength := congrArg List.length hcs
        have hpos := List.length_pos_iff.mpr s.written_ne_nil
        rw [List.length_cons, List.length_append] at hlength
        omega
      obtain ⟨segments, h⟩ := exists_reads tail
      exact ⟨s :: segments, .reference hs hcs h⟩
    · obtain ⟨segments, h⟩ := exists_reads rest
      exact ⟨.char c :: segments, .char (fun s tail hs hcs => hreference ⟨s, tail, hs, hcs⟩) h⟩
termination_by cs => cs.length

/-! ### The scan over a reference -/

theorem cutDefault?_cons {c : Char} {cs : List Char} (h : ¬ [':', '-'] <+: c :: cs) :
    cutDefault? (c :: cs) = (cutDefault? cs).map fun p => (c :: p.1, p.2) := by
  conv => lhs; unfold cutDefault?
  split
  · rename_i heq
    exact absurd heq (by simp)
  · rename_i rest heq
    exact absurd ⟨rest, heq.symm⟩ h
  · rename_i heq
    obtain ⟨rfl, rfl⟩ := List.cons.inj heq
    rfl

theorem cutDefault?_unmarked {cs : List Char} (h : ¬ [':', '-'] <:+: cs) :
    cutDefault? cs = none := by
  induction cs with
  | nil => rfl
  | cons c cs ih =>
    have hrest : ¬ [':', '-'] <:+: cs := fun hm => h (hm.trans (List.suffix_cons c cs).isInfix)
    rw [cutDefault?_cons fun hbegin => h hbegin.isInfix, ih hrest]
    rfl

theorem cutDefault?_marked {name : List Char} (h : ¬ [':', '-'] <:+: name) (default : List Char) :
    cutDefault? (name ++ ':' :: '-' :: default) = some (name, default) := by
  induction name with
  | nil => rfl
  | cons c name ih =>
    have hrest : ¬ [':', '-'] <:+: name := fun hm => h (hm.trans (List.suffix_cons c name).isInfix)
    have hbegin : ¬ [':', '-'] <+: c :: (name ++ ':' :: '-' :: default) := by
      intro hbegin
      rw [← List.cons_append] at hbegin
      exact List.cons_ne_nil c name (Text.eq_nil_of_pair_begin hbegin h (by simp))
    rw [List.cons_append, cutDefault?_cons hbegin, ih hrest]
    rfl

variable {name : String} {default : Option String}

theorem ofBody_body (h : IsReference (.variable name default)) :
    ofBody (body name default) = .variable name default := by
  obtain ⟨hname, hdefault⟩ := h
  cases default with
  | none => rw [body, ofBody, cutDefault?_unmarked hname.unmarked, String.ofList_toList]
  | some value =>
    have hcut := cutDefault?_marked hname.unmarked value.toList
    rw [body, ofBody, hcut]
    cases hchars : name.toList with
    | nil => exact absurd hchars hname.nonempty
    | cons c chars =>
      simp only [← hchars, String.ofList_toList]

theorem not_mem_body (h : IsReference (.variable name default)) :
    '\x7d' ∉ body name default := by
  obtain ⟨hname, hdefault⟩ := h
  cases default with
  | none => exact hname.unclosed
  | some value => simp [body, hname.unclosed, hdefault value rfl]

theorem afterDollar_reference (h : IsReference (.variable name default)) (rest : List Char) :
    afterDollar ('\x7b' :: (body name default ++ '\x7d' :: rest)) =
      (.variable name default, (body name default).length + 2) := by
  rw [afterDollar, Text.cut_of_not_mem (not_mem_body h)]
  exact congrArg (·, _) (ofBody_body h)

theorem scan_skip (part after : List Char) :
    scan part.length (part ++ after) = scan 0 after := by
  induction part with
  | nil => rfl
  | cons c part ih => rw [List.length_cons, List.cons_append, scan, ih]

/-- A reference is scanned as what it is, whatever stands behind it. -/
theorem scan_reference {s : Segment} (hs : s.IsReference) (rest : List Char) :
    scan 0 (s.written ++ rest) = s :: scan 0 rest := by
  match s, hs with
  | .variable name default, hs =>
    have hbehind : '\x7b' :: (body name default ++ ['\x7d']) ++ rest =
        '\x7b' :: (body name default ++ '\x7d' :: rest) := by simp
    have hskip := scan_skip ('\x7b' :: (body name default ++ ['\x7d'])) rest
    rw [written, List.cons_append, scan, if_pos rfl, hbehind, afterDollar_reference hs]
    rw [hbehind] at hskip
    simpa using hskip

/-- A text begins with one reference at most. -/
theorem IsReference.eq {s s' : Segment} (hs : s.IsReference) (hs' : s'.IsReference)
    {rest rest' : List Char} (h : s.written ++ rest = s'.written ++ rest') :
    s = s' ∧ rest = rest' := by
  have hscan := congrArg (scan 0) h
  rw [scan_reference hs, scan_reference hs'] at hscan
  obtain rfl := (List.cons.inj hscan).1
  exact ⟨rfl, List.append_cancel_left h⟩

/-- A text has one reading at most. -/
theorem Reads.eq {cs : List Char} {segments segments' : List Segment} (h : Reads cs segments)
    (h' : Reads cs segments') : segments = segments' := by
  induction h generalizing segments' with
  | nil =>
    cases h' with
    | nil => rfl
    | reference hs hcs _ =>
      exact absurd (List.append_eq_nil_iff.mp hcs.symm).1 (written_ne_nil _)
  | reference hs hcs h ih =>
    cases h' with
    | nil => exact absurd (List.append_eq_nil_iff.mp hcs.symm).1 (written_ne_nil _)
    | reference hs' hcs' h' =>
      obtain ⟨rfl, rfl⟩ := hs.eq hs' (hcs.symm.trans hcs')
      rw [ih h']
    | char hnone _ => exact absurd hcs (hnone _ _ hs)
  | char hnone h ih =>
    cases h' with
    | reference hs hcs _ => exact absurd hcs (hnone _ _ hs)
    | char _ h' => rw [ih h']

/-! ### The scan over other dollar signs -/

theorem afterDollar_brace (tail : List Char) : afterDollar ('\x7b' :: tail) =
    match Text.cut '\x7d' tail with
    | some (body, _) => (ofBody body, body.length + 2)
    | none => (.char '$', 0) := rfl

/-- A dollar sign ahead of anything but a brace and another one begins a name, if there is one. -/
theorem afterDollar_other {c : Char} (hbrace : c ≠ '\x7b') (hdollar : c ≠ '$') (tail : List Char) :
    afterDollar (c :: tail) =
      if isNameChar c then
        (.variable (String.ofList (c :: tail.takeWhile isNameChar)) none,
          (tail.takeWhile isNameChar).length + 1)
      else (.char '$', 0) := by
  unfold afterDollar
  split
  · rename_i heq
    exact absurd (List.cons.inj heq).1 hbrace
  · rename_i heq
    exact absurd (List.cons.inj heq).1 hdollar
  · by_cases hname : isNameChar c = true
    · simp [hname]
    · simp [hname]

theorem inert_other {c : Char} (hbrace : c ≠ '\x7b') (tail : List Char) :
    Inert (c :: tail) ↔ c ≠ '$' ∧ isNameChar c = false := by
  unfold Inert
  split
  · rename_i heq
    exact absurd heq nofun
  · rename_i heq
    exact absurd (List.cons.inj heq).1 hbrace
  · rename_i heq
    rw [(List.cons.inj heq).1]

theorem exists_ofBody (body : List Char) :
    ∃ name default, ofBody body = .variable name default := by
  unfold ofBody
  split <;> exact ⟨_, _, rfl⟩

/-- A dollar sign stands for itself, is taken with the one behind it, or begins a variable. -/
theorem afterDollar_cases : ∀ rest : List Char,
    (Inert rest ∧ afterDollar rest = (.char '$', 0)) ∨
    (¬ Inert rest ∧ ((∃ tail, rest = '$' :: tail ∧ afterDollar rest = (.char '$', 1)) ∨
      ∃ name default taken, afterDollar rest = (.variable name default, taken)))
  | [] => .inl ⟨trivial, rfl⟩
  | c :: tail => by
    by_cases hbrace : c = '\x7b'
    · subst hbrace
      rw [afterDollar_brace]
      cases hcut : Text.cut '\x7d' tail with
      | none => exact .inl ⟨Text.cut_eq_none.mp hcut, rfl⟩
      | some p =>
        have hclosed : ¬ Inert ('\x7b' :: tail) := fun h => by
          rw [Text.cut_eq_none.mpr h] at hcut
          exact absurd hcut nofun
        obtain ⟨name, default, hbody⟩ := exists_ofBody p.1
        exact .inr ⟨hclosed, .inr ⟨name, default, p.1.length + 2, congrArg (·, _) hbody⟩⟩
    · by_cases hdollar : c = '$'
      · subst hdollar
        refine .inr ⟨fun h => ((inert_other hbrace tail).mp h).1 rfl, .inl ⟨tail, rfl, rfl⟩⟩
      · rw [afterDollar_other hbrace hdollar, inert_other hbrace]
        cases hname : isNameChar c with
        | false => exact .inl ⟨⟨hdollar, rfl⟩, rfl⟩
        | true => exact .inr ⟨fun h => absurd h.2 nofun, .inr ⟨_, _, _, rfl⟩⟩

theorem scan_dollar (rest : List Char) :
    scan 0 ('$' :: rest) = (afterDollar rest).1 :: scan (afterDollar rest).2 rest := rfl

theorem scan_char {c : Char} (h : c ≠ '$') (rest : List Char) :
    scan 0 (c :: rest) = .char c :: scan 0 rest := if_neg h

/-- A text whose other dollar signs have no meaning is scanned as it is read. -/
theorem Reads.scan_eq {cs : List Char} {segments : List Segment} (h : Reads cs segments)
    (hinert : DollarsInert segments) : scan 0 cs = segments := by
  induction h with
  | nil => rfl
  | reference hs hcs h ih => rw [hcs, scan_reference hs, ih hinert.2]
  | @char c rest segments hnone h ih =>
    by_cases hdollar : c = '$'
    · subst hdollar
      have hrest := hinert.1 rfl
      rw [h.written] at hrest
      rcases afterDollar_cases rest with ⟨-, hafter⟩ | ⟨hmeant, -⟩
      · rw [scan_dollar, hafter, ih hinert.2]
      · exact absurd hrest hmeant
    · rw [scan_char hdollar, ih hinert.2]

/-! ### Readings told apart -/

/-- The character that a segment leaves when every variable has the value `x`. -/
def mark : Segment → Char
  | .char c => c
  | .variable _ _ => 'x'

theorem Reads.dollar {rest : List Char} {segments : List Segment}
    (h : Reads ('$' :: rest) segments) :
    (∃ s after, segments = s :: after ∧ mark s = 'x' ∧ ∃ tail, rest = '\x7b' :: tail) ∨
      ∃ after, segments = .char '$' :: after ∧ Reads rest after := by
  cases h with
  | @reference s _ tail after hs hcs _ =>
    cases hs with
    | named _ _ => exact .inl ⟨_, after, rfl, rfl, _, (List.cons.inj hcs).2⟩
  | char _ h => exact .inr ⟨_, rfl, h⟩

/-- Where dollar signs are left over, no later part of the text makes up for them. -/
theorem Reads.marks_ne : ∀ (cs : List Char) (n : Nat) {segments : List Segment},
    Reads (List.replicate (n + 1) '$' ++ cs) segments →
    segments.map mark ≠ (scan 0 cs).map mark
  | [], n, segments, h => fun hmarks => by
    obtain rfl : segments = [] := List.map_eq_nil_iff.mp hmarks
    exact absurd h.written nofun
  | c :: cs, n, segments, h => fun hmarks => by
    rw [List.replicate_succ, List.cons_append] at h
    rcases h.dollar with ⟨s, after, rfl, hs, tail, hbrace⟩ | ⟨after, rfl, hafter⟩
    · cases n with
      | zero =>
        obtain rfl : c = '\x7b' := (List.cons.inj hbrace).1
        rw [scan_char (by decide)] at hmarks
        exact absurd (hs.symm.trans (List.cons.inj hmarks).1) (by decide)
      | succ n => exact absurd (List.cons.inj hbrace).1 (by decide)
    · by_cases hdollar : c = '$'
      · subst hdollar
        have hmore : Reads (List.replicate (n + 1) '$' ++ cs) after := by
          rw [List.replicate_succ', List.append_assoc]
          exact hafter
        rw [scan_dollar] at hmarks
        rcases afterDollar_cases cs with
          ⟨-, hcs⟩ | ⟨-, ⟨tail, rfl, hcs⟩ | ⟨name, default, taken, hcs⟩⟩
        · rw [hcs] at hmarks
          exact Reads.marks_ne cs n hmore (List.cons.inj hmarks).2
        · rw [hcs] at hmarks
          refine Reads.marks_ne tail (n + 1) ?_ (List.cons.inj hmarks).2
          rw [List.replicate_succ', List.append_assoc]
          exact hmore
        · rw [hcs] at hmarks
          exact absurd (List.cons.inj hmarks).1 (by decide : '$' ≠ 'x')
      · rw [scan_char hdollar] at hmarks
        exact hdollar (List.cons.inj hmarks).1.symm
termination_by cs => cs.length

/-- A text that is scanned as it is read has no other dollar signs with a meaning. -/
theorem Reads.inert_of_marks {cs : List Char} {segments : List Segment} (h : Reads cs segments)
    (hmarks : (scan 0 cs).map mark = segments.map mark) : DollarsInert segments := by
  induction h with
  | nil => trivial
  | @reference s cs rest segments hs hcs h ih =>
    rw [hcs, scan_reference hs] at hmarks
    refine ⟨?_, ih (List.cons.inj hmarks).2⟩
    rintro rfl
    exact absurd hs nofun
  | @char c rest segments hnone h ih =>
    by_cases hdollar : c = '$'
    · subst hdollar
      rw [scan_dollar] at hmarks
      rcases afterDollar_cases rest with ⟨hinert, hafter⟩ | ⟨-, hmeant⟩
      · rw [hafter] at hmarks
        refine ⟨fun _ => ?_, ih (List.cons.inj hmarks).2⟩
        rw [h.written]
        exact hinert
      · rcases hmeant with ⟨tail, rfl, hafter⟩ | ⟨name, default, taken, hafter⟩
        · rw [hafter] at hmarks
          exact absurd (List.cons.inj hmarks).2.symm (Reads.marks_ne tail 0 h)
        · rw [hafter] at hmarks
          exact absurd (List.cons.inj hmarks).1 (by decide : 'x' ≠ '$')
    · rw [scan_char hdollar] at hmarks
      refine ⟨fun heq => absurd (Segment.char.inj heq) hdollar, ih (List.cons.inj hmarks).2⟩

/-! ### Values -/

/-- What a segment stands for: a character for itself, a variable for its value or its default. -/
def value? (env : Environment) : Segment → Option (List Char)
  | .char c => some [c]
  | .variable name default => (env.get? name <|> default).map String.toList

theorem expand_of_value {env : Environment} {s : Segment} {part : List Char}
    (h : s.value? env = some part) : s.expand env = .ok (String.ofList part) := by
  cases s with
  | char c =>
    obtain rfl := Option.some.inj h
    rfl
  | «variable» name default =>
    cases hget : env.get? name with
    | some value =>
      rw [value?, hget] at h
      obtain rfl := Option.some.inj h
      simp [expand, hget]
    | none =>
      rw [value?, hget] at h
      obtain ⟨value, rfl, rfl⟩ := Option.map_eq_some_iff.mp h
      simp [expand, hget]

theorem expand_of_unset {env : Environment} {name : String} {default : Option String}
    (h : (Segment.variable name default).value? env = none) :
    (Segment.variable name default).expand env = .error name := by
  rw [value?, Option.map_eq_none_iff] at h
  cases hget : env.get? name with
  | some value => simp [hget] at h
  | none =>
    rw [hget] at h
    obtain rfl : default = none := h
    simp [expand, hget]

/-- Segments are expanded one after the other, up to the first variable without a value. -/
theorem mapM_expand (env : Environment) : ∀ segments : List Segment,
    (∃ parts, segments.mapM (value? env) = some parts ∧
      segments.mapM (expand env) = .ok (parts.map String.ofList)) ∨
    ∃ before name default after, segments = before ++ .variable name default :: after ∧
      (∀ s ∈ before, (s.value? env).isSome) ∧ (Segment.variable name default).value? env = none ∧
      segments.mapM (expand env) = .error name
  | [] => .inl ⟨[], rfl, rfl⟩
  | s :: segments => by
    cases hvalue : s.value? env with
    | some part =>
      have hexpand := expand_of_value hvalue
      rcases mapM_expand env segments with
        ⟨parts, hparts, hrest⟩ | ⟨before, name, default, after, rfl, hbefore, hunset, hrest⟩
      · refine .inl ⟨part :: parts, ?_, ?_⟩
        · simp [List.mapM_cons, hvalue, hparts]
        · simp only [List.mapM_cons, hexpand, hrest]
          rfl
      · refine .inr ⟨s :: before, name, default, after, rfl, ?_, hunset, ?_⟩
        · exact List.forall_mem_cons.mpr ⟨by rw [hvalue]; rfl, hbefore⟩
        · simp only [List.mapM_cons, hexpand, hrest]
          rfl
    | none =>
      match s, hvalue with
      | .variable name default, hvalue =>
        refine .inr ⟨[], name, default, segments, rfl, nofun, hvalue, ?_⟩
        simp only [List.mapM_cons, expand_of_unset hvalue]
        rfl

/-- Whether `x` is the value of every variable. -/
def Marked (env : Environment) (segments : List Segment) : Prop :=
  ∀ name default, .variable name default ∈ segments → env.get? name = some "x"

theorem exists_marked (segments : List Segment) : ∃ env, Marked env segments := by
  induction segments with
  | nil => exact ⟨∅, nofun⟩
  | cons s segments ih =>
    obtain ⟨env, henv⟩ := ih
    cases s with
    | char c =>
      refine ⟨env, fun name default hm => henv name default ?_⟩
      exact (List.mem_cons.mp hm).resolve_left nofun
    | «variable» first _ =>
      refine ⟨env.insert first "x", fun name default hm => ?_⟩
      rw [SortedMap.get?_insert]
      split
      · rfl
      · rename_i hne
        refine henv name default ((List.mem_cons.mp hm).resolve_left fun heq => hne ?_)
        exact (Segment.variable.inj heq).1

theorem mapM_value_marked {env : Environment} {segments : List Segment} (h : Marked env segments) :
    segments.mapM (value? env) = some (segments.map fun s => [mark s]) := by
  induction segments with
  | nil => rfl
  | cons s segments ih =>
    have hrest := ih fun name default hm => h name default (List.mem_cons_of_mem s hm)
    have hvalue : s.value? env = some [mark s] := by
      cases s with
      | char c => rfl
      | «variable» name default =>
        rw [value?, h name default List.mem_cons_self]
        rfl
    simp [List.mapM_cons, hvalue, hrest]

theorem mapM_expand_marked {env : Environment} {segments : List Segment} (h : Marked env segments) :
    segments.mapM (expand env) = .ok (segments.map fun s => String.ofList [mark s]) := by
  rcases mapM_expand env segments with
    ⟨parts, hparts, hexpand⟩ | ⟨before, name, default, after, rfl, -, hunset, -⟩
  · rw [mapM_value_marked h] at hparts
    obtain rfl := Option.some.inj hparts
    rw [hexpand, List.map_map]
    rfl
  · rw [value?, h name default (by simp)] at hunset
    exact absurd hunset nofun

end Segment

open Segment

/-- Whether the references of a setting stand for values, and are replaced by them. -/
def Replaced (env : Environment) (value new : String) : Prop :=
  ∃ segments parts, Reads value.toList segments ∧ segments.mapM (value? env) = some parts ∧
    new.toList = parts.flatten

/-- Whether a variable is the first one in a setting that stands for nothing. -/
def Unset (env : Environment) (value name : String) : Prop :=
  ∃ before default after, Reads value.toList (before ++ .variable name default :: after) ∧
    (∀ s ∈ before, (s.value? env).isSome) ∧ (Segment.variable name default).value? env = none

/-- Whether a setting holds no `${`, or no dollar sign outside of its references that stands for
anything but itself. -/
def Tame (value : String) : Prop :=
  "$\x7b".toList <:+: value.toList →
    ∀ segments, Reads value.toList segments → DollarsInert segments

theorem Replaced.eq {env : Environment} {value new new' : String} (h : Replaced env value new)
    (h' : Replaced env value new') : new = new' := by
  obtain ⟨segments, parts, hreads, hparts, hnew⟩ := h
  obtain ⟨segments', parts', hreads', hparts', hnew'⟩ := h'
  obtain rfl := hreads.eq hreads'
  obtain rfl := Option.some.inj (hparts.symm.trans hparts')
  exact String.toList_inj.mp (hnew.trans hnew'.symm)

theorem reads_chars {cs : List Char} {segments : List Segment} (h : Reads cs segments)
    (hnone : ¬ "$\x7b".toList <:+: cs) : segments = cs.map .char := by
  induction h with
  | nil => rfl
  | reference hs hcs _ _ =>
    cases hs with
    | named _ _ => exact absurd ⟨[], _, hcs.symm⟩ hnone
  | @char c rest segments _ h ih =>
    rw [ih fun hm => hnone (hm.trans (List.suffix_cons c rest).isInfix)]
    rfl

theorem reads_unopened {cs : List Char} (hnone : ¬ "$\x7b".toList <:+: cs) :
    Reads cs (cs.map .char) := by
  obtain ⟨segments, hreads⟩ := exists_reads cs
  rw [← reads_chars hreads hnone]
  exact hreads

theorem mapM_value_chars (env : Environment) (cs : List Char) :
    (cs.map Segment.char).mapM (value? env) = some (cs.map fun c => [c]) := by
  induction cs with
  | nil => rfl
  | cons c cs ih => simp [List.mapM_cons, value?, ih]

theorem replaced_self (env : Environment) {value : String}
    (hnone : ¬ "$\x7b".toList <:+: value.toList) : Replaced env value value := by
  refine ⟨_, _, reads_unopened hnone, mapM_value_chars env value.toList, ?_⟩
  rw [← List.flatMap_def, List.flatMap_singleton']

theorem Replaced.not_unset {env : Environment} {value new name : String}
    (h : Replaced env value new) : ¬ Unset env value name := by
  rintro ⟨before, default, after, hreads, -, hunset⟩
  obtain ⟨segments, parts, hreads', hparts, -⟩ := h
  obtain rfl := hreads'.eq hreads
  simp [List.mapM_append, List.mapM_cons, hunset] at hparts

/-- What the expansion of a setting comes to. -/
theorem expandSetting_cases (env : Environment) {value : String} (h : Tame value) :
    (∃ new, expandSetting env value = .ok new ∧ Replaced env value new) ∨
      ∃ name, expandSetting env value = .error name ∧ Unset env value name := by
  rw [expandSetting, Text.contains]
  by_cases hopens : "$\x7b".toList <:+: value.toList
  · obtain ⟨segments, hreads⟩ := exists_reads value.toList
    rw [if_pos (Text.occursIn_iff.mpr hopens), hreads.scan_eq (h hopens segments hreads)]
    rcases mapM_expand env segments with
      ⟨parts, hparts, hexpand⟩ | ⟨before, name, default, after, rfl, hbefore, hunset, hexpand⟩
    · rw [hexpand]
      refine .inl ⟨String.join (parts.map String.ofList), rfl, segments, parts, hreads, hparts, ?_⟩
      simp [String.toList_join, List.flatMap_map]
    · rw [hexpand]
      exact .inr ⟨name, rfl, before, default, after, hreads, hbefore, hunset⟩
  · rw [if_neg fun hm => hopens (Text.occursIn_iff.mp hm)]
    exact .inl ⟨value, rfl, replaced_self env hopens⟩

theorem expandSetting_marked {env : Environment} {value : String}
    (hopens : "$\x7b".toList <:+: value.toList) (h : Marked env (scan 0 value.toList)) :
    expandSetting env value = .ok (String.ofList ((scan 0 value.toList).map mark)) := by
  rw [expandSetting, Text.contains, if_pos (Text.occursIn_iff.mpr hopens), mapM_expand_marked h]
  refine congrArg Except.ok (String.toList_inj.mp ?_)
  rw [String.toList_ofList, List.map_eq_flatMap (f := mark)]
  simp [String.toList_join, List.flatMap_map]

/-- A setting in which references are replaced and nothing else, though all its variables have
values, has no other dollar sign with a meaning. -/
theorem inert_of_replaced {env : Environment} {value new : String} {segments : List Segment}
    (hopens : "$\x7b".toList <:+: value.toList) (hscan : Marked env (scan 0 value.toList))
    (hreads : Reads value.toList segments) (hsegments : Marked env segments)
    (hexpand : expandSetting env value = .ok new) (h : Replaced env value new) :
    DollarsInert segments := by
  obtain ⟨segments', parts, hreads', hparts, hnew⟩ := h
  obtain rfl := hreads.eq hreads'
  rw [mapM_value_marked hsegments] at hparts
  obtain rfl := Option.some.inj hparts
  rw [expandSetting_marked hopens hscan] at hexpand
  obtain rfl := Except.ok.inj hexpand
  refine hreads.inert_of_marks ?_
  rw [String.toList_ofList, ← List.flatMap_def] at hnew
  rw [hnew]
  exact List.map_eq_flatMap.symm

end DocPress
