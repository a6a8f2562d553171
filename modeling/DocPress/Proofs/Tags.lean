import DocPress.Markup.Anchors

/-! Reading tags off written markup. The reader knows quotes: within a quoted value it looks for
nothing but the quote. Markup whose unescaped texts hold no `<` and whose unescaped attribute texts
hold no quote is read as the tags of its tree, and these are well nested. -/

namespace DocPress

set_option autoImplicit false

/-- A tag as it is read: its name, a slash in front of that of an end tag, and its attributes. -/
structure TagRead where
  name : List Char
  attrs : List (List Char × Option (List Char))
  deriving DecidableEq, Repr

namespace Reader

/-- The white space between the attributes of a tag. -/
def isGap (c : Char) : Bool := c == ' ' || c == '\n' || c == '\t' || c == '\r' || c == '\x0c'

/-- Where a reader stands, with what it has read of the tag it is in. -/
inductive Place where
  | text
  | name (cs : List Char)
  | attrs (t : TagRead)
  | attrName (t : TagRead) (name : List Char)
  | assign (t : TagRead) (name : List Char)
  | bare (t : TagRead) (name value : List Char)
  | quoted (t : TagRead) (name : List Char) (quote : Char) (value : List Char)
  deriving DecidableEq, Repr

def addAttr (t : TagRead) (name : List Char) (value : Option (List Char)) : TagRead :=
  { t with attrs := t.attrs ++ [(name, value)] }

/-- One character further, and the tag that it ends. -/
def step : Place → Char → Place × Option TagRead
  | .text, c => if c = '<' then (.name [], none) else (.text, none)
  | .name cs, c =>
    if c = '>' then (.text, some ⟨cs, []⟩)
    else if isGap c then (.attrs ⟨cs, []⟩, none)
    else (.name (cs ++ [c]), none)
  | .attrs t, c =>
    if c = '>' then (.text, some t)
    else if isGap c then (.attrs t, none)
    else (.attrName t [c], none)
  | .attrName t n, c =>
    if c = '>' then (.text, some (addAttr t n none))
    else if isGap c then (.attrs (addAttr t n none), none)
    else if c = '=' then (.assign t n, none)
    else (.attrName t (n ++ [c]), none)
  | .assign t n, c =>
    if c = '>' then (.text, some (addAttr t n (some [])))
    else if isGap c then (.assign t n, none)
    else if c = '"' ∨ c = '\'' then (.quoted t n c [], none)
    else (.bare t n [c], none)
  | .bare t n v, c =>
    if c = '>' then (.text, some (addAttr t n (some v)))
    else if isGap c then (.attrs (addAttr t n (some v)), none)
    else (.bare t n (v ++ [c]), none)
  | .quoted t n q v, c =>
    if c = q then (.attrs (addAttr t n (some v)), none) else (.quoted t n q (v ++ [c]), none)

/-- Where a text leads, and the tags that end in it. -/
def run : Place → List Char → Place × List TagRead
  | p, [] => (p, [])
  | p, c :: cs =>
    let (q, tag) := step p c
    let (r, tags) := run q cs
    (r, tag.toList ++ tags)

theorem run_append (p : Place) (a b : List Char) :
    run p (a ++ b) = ((run (run p a).1 b).1, (run p a).2 ++ (run (run p a).1 b).2) := by
  induction a generalizing p with
  | nil => rfl
  | cons c cs ih => simp only [List.cons_append, run, ih, List.append_assoc]

theorem run_step {p q : Place} {c : Char} {tag : Option TagRead} (h : step p c = (q, tag))
    (cs : List Char) : run p (c :: cs) = ((run q cs).1, tag.toList ++ (run q cs).2) := by
  simp only [run, h]

theorem run_quiet {p q : Place} {c : Char} (h : step p c = (q, none)) (cs : List Char) :
    run p (c :: cs) = run q cs := by
  rw [run_step h]
  rfl

theorem run_text {cs : List Char} (h : '<' ∉ cs) : run .text cs = (.text, []) := by
  induction cs with
  | nil => rfl
  | cons c cs ih =>
    have hc : c ≠ '<' := fun hc => h (hc ▸ List.mem_cons_self)
    simp [run, step, hc, ih fun hm => h (List.mem_cons_of_mem c hm)]

theorem run_name {cs : List Char} (h : ∀ c ∈ cs, c ≠ '>' ∧ isGap c = false) (before : List Char) :
    run (.name before) cs = (.name (before ++ cs), []) := by
  induction cs generalizing before with
  | nil => simp [run]
  | cons c cs ih =>
    have hc := h c List.mem_cons_self
    simp [run, step, hc.1, hc.2, ih (fun d hd => h d (List.mem_cons_of_mem c hd))]

theorem run_attrName {cs : List Char} (h : ∀ c ∈ cs, c ≠ '>' ∧ isGap c = false ∧ c ≠ '=')
    (t : TagRead) (before : List Char) :
    run (.attrName t before) cs = (.attrName t (before ++ cs), []) := by
  induction cs generalizing before with
  | nil => simp [run]
  | cons c cs ih =>
    have hc := h c List.mem_cons_self
    simp [run, step, hc.1, hc.2.1, hc.2.2, ih (fun d hd => h d (List.mem_cons_of_mem c hd))]

theorem run_quoted {cs : List Char} {q : Char} (h : q ∉ cs) (t : TagRead) (n v : List Char) :
    run (.quoted t n q v) cs = (.quoted t n q (v ++ cs), []) := by
  induction cs generalizing v with
  | nil => simp [run]
  | cons c cs ih =>
    have hc : c ≠ q := fun hc => h (hc ▸ List.mem_cons_self)
    simp [run, step, hc, ih fun hm => h (List.mem_cons_of_mem c hm)]

/-- How many attributes are read of the tag that the reader is in. -/
def Place.count : Place → Nat
  | .text => 0
  | .name _ => 0
  | .attrs t => t.attrs.length
  | .attrName t _ => t.attrs.length
  | .assign t _ => t.attrs.length
  | .bare t _ _ => t.attrs.length
  | .quoted t _ _ _ => t.attrs.length

/-- Within a tag, a step that ends no tag stays within it and forgets no attribute. -/
theorem step_within {p q : Place} {c : Char} (hp : p ≠ .text) (h : step p c = (q, none)) :
    q ≠ .text ∧ p.count ≤ q.count := by
  cases p with
  | text => exact absurd rfl hp
  | name cs => grind [step, Place.count]
  | attrs t => grind [step, Place.count]
  | attrName t n => grind [step, Place.count, addAttr]
  | assign t n => grind [step, Place.count, addAttr]
  | bare t n v => grind [step, Place.count, addAttr]
  | quoted t n q v => grind [step, Place.count, addAttr]

theorem run_within {p q : Place} {cs : List Char} (hp : p ≠ .text) (h : run p cs = (q, [])) :
    q ≠ .text ∧ p.count ≤ q.count := by
  induction cs generalizing p with
  | nil =>
    obtain rfl : p = q := congrArg Prod.fst h
    exact ⟨hp, Nat.le_refl _⟩
  | cons c cs ih =>
    rcases hstep : step p c with ⟨r, tag⟩
    simp only [run, hstep, Prod.mk.injEq, List.append_eq_nil_iff] at h
    cases tag with
    | some t => simp at h
    | none =>
      have hr := step_within hp hstep
      have hq := ih hr.1 (Prod.ext h.1 h.2.2)
      exact ⟨hq.1, Nat.le_trans hr.2 hq.2⟩

/-- A text leaves the reader in the text and ends no tag exactly when it opens none. -/
theorem run_text_iff {cs : List Char} : run .text cs = (.text, []) ↔ '<' ∉ cs := by
  refine ⟨fun h hm => ?_, run_text⟩
  -- Behind the first bracket the reader is within a tag, which it leaves only by ending it.
  obtain ⟨a, b, rfl, ha⟩ := List.eq_append_cons_of_mem hm
  rw [run_append, run_text ha] at h
  simp only [run, step, if_true, Option.toList_none, List.nil_append, Prod.mk.injEq] at h
  exact (run_within (by simp) (Prod.ext h.1 h.2)).1 rfl

/-- A text leaves the reader within a quoted value exactly when it holds no quote. -/
theorem run_quoted_iff {cs : List Char} {q : Char} (t : TagRead) (n v : List Char) :
    run (.quoted t n q v) cs = (.quoted t n q (v ++ cs), []) ↔ q ∉ cs := by
  refine ⟨fun h hm => ?_, fun h => run_quoted h t n v⟩
  -- Behind the first quote the tag has one attribute more than where the reader should be.
  obtain ⟨a, b, rfl, ha⟩ := List.eq_append_cons_of_mem hm
  rw [run_append, run_quoted ha] at h
  simp only [run, step, if_true, Option.toList_none, List.nil_append, Prod.mk.injEq] at h
  have hc := (run_within (by simp) (Prod.ext h.1 h.2)).2
  simp only [Place.count, addAttr, List.length_append, List.length_singleton] at hc
  omega

end Reader

/-- The tags of a text in order; none if it ends within a tag. -/
def readTags (cs : List Char) : Option (List TagRead) :=
  match Reader.run .text cs with
  | (.text, tags) => some tags
  | _ => none

/-! ### The tags of the tree -/

def Attr.read : Attr → List Char × Option (List Char)
  | .flag name => (name.spelling.toList, none)
  | .value name pieces => (name.spelling.toList, some (pieces.flatMap Piece.chars))

def Tag.start (tag : Tag) (attrs : List Attr) : TagRead := ⟨tag.name.toList, attrs.map Attr.read⟩

def Tag.stop (tag : Tag) : TagRead := ⟨'/' :: tag.name.toList, []⟩

def VoidTag.start (tag : VoidTag) (attrs : List Attr) : TagRead :=
  ⟨tag.name.toList, attrs.map Attr.read⟩

def doctypeTag : TagRead := ⟨"!DOCTYPE".toList, [("html".toList, none)]⟩

mutual

/-- The tags that a node is written with. -/
def Html.tags : Html → List TagRead
  | .doctype => [doctypeTag]
  | .text _ => []
  | .attrText _ => []
  | .raw _ => []
  | .charRef _ => []
  | .void tag attrs => [tag.start attrs]
  | .element tag attrs content => tag.start attrs :: (tagsOf content ++ [tag.stop])

def tagsOf : List Html → List TagRead
  | [] => []
  | h :: hs => h.tags ++ tagsOf hs

end

theorem tagsOf_append (a b : List Html) : tagsOf (a ++ b) = tagsOf a ++ tagsOf b := by
  induction a with
  | nil => rfl
  | cons h hs ih => simp only [List.cons_append, tagsOf, ih, List.append_assoc]

/-! ### Nesting -/

/-- The names of the tags that have no end tag. -/
def voidNames : List (List Char) :=
  ["br".toList, "hr".toList, "img".toList, "col".toList, "input".toList, "meta".toList,
    "link".toList]

/-- The names of the tags that are open after a tag, the last one first; none if the tag closes
another one than the last. -/
def openAfter (stack : List (List Char)) (t : TagRead) : Option (List (List Char)) :=
  match t.name with
  | '!' :: _ => some stack
  | '/' :: name =>
    match stack with
    | top :: rest => if top = name then some rest else none
    | [] => none
  | name => if name ∈ voidNames then some stack else some (name :: stack)

/-- Whether the tags close each other in order, and close what is open before them. -/
def nested : List (List Char) → List TagRead → Bool
  | stack, [] => stack.isEmpty
  | stack, t :: ts =>
    match openAfter stack t with
    | some stack => nested stack ts
    | none => false

theorem isDigit_of_mem_toString {n : Nat} {c : Char} (h : c ∈ (toString n).toList) :
    c.isDigit = true := by
  rw [show toString n = n.repr from rfl, Nat.toList_repr] at h
  exact Nat.isDigit_of_mem_toDigits (by decide) (by decide) h

theorem heading_name (level : UInt64) :
    (Tag.heading level).name.toList = 'h' :: (toString level.toNat).toList := by
  simp [Tag.name, String.toList_append]

theorem Tag.name_opens (tag : Tag) :
    tag.name.toList ∉ voidNames ∧ ∃ c cs, tag.name.toList = c :: cs ∧ c ≠ '!' ∧ c ≠ '/' := by
  cases tag with
  | heading level =>
    rw [heading_name]
    refine ⟨fun h => ?_, 'h', _, rfl, by decide, by decide⟩
    have hr : (toString level.toNat).toList = ['r'] := by simpa [voidNames] using h
    have hdigit : 'r'.isDigit = true :=
      isDigit_of_mem_toString (n := level.toNat) (by rw [hr]; exact List.mem_singleton_self _)
    exact absurd hdigit (by decide)
  | _ => exact ⟨by decide, _, _, rfl, by decide, by decide⟩

theorem openAfter_start (tag : Tag) (attrs : List Attr) (stack : List (List Char)) :
    openAfter stack (tag.start attrs) = some (tag.name.toList :: stack) := by
  obtain ⟨hvoid, c, cs, hname, h1, h2⟩ := tag.name_opens
  unfold openAfter
  split
  · rename_i h
    exact absurd (List.cons.inj (hname.symm.trans h)).1 h1
  · rename_i h
    exact absurd (List.cons.inj (hname.symm.trans h)).1 h2
  · exact if_neg hvoid

theorem nested_start (tag : Tag) (attrs : List Attr) (stack : List (List Char))
    (ts : List TagRead) :
    nested stack (tag.start attrs :: ts) = nested (tag.name.toList :: stack) ts := by
  rw [nested, openAfter_start]

theorem nested_stop (tag : Tag) (stack : List (List Char)) (ts : List TagRead) :
    nested (tag.name.toList :: stack) (tag.stop :: ts) = nested stack ts := by
  simp [nested, openAfter, Tag.stop]

theorem nested_void (tag : VoidTag) (attrs : List Attr) (stack : List (List Char))
    (ts : List TagRead) : nested stack (tag.start attrs :: ts) = nested stack ts := by
  cases tag <;> rfl

mutual

theorem nested_tags : ∀ (h : Html) (stack : List (List Char)) (ts : List TagRead),
    nested stack (h.tags ++ ts) = nested stack ts
  | .doctype, _, _ => rfl
  | .text _, _, _ => rfl
  | .attrText _, _, _ => rfl
  | .raw _, _, _ => rfl
  | .charRef _, _, _ => rfl
  | .void tag attrs, stack, ts => nested_void tag attrs stack ts
  | .element tag attrs content, stack, ts => by
    simp only [Html.tags, List.cons_append, List.append_assoc, List.nil_append]
    rw [nested_start, nested_tagsOf content, nested_stop]

theorem nested_tagsOf : ∀ (m : List Html) (stack : List (List Char)) (ts : List TagRead),
    nested stack (tagsOf m ++ ts) = nested stack ts
  | [], _, _ => rfl
  | h :: hs, stack, ts => by
    rw [tagsOf, List.append_assoc, nested_tags h, nested_tagsOf hs]

end

end DocPress
