/-!
# Sorted maps

Finite maps from names to values, kept in the order of their names by code point. Two maps with
the same look-ups are equal, as each has one list of entries.
-/

namespace DocPress

set_option autoImplicit false

universe u

/-- Puts a value under a name into a sorted list of entries, in place of an older one. -/
def insertEntry {β : Type u} (name : String) (value : β) :
    List (String × β) → List (String × β)
  | [] => [(name, value)]
  | e :: rest =>
    if name < e.1 then (name, value) :: e :: rest
    else if name = e.1 then (name, value) :: rest
    else e :: insertEntry name value rest

/-- Entries in strictly ascending order of their names. -/
abbrev Ascending {β : Type u} (entries : List (String × β)) : Prop :=
  entries.Pairwise fun a b => a.1 < b.1

theorem fst_mem_insertEntry {β : Type u} {name : String} {value : β} {entries : List (String × β)}
    {e : String × β} (h : e ∈ insertEntry name value entries) : e.1 = name ∨ e ∈ entries := by
  induction entries with
  | nil => simp_all [insertEntry]
  | cons x rest ih =>
    simp only [insertEntry] at h
    split at h
    · rcases List.mem_cons.1 h with rfl | h
      · exact .inl rfl
      · exact .inr h
    · split at h
      · rcases List.mem_cons.1 h with rfl | h
        · exact .inl rfl
        · exact .inr (List.mem_cons_of_mem _ h)
      · rcases List.mem_cons.1 h with rfl | h
        · exact .inr List.mem_cons_self
        · exact (ih h).imp_right (List.mem_cons_of_mem _)

theorem lt_of_not_lt_of_ne {a b : String} (h : ¬ a < b) (hne : a ≠ b) : b < a := by
  rcases Std.le_total (a := a) (b := b) with hab | hba
  · exact absurd (String.le_antisymm hab (String.not_lt.1 h)) hne
  · exact String.not_le.1 fun hab => hne (String.le_antisymm hab hba)

theorem ascending_insertEntry {β : Type u} (name : String) (value : β)
    {entries : List (String × β)} (h : Ascending entries) :
    Ascending (insertEntry name value entries) := by
  induction entries with
  | nil => simp [insertEntry, Ascending]
  | cons x rest ih =>
    have hx := List.pairwise_cons.1 h
    simp only [insertEntry]
    split
    · rename_i hlt
      refine List.pairwise_cons.2 ⟨fun e he => ?_, h⟩
      rcases List.mem_cons.1 he with rfl | he
      · exact hlt
      · exact String.lt_trans hlt (hx.1 e he)
    · split
      · rename_i heq
        subst heq
        exact List.pairwise_cons.2 ⟨hx.1, hx.2⟩
      · rename_i hlt hne
        refine List.pairwise_cons.2 ⟨fun e he => ?_, ih hx.2⟩
        rcases fst_mem_insertEntry he with heq | he
        · exact heq ▸ lt_of_not_lt_of_ne hlt hne
        · exact hx.1 e he

/-- A map from names to values, as its entries in ascending order. -/
structure SortedMap (β : Type u) where
  entries : List (String × β)
  ascending : Ascending entries

namespace SortedMap

variable {β : Type u}

@[ext] theorem ext {a b : SortedMap β} (h : a.entries = b.entries) : a = b := by
  cases a; cases b; cases h; rfl

def empty : SortedMap β := ⟨[], List.Pairwise.nil⟩

instance : EmptyCollection (SortedMap β) := ⟨empty⟩

instance : Inhabited (SortedMap β) := ⟨empty⟩

def isEmpty (m : SortedMap β) : Bool := m.entries.isEmpty

def size (m : SortedMap β) : Nat := m.entries.length

def keys (m : SortedMap β) : List String := m.entries.map (·.1)

def get? (m : SortedMap β) (name : String) : Option β := m.entries.lookup name

def contains (m : SortedMap β) (name : String) : Bool := (m.get? name).isSome

def insert (m : SortedMap β) (name : String) (value : β) : SortedMap β :=
  ⟨insertEntry name value m.entries, ascending_insertEntry name value m.ascending⟩

def erase (m : SortedMap β) (name : String) : SortedMap β :=
  ⟨m.entries.filter (·.1 != name), m.ascending.filter _⟩

/-- The map of a list of entries, a later one standing for an earlier one of its name. -/
def ofList (entries : List (String × β)) : SortedMap β :=
  entries.foldl (fun m e => m.insert e.1 e.2) empty

/-- The map with all entries of another one set. -/
def overlay (m other : SortedMap β) : SortedMap β :=
  other.entries.foldl (fun m e => m.insert e.1 e.2) m

/-- The map with each value changed under its name. -/
def mapValues {γ : Type u} (f : β → γ) (m : SortedMap β) : SortedMap γ :=
  ⟨m.entries.map fun e => (e.1, f e.2), List.pairwise_map.mpr m.ascending⟩

@[simp] theorem entries_empty : (empty : SortedMap β).entries = [] := rfl

@[simp] theorem get?_empty (name : String) : (empty : SortedMap β).get? name = none := rfl

theorem lookup_insertEntry (name other : String) (value : β) (entries : List (String × β)) :
    (insertEntry name value entries).lookup other =
      if other = name then some value else entries.lookup other := by
  induction entries with
  | nil =>
    by_cases h : other = name
    · simp [insertEntry, h]
    · simp [insertEntry, List.lookup_cons, h, beq_eq_false_iff_ne.2 h]
  | cons e rest ih =>
    obtain ⟨k, v⟩ := e
    simp only [insertEntry]
    split
    · by_cases h : other = name
      · simp [h]
      · simp [List.lookup_cons, h, beq_eq_false_iff_ne.2 h]
    · split
      · rename_i heq
        subst heq
        by_cases h : other = name
        · simp [h]
        · simp [List.lookup_cons, h, beq_eq_false_iff_ne.2 h]
      · rename_i hne
        simp only [List.lookup_cons, ih]
        by_cases hk : other = k
        · subst hk
          simp [Ne.symm hne]
        · simp [beq_eq_false_iff_ne.2 hk]

@[simp] theorem get?_insert (m : SortedMap β) (name other : String) (value : β) :
    (m.insert name value).get? other = if other = name then some value else m.get? other :=
  lookup_insertEntry name other value m.entries

/-- A name behind all others is inserted at the end. -/
theorem insertEntry_concat {name : String} (value : β) {entries : List (String × β)}
    (h : ∀ e ∈ entries, e.1 < name) :
    insertEntry name value entries = entries ++ [(name, value)] := by
  induction entries with
  | nil => rfl
  | cons e rest ih =>
    have he : e.1 < name := h e List.mem_cons_self
    have hlt : ¬ name < e.1 := String.lt_asymm he
    have hne : name ≠ e.1 := fun heq => String.lt_irrefl _ (heq ▸ he)
    rw [insertEntry, if_neg hlt, if_neg hne, ih fun x hx => h x (List.mem_cons_of_mem _ hx)]
    rfl

theorem entries_fold_insert (rest : List (String × β)) (m : SortedMap β)
    (h : Ascending (m.entries ++ rest)) :
    (rest.foldl (fun m e => m.insert e.1 e.2) m).entries = m.entries ++ rest := by
  induction rest generalizing m with
  | nil => simp
  | cons e rest ih =>
    have hbelow : ∀ x ∈ m.entries, x.1 < e.1 := fun x hx =>
      (List.pairwise_append.1 h).2.2 x hx e List.mem_cons_self
    have hinsert : (m.insert e.1 e.2).entries = m.entries ++ [e] := insertEntry_concat e.2 hbelow
    have hstep := ih (m.insert e.1 e.2)
    rw [hinsert, List.append_assoc, List.singleton_append] at hstep
    exact hstep h

/-- A map is the map of its own entries. -/
theorem ofList_entries (m : SortedMap β) : ofList m.entries = m :=
  ext (entries_fold_insert m.entries empty m.ascending)

theorem ofList_mapValues {γ : Type u} (f : β → γ) (m : SortedMap β) :
    ofList (m.entries.map fun e => (e.1, f e.2)) = m.mapValues f :=
  ofList_entries (m.mapValues f)

theorem lookup_eq_none {name : String} {entries : List (String × β)}
    (h : ∀ e ∈ entries, name < e.1) : entries.lookup name = none := by
  rw [List.lookup_eq_none_iff]
  intro e he
  have hne : name ≠ e.1 := fun heq => String.lt_irrefl _ (heq ▸ h e he)
  simpa using hne

theorem lookup_of_mem {entries : List (String × β)} (h : Ascending entries) {e : String × β}
    (he : e ∈ entries) : entries.lookup e.1 = some e.2 := by
  induction entries with
  | nil => cases he
  | cons x rest ih =>
    have hx := List.pairwise_cons.1 h
    rcases List.mem_cons.1 he with rfl | he
    · exact List.lookup_cons_self
    · have hne : e.1 ≠ x.1 := fun heq => String.lt_irrefl _ (heq ▸ hx.1 e he)
      rw [List.lookup_cons, beq_eq_false_iff_ne.2 hne]
      exact ih hx.2 he

theorem get?_of_mem {m : SortedMap β} {e : String × β} (h : e ∈ m.entries) :
    m.get? e.1 = some e.2 := lookup_of_mem m.ascending h

theorem mem_entries_iff {m : SortedMap β} {e : String × β} :
    e ∈ m.entries ↔ m.get? e.1 = some e.2 := by
  constructor
  · exact get?_of_mem
  · intro h
    obtain ⟨before, after, hsplit, -⟩ := List.lookup_eq_some_iff.1 h
    rw [hsplit]
    exact List.mem_append_right before List.mem_cons_self

theorem mem_keys_iff {m : SortedMap β} {name : String} :
    name ∈ m.keys ↔ m.contains name = true := by
  rw [keys, List.mem_map, contains, Option.isSome_iff_exists]
  constructor
  · rintro ⟨e, he, rfl⟩
    exact ⟨e.2, mem_entries_iff.1 he⟩
  · rintro ⟨value, h⟩
    exact ⟨(name, value), mem_entries_iff.2 h, rfl⟩

@[simp] theorem get?_mapValues {γ : Type u} (f : β → γ) (m : SortedMap β) (name : String) :
    (m.mapValues f).get? name = (m.get? name).map f := by
  obtain ⟨entries, h⟩ := m
  simp only [get?, mapValues]
  clear h
  induction entries with
  | nil => rfl
  | cons e rest ih =>
    obtain ⟨k, v⟩ := e
    by_cases hname : name = k
    · simp [hname]
    · simp [List.lookup_cons, beq_eq_false_iff_ne.2 hname, ih]

/-- Of several values set under one name the last one counts. -/
theorem get?_foldl_insert (entries : List (String × β)) (m : SortedMap β) (name : String) :
    (entries.foldl (fun m e => m.insert e.1 e.2) m).get? name =
      (entries.reverse.lookup name <|> m.get? name) := by
  induction entries generalizing m with
  | nil => rfl
  | cons e rest ih =>
    obtain ⟨k, v⟩ := e
    rw [List.foldl_cons, ih, get?_insert, List.reverse_cons, List.lookup_append]
    cases rest.reverse.lookup name with
    | some value => rfl
    | none =>
      by_cases hname : name = k
      · simp [hname]
      · simp [List.lookup_cons, hname, beq_eq_false_iff_ne.2 hname]

theorem entries_eq_of_lookup : ∀ {a b : List (String × β)}, Ascending a → Ascending b →
    (∀ name, a.lookup name = b.lookup name) → a = b := by
  intro a
  induction a with
  | nil =>
    intro b _ _ h
    cases b with
    | nil => rfl
    | cons e rest =>
      obtain ⟨k, v⟩ := e
      exact absurd (h k) (by simp)
  | cons x xs ih =>
    intro b ha hb h
    cases b with
    | nil =>
      obtain ⟨j, v⟩ := x
      exact absurd (h j) (by simp)
    | cons y ys =>
      obtain ⟨j, v⟩ := x
      obtain ⟨k, w⟩ := y
      have hx := List.pairwise_cons.1 ha
      have hy := List.pairwise_cons.1 hb
      have key : j = k := by
        refine Classical.byContradiction fun hne => ?_
        by_cases hlt : j < k
        · have hnone : ((k, w) :: ys).lookup j = none := lookup_eq_none fun e he => by
            rcases List.mem_cons.1 he with rfl | he
            · exact hlt
            · exact String.lt_trans hlt (hy.1 e he)
          rw [← h j] at hnone
          simp at hnone
        · have hgt : k < j := lt_of_not_lt_of_ne hlt hne
          have hnone : ((j, v) :: xs).lookup k = none := lookup_eq_none fun e he => by
            rcases List.mem_cons.1 he with rfl | he
            · exact hgt
            · exact String.lt_trans hgt (hx.1 e he)
          rw [h k] at hnone
          simp at hnone
      subst key
      have hv : v = w := by simpa [List.lookup_cons] using h j
      subst hv
      refine congrArg ((j, v) :: ·) (ih hx.2 hy.2 fun name => ?_)
      by_cases hname : name = j
      · rw [hname, lookup_eq_none hx.1, lookup_eq_none hy.1]
      · simpa [List.lookup_cons, beq_eq_false_iff_ne.2 hname] using h name

/-- Maps with the same look-ups are equal. -/
theorem eq_of_get? {a b : SortedMap β} (h : ∀ name, a.get? name = b.get? name) : a = b := by
  obtain ⟨as, ha⟩ := a
  obtain ⟨bs, hb⟩ := b
  have heq : as = bs := entries_eq_of_lookup ha hb h
  subst heq
  rfl

@[simp] theorem get?_erase (m : SortedMap β) (name other : String) :
    (m.erase name).get? other = if other = name then none else m.get? other := by
  obtain ⟨entries, h⟩ := m
  simp only [get?, erase]
  clear h
  induction entries with
  | nil => simp
  | cons e rest ih =>
    obtain ⟨k, v⟩ := e
    by_cases hk : k = name
    · subst hk
      by_cases ho : other = k
      · simpa [ho] using ih
      · simpa [ho, List.lookup_cons, beq_eq_false_iff_ne.2 ho] using ih
    · by_cases ho : other = k
      · subst ho
        simp [hk]
      · simpa [hk, List.lookup_cons, beq_eq_false_iff_ne.2 ho] using ih

end SortedMap

/-- A set of names in ascending order. -/
abbrev NameSet := SortedMap Unit

/-- The names of a set in order. -/
def NameSet.ofNames (names : List String) : NameSet := SortedMap.ofList (names.map fun n => (n, ()))

end DocPress
