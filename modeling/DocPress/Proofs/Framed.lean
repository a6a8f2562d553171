import DocPress.Proofs.FootnoteIndex
import DocPress.Proofs.Preparation

/-! What preparation may change in a tree: the numbers of sections, the indexes of footnotes, and
the text of a reference to a footnote that has none. The relation between the two trees goes
through all their parts, so that shape and order are part of it. -/

namespace DocPress

set_option autoImplicit false

universe u

/-! ### Related parts -/

section Parts

variable {α : Type} (R : α → α → Prop)

inductive Entry.Rel : Entry α → Entry α → Prop
  | mk {terms terms' : List α} {description description' : Option α}
      (hterms : List.Forall₂ R terms terms')
      (hdescription : Option.Rel R description description') :
      Entry.Rel ⟨terms, description⟩ ⟨terms', description'⟩

/-- Cells of one style, source, span and alignment, with related paragraphs and blocks. -/
inductive Cell.Rel : Cell α → Cell α → Prop
  | mk {style : CellStyle} {paragraphs paragraphs' : List (List α)} {blocks blocks' : List α}
      {source : Option String} {colspan rowspan : Option UInt32} {halign : HAlign} {valign : VAlign}
      (hparagraphs : List.Forall₂ (List.Forall₂ R) paragraphs paragraphs')
      (hblocks : List.Forall₂ R blocks blocks') :
      Cell.Rel ⟨style, paragraphs, blocks, source, colspan, rowspan, halign, valign⟩
        ⟨style, paragraphs', blocks', source, colspan, rowspan, halign, valign⟩

inductive Table.Rel : Table α → Table α → Prop
  | mk {columns : List Column} {head head' body body' foot foot' : List (List (Cell α))}
      (hhead : List.Forall₂ (List.Forall₂ (Cell.Rel R)) head head')
      (hbody : List.Forall₂ (List.Forall₂ (Cell.Rel R)) body body')
      (hfoot : List.Forall₂ (List.Forall₂ (Cell.Rel R)) foot foot') :
      Table.Rel ⟨columns, head, body, foot⟩ ⟨columns, head', body', foot'⟩

end Parts

/-! ### The frame -/

/-- Data that differ in the number of a section, if sections are numbered, and in the index of a
footnote at most. -/
structure NodeData.Framed (number : Bool) (d d' : NodeData) : Prop where
  rest : { d' with sectnum := d.sectnum, attributes := d.attributes } = d
  sectnum : d'.sectnum = d.sectnum ∨ number = true ∧ d.kind = .section
  attributes : d'.attributes = d.attributes ∨
    d.kind = .inlineFootnote ∧ d'.attributes.erase indexName = d.attributes.erase indexName

/-- The texts of two nodes, the first of which has the given data: the parts of a text are related
one by one, or where no text stood there stands the id that a reference to a footnote asks for. -/
inductive Node.TextFramed (R : Node → Node → Prop) :
    Option Inlines → Option Inlines → NodeData → Prop
  | none {d : NodeData} : TextFramed R none none d
  | some {d : NodeData} {text text' : Inlines} (h : List.Forall₂ R text text') :
      TextFramed R (some text) (some text') d
  | shown {d : NodeData} {text : Option Inlines} {id : String} (hkind : d.kind = .inlineFootnote)
      (hvariant : d.variant = Option.some "xref") (hempty : text.any (!·.isEmpty) = false)
      (hid : (d.target <|> d.id) = Option.some id) : TextFramed R text (Option.some [.plain id]) d

/-- A tree and one of the same shape that differs from it only in section numbers, if sections are
numbered, in indexes of footnotes, and in texts of references to footnotes. -/
inductive Node.Framed (number : Bool) : Node → Node → Prop
  | mk {d d' : NodeData} {title title' text text' : Option Inlines} {items items' : List Node}
      {entries entries' : List (Entry Node)} {blocks blocks' : List Node}
      {table table' : Option (Table Node)}
      (hdata : d.Framed number d')
      (htitle : Option.Rel (List.Forall₂ (Framed number)) title title')
      (htext : TextFramed (Framed number) text text' d)
      (hitems : List.Forall₂ (Framed number) items items')
      (hentries : List.Forall₂ (Entry.Rel (Framed number)) entries entries')
      (hblocks : List.Forall₂ (Framed number) blocks blocks')
      (htable : Option.Rel (Table.Rel (Framed number)) table table') :
      Framed number ⟨d, title, text, items, entries, blocks, table⟩
        ⟨d', title', text', items', entries', blocks', table'⟩

namespace NodeData

variable {number : Bool}

theorem Framed.refl (d : NodeData) : d.Framed number d := ⟨rfl, .inl rfl, .inl rfl⟩

theorem Framed.kind_eq {a b : NodeData} (h : a.Framed number b) : b.kind = a.kind := by
  rw [← h.rest]

theorem Framed.trans {a b c : NodeData} (h : a.Framed number b) (h' : b.Framed number c) :
    a.Framed number c := by
  have hkind : a.kind = b.kind := h.kind_eq.symm
  refine ⟨?_, ?_, ?_⟩
  · rw [← h.rest, ← h'.rest]
  · rcases h'.sectnum with hs | ⟨hn, hk⟩
    · rw [hs]
      exact h.sectnum
    · exact .inr ⟨hn, hkind.trans hk⟩
  · rcases h'.attributes with ha | ⟨hk, ha⟩
    · rw [ha]
      exact h.attributes
    · refine .inr ⟨hkind.trans hk, ha.trans ?_⟩
      rcases h.attributes with hb | ⟨_, hb⟩
      · rw [hb]
      · exact hb

/-- Data of a kind that has neither number nor index are the same in both trees. -/
theorem Framed.eq {a b : NodeData} (h : a.Framed number b) (hs : a.kind ≠ .section)
    (hf : a.kind ≠ .inlineFootnote) : b = a := by
  have hnum : b.sectnum = a.sectnum := h.sectnum.resolve_right fun hk => hs hk.2
  have hattr : b.attributes = a.attributes := h.attributes.resolve_right fun hk => hf hk.1
  rw [← h.rest, ← hnum, ← hattr]

theorem framed_indexFootnote (n : Node) (footnotes : List Footnote) :
    n.data.Framed number (indexFootnote n footnotes).1 := by
  by_cases hf : n.isFootnote
  · have hkind : n.kind = .inlineFootnote := by simpa [Node.isFootnote] using hf
    have hindex := congrArg NodeData.attributes (indexFootnote_withoutIndex n footnotes)
    obtain ⟨attributes, hsame⟩ := indexFootnote_same n footnotes
    exact ⟨by rw [hsame], .inl (by rw [hsame]), .inr ⟨hkind, hindex⟩⟩
  · rw [indexFootnote_other (by simpa using hf)]
    exact .refl _

/-- Data that gets another section number, where sections are numbered. -/
theorem framed_sectnum {d : NodeData} (hk : d.kind = .section) (sectnum : Option String) :
    d.Framed true { d with sectnum := sectnum } :=
  ⟨rfl, .inr ⟨rfl, hk⟩, .inl rfl⟩

end NodeData

namespace Node

variable {number : Bool}

theorem TextFramed.of_rel {R : Node → Node → Prop} {text text' : Option Inlines}
    (h : Option.Rel (List.Forall₂ R) text text') (d : NodeData) : TextFramed R text text' d := by
  cases h with
  | none => exact .none
  | some h => exact .some h

/-! ### Visits -/

section Visit

variable {σ : Type u} {f : Node → σ → NodeData × σ}

/-- A change of data within the frame. -/
abbrev Frames (number : Bool) (f : Node → σ → NodeData × σ) : Prop :=
  ∀ (n : Node) (s : σ), n.data.Framed number (f n s).1

mutual

theorem framed_visit (hf : Frames number f) :
    ∀ (n : Node) (s : σ), Framed number n (visit f n s).1
  | ⟨data, title, text, items, entries, blocks, table⟩, s =>
    .mk (hf ⟨data, title, text, items, entries, blocks, table⟩ s) (framedOpt_visit hf title _)
      (.of_rel (framedOpt_visit hf text _) _)
      (framedAll_visit hf items _) (framedEntries_visit hf entries _)
      (framedAll_visit hf blocks _) (framedTable_visit hf table _)

theorem framedAll_visit (hf : Frames number f) :
    ∀ (ns : List Node) (s : σ), List.Forall₂ (Framed number) ns (visitAll f ns s).1
  | [], _ => .nil
  | n :: ns, s => .cons (framed_visit hf n s) (framedAll_visit hf ns _)

theorem framedOpt_visit (hf : Frames number f) : ∀ (ns : Option (List Node)) (s : σ),
    Option.Rel (List.Forall₂ (Framed number)) ns (visitOpt f ns s).1
  | none, _ => .none
  | some ns, s => .some (framedAll_visit hf ns s)

theorem framedEntries_visit (hf : Frames number f) : ∀ (es : List (Entry Node)) (s : σ),
    List.Forall₂ (Entry.Rel (Framed number)) es (visitEntries f es s).1
  | [], _ => .nil
  | ⟨terms, none⟩ :: es, s =>
    .cons (.mk (framedAll_visit hf terms s) .none) (framedEntries_visit hf es _)
  | ⟨terms, some d⟩ :: es, s =>
    .cons (.mk (framedAll_visit hf terms s) (.some (framed_visit hf d _)))
      (framedEntries_visit hf es _)

theorem framedTable_visit (hf : Frames number f) : ∀ (t : Option (Table Node)) (s : σ),
    Option.Rel (Table.Rel (Framed number)) t (visitTable f t s).1
  | none, _ => .none
  | some ⟨_, head, body, foot⟩, s =>
    .some (.mk (framedRows_visit hf head s) (framedRows_visit hf body _)
      (framedRows_visit hf foot _))

theorem framedRows_visit (hf : Frames number f) : ∀ (rs : List (List (Cell Node))) (s : σ),
    List.Forall₂ (List.Forall₂ (Cell.Rel (Framed number))) rs (visitRows f rs s).1
  | [], _ => .nil
  | r :: rs, s => .cons (framedRow_visit hf r s) (framedRows_visit hf rs _)

theorem framedRow_visit (hf : Frames number f) : ∀ (cs : List (Cell Node)) (s : σ),
    List.Forall₂ (Cell.Rel (Framed number)) cs (visitRow f cs s).1
  | [], _ => .nil
  | ⟨_, paragraphs, blocks, _, _, _, _, _⟩ :: cs, s =>
    .cons (.mk (framedParagraphs_visit hf paragraphs s) (framedAll_visit hf blocks _))
      (framedRow_visit hf cs _)

theorem framedParagraphs_visit (hf : Frames number f) : ∀ (ps : List (List Node)) (s : σ),
    List.Forall₂ (List.Forall₂ (Framed number)) ps (visitParagraphs f ps s).1
  | [], _ => .nil
  | p :: ps, s => .cons (framedAll_visit hf p s) (framedParagraphs_visit hf ps _)

end

end Visit

/-! ### Maps -/

section Map

variable {g : Node → Node}

/-- A node is a reference to the footnote `id` and has no text. -/
structure AsksFor (n : Node) (id : String) : Prop where
  kind : n.kind = .inlineFootnote
  variant : n.variant = some "xref"
  empty : n.hasText = false
  refId : n.footnoteRefId = some id

/-- A change of nodes that writes the id into references to footnotes without a text, at most. -/
abbrev ShowsIds (g : Node → Node) : Prop :=
  ∀ n : Node, g n = n ∨ ∃ id, n.AsksFor id ∧ g n = { n with text := some [.plain id] }

theorem showsIds_showUnresolved : ShowsIds showUnresolved := by
  intro n
  unfold showUnresolved
  split
  · rename_i h
    simp only [Bool.and_eq_true, Bool.not_eq_true', isFootnoteRef, isFootnote,
      beq_iff_eq] at h
    split
    · rename_i id hid
      exact .inr ⟨id, ⟨h.1.1.1, h.1.1.2, h.2, hid⟩, rfl⟩
    · exact .inl rfl
  · exact .inl rfl

theorem any_mapOpt (g : Node → Node) (text : Option Inlines) :
    (mapOpt g text).any (!·.isEmpty) = text.any (!·.isEmpty) := by
  cases text with
  | none => rfl
  | some ns => cases ns <;> rfl

mutual

theorem framed_map (hg : ShowsIds g) : ∀ n : Node, Framed number n (map g n)
  | ⟨data, title, text, items, entries, blocks, table⟩ => by
    have htitle := framedOpt_map hg title
    have htext := framedOpt_map hg text
    have hitems := framedAll_map hg items
    have hentries := framedEntries_map hg entries
    have hblocks := framedAll_map hg blocks
    have htable := framedTable_map hg table
    rw [map]
    rcases hg ⟨data, mapOpt g title, mapOpt g text, mapAll g items, mapEntries g entries,
      mapAll g blocks, mapTable g table⟩ with h | ⟨id, hasks, h⟩
    · rw [h]
      exact .mk (.refl data) htitle (.of_rel htext data) hitems hentries hblocks htable
    · rw [h]
      have hempty : text.any (!·.isEmpty) = false := (any_mapOpt g text).symm.trans hasks.empty
      exact .mk (.refl data) htitle (.shown hasks.kind hasks.variant hempty hasks.refId) hitems
        hentries hblocks htable

theorem framedAll_map (hg : ShowsIds g) :
    ∀ ns : List Node, List.Forall₂ (Framed number) ns (mapAll g ns)
  | [] => .nil
  | n :: ns => .cons (framed_map hg n) (framedAll_map hg ns)

theorem framedOpt_map (hg : ShowsIds g) : ∀ ns : Option (List Node),
    Option.Rel (List.Forall₂ (Framed number)) ns (mapOpt g ns)
  | none => .none
  | some ns => .some (framedAll_map hg ns)

theorem framedEntries_map (hg : ShowsIds g) : ∀ es : List (Entry Node),
    List.Forall₂ (Entry.Rel (Framed number)) es (mapEntries g es)
  | [] => .nil
  | ⟨terms, none⟩ :: es => .cons (.mk (framedAll_map hg terms) .none) (framedEntries_map hg es)
  | ⟨terms, some d⟩ :: es =>
    .cons (.mk (framedAll_map hg terms) (.some (framed_map hg d))) (framedEntries_map hg es)

theorem framedTable_map (hg : ShowsIds g) : ∀ t : Option (Table Node),
    Option.Rel (Table.Rel (Framed number)) t (mapTable g t)
  | none => .none
  | some ⟨_, head, body, foot⟩ =>
    .some (.mk (framedRows_map hg head) (framedRows_map hg body) (framedRows_map hg foot))

theorem framedRows_map (hg : ShowsIds g) : ∀ rs : List (List (Cell Node)),
    List.Forall₂ (List.Forall₂ (Cell.Rel (Framed number))) rs (mapRows g rs)
  | [] => .nil
  | r :: rs => .cons (framedRow_map hg r) (framedRows_map hg rs)

theorem framedRow_map (hg : ShowsIds g) : ∀ cs : List (Cell Node),
    List.Forall₂ (Cell.Rel (Framed number)) cs (mapRow g cs)
  | [] => .nil
  | ⟨_, paragraphs, blocks, _, _, _, _, _⟩ :: cs =>
    .cons (.mk (framedParagraphs_map hg paragraphs) (framedAll_map hg blocks))
      (framedRow_map hg cs)

theorem framedParagraphs_map (hg : ShowsIds g) : ∀ ps : List (List Node),
    List.Forall₂ (List.Forall₂ (Framed number)) ps (mapParagraphs g ps)
  | [] => .nil
  | p :: ps => .cons (framedAll_map hg p) (framedParagraphs_map hg ps)

end

end Map

theorem Framed.refl (n : Node) : Framed number n n := by
  have hkeep : ShowsIds fun n => n := fun n => .inl rfl
  have h : Framed number n (map (fun n => n) n) := framed_map hkeep n
  rwa [map_unchanged n fun m _ => rfl] at h

/-! ### One change after another -/

theorem framed_plain {id : String} {n : Node} (h : Framed number (.plain id) n) :
    n = .plain id := by
  cases h with
  | mk hdata htitle htext hitems hentries hblocks htable =>
    have hd := hdata.eq Kind.noConfusion Kind.noConfusion
    cases htitle
    cases hitems
    cases hentries
    cases hblocks
    cases htable
    cases htext with
    | none => rw [hd]; rfl
    | shown hkind => cases hkind

theorem forall₂_plain {id : String} {ns : List Node}
    (h : List.Forall₂ (Framed number) [.plain id] ns) : ns = [.plain id] := by
  cases h with
  | cons hn hns =>
    cases hns
    rw [framed_plain hn]

theorem isEmpty_of_forall₂ {R : Node → Node → Prop} {a b : List Node} (h : List.Forall₂ R a b) :
    a.isEmpty = b.isEmpty := by
  cases h <;> rfl

/-- A text shown for changed data could be shown for the data before the change. -/
theorem shown_before {d d' : NodeData} (h : d.Framed number d') {R : Node → Node → Prop}
    {text : Option Inlines} {id : String} (hkind : d'.kind = .inlineFootnote)
    (hvariant : d'.variant = some "xref") (hempty : text.any (!·.isEmpty) = false)
    (hid : (d'.target <|> d'.id) = some id) : TextFramed R text (some [.plain id]) d := by
  rw [← h.rest]
  exact .shown hkind hvariant hempty hid

mutual

theorem Framed.trans : ∀ (n m k : Node), Framed number n m → Framed number m k → Framed number n k
  | ⟨data, title, text, items, entries, blocks, table⟩, m, k => by
    intro h h'
    cases h with
    | mk hdata htitle htext hitems hentries hblocks htable =>
      cases h' with
      | mk hdata' htitle' htext' hitems' hentries' hblocks' htable' =>
        exact .mk (hdata.trans hdata') (framedOpt_trans title _ _ htitle htitle')
          (framedText_trans text _ _ hdata htext htext') (framedAll_trans items _ _ hitems hitems')
          (framedEntries_trans entries _ _ hentries hentries')
          (framedAll_trans blocks _ _ hblocks hblocks')
          (framedTable_trans table _ _ htable htable')

theorem framedAll_trans : ∀ (a b c : List Node), List.Forall₂ (Framed number) a b →
    List.Forall₂ (Framed number) b c → List.Forall₂ (Framed number) a c
  | [], _, _, .nil, .nil => .nil
  | n :: ns, _, _, .cons h hs, .cons h' hs' =>
    .cons (Framed.trans n _ _ h h') (framedAll_trans ns _ _ hs hs')

theorem framedOpt_trans : ∀ (a b c : Option (List Node)),
    Option.Rel (List.Forall₂ (Framed number)) a b →
    Option.Rel (List.Forall₂ (Framed number)) b c →
    Option.Rel (List.Forall₂ (Framed number)) a c
  | none, _, _, .none, .none => .none
  | some ns, _, _, .some h, .some h' => .some (framedAll_trans ns _ _ h h')

theorem framedText_trans : ∀ (a b c : Option (List Node)) {d d' : NodeData}, d.Framed number d' →
    TextFramed (Framed number) a b d → TextFramed (Framed number) b c d' →
    TextFramed (Framed number) a c d
  | a, b, c, d, d', hd, h, h' => by
    cases h' with
    | shown hkind hvariant hempty hid =>
      cases h with
      | none => exact shown_before hd hkind hvariant hempty hid
      | some h =>
        refine shown_before hd hkind hvariant ?_ hid
        simpa [isEmpty_of_forall₂ h] using hempty
      | shown => simp at hempty
    | none =>
      cases h
      exact .none
    | some h' =>
      cases h with
      | some h => exact .some (framedAll_trans _ _ _ h h')
      | shown hkind hvariant hempty hid =>
        rw [forall₂_plain h']
        exact .shown hkind hvariant hempty hid

theorem framedEntries_trans : ∀ (a b c : List (Entry Node)),
    List.Forall₂ (Entry.Rel (Framed number)) a b → List.Forall₂ (Entry.Rel (Framed number)) b c →
    List.Forall₂ (Entry.Rel (Framed number)) a c
  | [], _, _, .nil, .nil => .nil
  | ⟨terms, none⟩ :: es, _, _, .cons (.mk h .none) hs, .cons (.mk h' .none) hs' =>
    .cons (.mk (framedAll_trans terms _ _ h h') .none) (framedEntries_trans es _ _ hs hs')
  | ⟨terms, some d⟩ :: es, _, _, .cons (.mk h (.some hd)) hs, .cons (.mk h' (.some hd')) hs' =>
    .cons (.mk (framedAll_trans terms _ _ h h') (.some (Framed.trans d _ _ hd hd')))
      (framedEntries_trans es _ _ hs hs')

theorem framedTable_trans : ∀ (a b c : Option (Table Node)),
    Option.Rel (Table.Rel (Framed number)) a b → Option.Rel (Table.Rel (Framed number)) b c →
    Option.Rel (Table.Rel (Framed number)) a c
  | none, _, _, .none, .none => .none
  | some ⟨_, head, body, foot⟩, _, _, .some (.mk hh hb hf), .some (.mk hh' hb' hf') =>
    .some (.mk (framedRows_trans head _ _ hh hh') (framedRows_trans body _ _ hb hb')
      (framedRows_trans foot _ _ hf hf'))

theorem framedRows_trans : ∀ (a b c : List (List (Cell Node))),
    List.Forall₂ (List.Forall₂ (Cell.Rel (Framed number))) a b →
    List.Forall₂ (List.Forall₂ (Cell.Rel (Framed number))) b c →
    List.Forall₂ (List.Forall₂ (Cell.Rel (Framed number))) a c
  | [], _, _, .nil, .nil => .nil
  | r :: rs, _, _, .cons h hs, .cons h' hs' =>
    .cons (framedRow_trans r _ _ h h') (framedRows_trans rs _ _ hs hs')

theorem framedRow_trans : ∀ (a b c : List (Cell Node)),
    List.Forall₂ (Cell.Rel (Framed number)) a b → List.Forall₂ (Cell.Rel (Framed number)) b c →
    List.Forall₂ (Cell.Rel (Framed number)) a c
  | [], _, _, .nil, .nil => .nil
  | ⟨_, paragraphs, blocks, _, _, _, _, _⟩ :: cs, _, _, .cons (.mk hp hb) hs,
      .cons (.mk hp' hb') hs' =>
    .cons (.mk (framedParagraphs_trans paragraphs _ _ hp hp')
      (framedAll_trans blocks _ _ hb hb')) (framedRow_trans cs _ _ hs hs')

theorem framedParagraphs_trans : ∀ (a b c : List (List Node)),
    List.Forall₂ (List.Forall₂ (Framed number)) a b →
    List.Forall₂ (List.Forall₂ (Framed number)) b c →
    List.Forall₂ (List.Forall₂ (Framed number)) a c
  | [], _, _, .nil, .nil => .nil
  | p :: ps, _, _, .cons h hs, .cons h' hs' =>
    .cons (framedAll_trans p _ _ h h') (framedParagraphs_trans ps _ _ hs hs')

end

end Node

/-! ### Preparation -/

mutual

theorem framed_numberSection (scope : String) : ∀ (n : Node) (count : Nat),
    Node.Framed true n (numberSection scope n count).1
  | ⟨data, title, text, items, entries, blocks, table⟩, count => by
    have hself : Node.Framed true ⟨data, title, text, items, entries, blocks, table⟩
      ⟨data, title, text, items, entries, blocks, table⟩ := .refl _
    cases hself with
    | mk hdata htitle htext hitems hentries hblocks htable =>
      rw [numberSection]
      by_cases hk : data.kind = .section
      · rw [if_neg (not_not.2 hk)]
        by_cases hl : data.level = 0
        · rw [if_pos hl]
          exact .mk (NodeData.framed_sectnum hk none) htitle htext hitems hentries
            (framed_numberSections scope blocks count) htable
        · rw [if_neg hl]
          by_cases hn : data.numbered
          · rw [if_pos hn]
            exact .mk (NodeData.framed_sectnum hk _) htitle htext hitems hentries
              (framed_numberSections (sectionNumber scope (count + 1)) blocks 0) htable
          · rw [if_neg hn]
            exact .mk (NodeData.framed_sectnum hk none) htitle htext hitems hentries hblocks htable
      · rw [if_pos hk]
        exact .mk hdata htitle htext hitems hentries hblocks htable

theorem framed_numberSections (scope : String) : ∀ (ns : List Node) (count : Nat),
    List.Forall₂ (Node.Framed true) ns (numberSections scope ns count).1
  | [], _ => .nil
  | n :: ns, count =>
    .cons (framed_numberSection scope n count) (framed_numberSections scope ns _)

end

theorem framed_numberIf (number : Bool) (root : Node) :
    Node.Framed number root (Document.numberIf number root) := by
  cases number with
  | false => exact .refl root
  | true =>
    have hself : Node.Framed true root root := .refl root
    cases hself with
    | mk hdata htitle htext hitems hentries _ htable =>
      exact .mk hdata htitle htext hitems hentries (framed_numberSections "" _ 0) htable

theorem framed_indexFootnotes (number : Bool) (root : Node) :
    Node.Framed number root (indexFootnotes root).1 :=
  .trans root (root.visit indexFootnote []).1 _
    (Node.framed_visit NodeData.framed_indexFootnote root [])
    (Node.framed_map Node.showsIds_showUnresolved _)

/-- Preparation changes nothing but the catalog and, in the tree, the numbers of sections, and these
only where numbers are asked for, the indexes of footnotes, and the texts of references to footnotes
that have none. -/
theorem Document.prepareWith_framed (defaults : SortedMap String) (d : Document) :
    let p := d.prepareWith defaults
    Node.Framed (d.asksNumbers defaults) d.root p.root ∧
      p.header = d.header ∧ p.attributes = d.attributes ∧ p.nested = d.nested := by
  refine ⟨?_, rfl, rfl, rfl⟩
  rw [prepareWith_root]
  exact .trans d.root (numberIf (d.asksNumbers defaults) d.root) _
    (framed_numberIf _ _) (framed_indexFootnotes _ _)

end DocPress
