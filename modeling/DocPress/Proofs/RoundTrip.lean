import DocPress.Proofs.Children
import DocPress.Proofs.Forms

/-! Reading a document from any JSON value that stands for it. The reader of nodes goes as deep as
the value does, so the statements about it bound the depth of the value. -/

namespace DocPress

set_option autoImplicit false

open Json

/-! ### Depths -/

namespace Json

theorem depth_of_mem_fields {f : String × Json} {fs : Fields} (h : f ∈ fs) :
    f.2.depth ≤ depthOfFields fs := by
  induction fs with
  | nil => cases h
  | cons g fs ih =>
    obtain ⟨name, v⟩ := g
    rw [depthOfFields]
    rcases List.mem_cons.1 h with rfl | h
    · exact Nat.le_max_left _ _
    · exact Nat.le_trans (ih h) (Nat.le_max_right _ _)

theorem depth_of_lookup {fs : Fields} {name : String} {v : Json} (h : fs.lookup name = some v) :
    v.depth ≤ depthOfFields fs := by
  obtain ⟨before, after, hsplit, _⟩ := List.lookup_eq_some_iff.1 h
  have hmem : (name, v) ∈ fs := by simp [hsplit]
  exact depth_of_mem_fields hmem

/-! ### Readers -/

section

variable {α : Type}

/-- The reader gets the value back from each of its forms that is not too deep. -/
def Reads (d : Decoder α) (R : Form α) (depth : Nat) (a : α) : Prop :=
  ∀ j : Json, R a j → j.depth ≤ depth → d j = some a

variable {d : Decoder α} {R : Form α} {depth : Nat}

theorem reads_exact {encode : α → Json} {a : α} (h : d (encode a) = some a) :
    Reads d (Exact encode) depth a := by
  rintro _ rfl _
  exact h

theorem mapM_of_forall₂ {as : List α} {js : List Json} (h : List.Forall₂ R as js)
    (hd : ∀ a ∈ as, Reads d R depth a) (hk : depthOfItems js ≤ depth) : js.mapM d = some as := by
  induction h with
  | nil => rfl
  | @cons a j as js hj _ ih =>
    rw [depthOfItems] at hk
    have hhead := hd a List.mem_cons_self j hj (Nat.le_trans (Nat.le_max_left _ _) hk)
    have htail := ih (fun b hb => hd b (List.mem_cons_of_mem _ hb))
      (Nat.le_trans (Nat.le_max_right _ _) hk)
    simp [List.mapM_cons, hhead, htail]

theorem reads_list {as : List α} (hd : ∀ a ∈ as, Reads d R depth a) :
    Reads (.list d) (ListForm R) depth as := by
  rintro _ ⟨h⟩ hk
  exact mapM_of_forall₂ h hd (Nat.le_of_succ_le hk)

/-- A reader that refuses null reads what may be missing. -/
theorem reads_optional {o : Option α} (hnull : d .null = none) (hd : ∀ a ∈ o, Reads d R depth a) :
    Reads (.optional d) (OptionForm R) depth o := by
  intro j h hk
  cases h with
  | none => rfl
  | @some a j h =>
    have hj := hd a rfl j h hk
    cases j with
    | null => rw [hnull] at hj; cases hj
    | _ => simp [Decoder.optional, hj]

/-- The entries of a map are read each under its name. -/
theorem mapM_entries {es : List (String × α)} {fs : Fields}
    (h : List.Forall₂ (fun e f => f.1 = e.1 ∧ R e.2 f.2) es fs)
    (hd : ∀ e ∈ es, Reads d R depth e.2) (hk : depthOfFields fs ≤ depth) :
    (fs.mapM fun f => (d f.2).map fun v => (f.1, v)) = some es := by
  induction h with
  | nil => rfl
  | @cons e f es fs hf _ ih =>
    obtain ⟨name, j⟩ := f
    obtain ⟨rfl, hj⟩ := hf
    rw [depthOfFields] at hk
    have hhead := hd e List.mem_cons_self j hj (Nat.le_trans (Nat.le_max_left _ _) hk)
    have htail := ih (fun x hx => hd x (List.mem_cons_of_mem _ hx))
      (Nat.le_trans (Nat.le_max_right _ _) hk)
    simp [List.mapM_cons, hhead, htail]

theorem reads_map {m : SortedMap α} (hd : ∀ e ∈ m.entries, Reads d R depth e.2) :
    Reads (.map d) (MapForm R) depth m := by
  rintro _ ⟨h⟩ hk
  simp only [Decoder.map, mapM_entries h hd (Nat.le_of_succ_le hk), Option.map_some,
    SortedMap.ofList_entries]

variable {fs : Fields} {name : String}

theorem get_of_field {a default : α} (h : Field R (fs.lookup name) a default)
    (hd : Reads d R depth a) (hk : depthOfFields fs ≤ depth) : fs.get name d default = some a := by
  unfold Fields.get
  revert h
  cases hj : fs.lookup name with
  | none =>
    rintro ⟨⟩
    rfl
  | some j =>
    rintro ⟨h⟩
    exact hd j h (Nat.le_trans (depth_of_lookup hj) hk)

theorem need_of_needed {a : α} (h : Needed R (fs.lookup name) a) (hd : Reads d R depth a)
    (hk : depthOfFields fs ≤ depth) : fs.need name d = some a := by
  unfold Fields.need
  revert h
  cases hj : fs.lookup name with
  | none => rintro ⟨⟩
  | some j =>
    rintro ⟨h⟩
    exact hd j h (Nat.le_trans (depth_of_lookup hj) hk)

theorem get?_of_field {o : Option α} (h : Field (OptionForm R) (fs.lookup name) o none)
    (hnull : d .null = none) (hd : ∀ a ∈ o, Reads d R depth a)
    (hk : depthOfFields fs ≤ depth) : fs.get? name d = some o :=
  get_of_field h (reads_optional hnull hd) hk

end

/-! ### Words, texts and numbers -/

section

variable {depth : Nat}

theorem reads_text (s : String) : Reads Decoder.string Text depth s := reads_exact rfl

theorem reads_flag (b : Bool) : Reads Decoder.bool Flag depth b := reads_exact rfl

theorem reads_word {α : Type} {ofName? : String → Option α} {name : α → String} {a : α}
    (h : ofName? (name a) = some a) : Reads (.word ofName?) (Word name) depth a :=
  reads_exact h

theorem natBelow_ofNat {bound n : Nat} (h : n < bound) :
    Decoder.natBelow bound (ofNat n) = some n := by
  simp [Decoder.natBelow, ofNat, h]

theorem reads_word64 (n : UInt64) : Reads Decoder.word64 Word64 depth n := by
  refine reads_exact ?_
  rw [Decoder.word64, natBelow_ofNat n.toNat_lt_size, Option.map_some, UInt64.ofNat_toNat]

theorem reads_word32 (n : UInt32) : Reads Decoder.word32 Word32 depth n := by
  refine reads_exact ?_
  rw [Decoder.word32, natBelow_ofNat n.toNat_lt_size, Option.map_some, UInt32.ofNat_toNat]

theorem list_ofTexts (texts : List String) :
    Decoder.list Decoder.string (ofTexts texts) = some texts := by
  have hform : ListForm Text texts (ofTexts texts) := .arr (forall₂_map texts fun _ _ => rfl)
  exact reads_list (fun s _ => reads_text s) _ hform (Nat.le_refl _)

theorem reads_texts (texts : List String) :
    Reads (.list Decoder.string) Texts depth texts := reads_exact (list_ofTexts texts)

theorem reads_names (s : NameSet) : Reads Decoder.names (Exact NameSet.encode) depth s := by
  refine reads_exact ?_
  have hkeys : s.keys.map (fun n => (n, ())) = s.entries := by
    rw [SortedMap.keys, List.map_map]
    exact List.map_id s.entries
  rw [Decoder.names, NameSet.encode, list_ofTexts, Option.map_some, NameSet.ofNames, hkeys,
    SortedMap.ofList_entries]

theorem reads_width {width : Option Float} (h : ∀ x ∈ width, x.isFinite = true) :
    Reads Decoder.double.optional (Exact (ofOption ofFloat)) depth width := by
  refine reads_exact ?_
  cases width with
  | none => rfl
  | some x =>
    rw [ofOption, ofFloat, if_pos (h x rfl)]
    rfl

end

end Json

theorem AttrValue.reads {depth : Nat} (v : AttrValue) :
    Reads AttrValue.decoder (Exact AttrValue.encode) depth v := by
  refine reads_exact ?_
  cases v with
  | text s => rfl
  | list items => exact congrArg (Option.map AttrValue.list) (list_ofTexts items)

theorem Attributes.reads {depth : Nat} (a : Attributes) :
    Reads Attributes.decoder Attributes.Form depth a := by
  have hform : MapForm (Exact AttrValue.encode) a a.encode := mapForm_ofMap a fun _ _ => rfl
  exact reads_exact (reads_map (fun e _ => e.2.reads) _ hform (Nat.le_refl _))

/-! ### Records -/

/-- The width of a column, if it has one, is a finite number. -/
def Column.WidthFinite (c : Column) : Prop := ∀ x ∈ c.pcwidth, x.isFinite = true

theorem Column.reads {depth : Nat} {c : Column} (h : c.WidthFinite) :
    Reads Column.decoder Column.Form depth c := by
  rintro _ ⟨hpcwidth, hautowidth⟩ hdepth
  have hk := Nat.le_of_succ_le hdepth
  have h1 := get_of_field hpcwidth (reads_width h) hk
  have h2 := get_of_field hautowidth (reads_flag c.autowidth) hk
  simp [Column.decoder, Fields.ofPartial, Fields.get?, h1, h2]

section

variable {α : Type} {node : Decoder α} {R : Json.Form α} {depth : Nat}

theorem Entry.reads (hnull : node .null = none) {e : Entry α}
    (h : ∀ n ∈ e.nodes, Reads node R depth n) :
    Reads (Entry.decoder node) (Entry.Form R) depth e := by
  rintro _ ⟨hterms, hdescription⟩ hdepth
  have hk := Nat.le_of_succ_le hdepth
  have h1 := get_of_field hterms (reads_list fun n hn => h n (List.mem_append_left _ hn)) hk
  have h2 := get?_of_field hdescription hnull
    (fun n hn => h n (List.mem_append_right _ (Option.mem_toList.2 hn))) hk
  simp [Entry.decoder, Fields.ofPartial, h1, h2]

theorem Cell.reads {c : Cell α} (h : ∀ n ∈ c.nodes, Reads node R depth n) :
    Reads (Cell.decoder node) (Cell.Form R) depth c := by
  rintro _ ⟨hstyle, hparagraphs, hblocks, hsource, hcolspan, hrowspan, hhalign, hvalign⟩ hdepth
  have hk := Nat.le_of_succ_le hdepth
  have hlines : ∀ p ∈ c.paragraphs, Reads (.list node) (ListForm R) depth p := fun p hp =>
    reads_list fun n hn => h n (List.mem_append_left _ (List.mem_flatten.2 ⟨p, hp, hn⟩))
  have h1 := get_of_field hstyle (reads_word (CellStyle.ofName?_name c.style)) hk
  have h2 := get_of_field hparagraphs (reads_list hlines) hk
  have h3 := get_of_field hblocks (reads_list fun n hn => h n (List.mem_append_right _ hn)) hk
  have h4 := get?_of_field hsource rfl (fun s _ => reads_text s) hk
  have h5 := get?_of_field hcolspan rfl (fun n _ => reads_word32 n) hk
  have h6 := get?_of_field hrowspan rfl (fun n _ => reads_word32 n) hk
  have h7 := get_of_field hhalign (reads_word (HAlign.ofName?_name c.halign)) hk
  have h8 := get_of_field hvalign (reads_word (VAlign.ofName?_name c.valign)) hk
  simp [Cell.decoder, Fields.ofPartial, h1, h2, h3, h4, h5, h6, h7, h8]

theorem Table.reads {t : Table α} (hcolumns : ∀ c ∈ t.columns, c.WidthFinite)
    (h : ∀ c ∈ t.cells, ∀ n ∈ c.nodes, Reads node R depth n) :
    Reads (Table.decoder node) (Table.Form R) depth t := by
  rintro _ ⟨hcols, hhead, hbody, hfoot⟩ hdepth
  have hk := Nat.le_of_succ_le hdepth
  have hrows : ∀ rows : List (List (Cell α)), rows.flatten ⊆ t.cells →
      Reads (.list (.list (Cell.decoder node))) (ListForm (ListForm (Cell.Form R))) depth rows :=
    fun rows hsub => reads_list fun row hrow => reads_list fun c hc =>
      Cell.reads (h c (hsub (List.mem_flatten.2 ⟨row, hrow, hc⟩)))
  have h1 := get_of_field hcols (reads_list fun c hc => Column.reads (hcolumns c hc)) hk
  have h2 := get_of_field hhead (hrows t.head (by simp [cells])) hk
  have h3 := get_of_field hbody (hrows t.body (by simp [cells])) hk
  have h4 := get_of_field hfoot (hrows t.foot (by simp [cells])) hk
  simp [Table.decoder, Fields.ofPartial, h1, h2, h3, h4]

end

theorem NodeData.ofFields_of_form {d : NodeData} {fs : Fields} (h : d.Form fs) :
    NodeData.ofFields fs = some d := by
  have hk := Nat.le_refl (depthOfFields fs)
  have h1 := get_of_field h.kind (reads_word (Kind.ofName?_name d.kind)) hk
  have h2 := get?_of_field h.id rfl (fun s _ => reads_text s) hk
  have h3 := get?_of_field h.style rfl (fun s _ => reads_text s) hk
  have h4 := get_of_field h.roles (reads_texts d.roles) hk
  have h5 := get?_of_field h.caption rfl (fun s _ => reads_text s) hk
  have h6 := get_of_field h.level (reads_word64 d.level) hk
  have h7 := get_of_field h.numbered (reads_flag d.numbered) hk
  have h8 := get?_of_field h.sectnum rfl (fun s _ => reads_text s) hk
  have h9 := get?_of_field h.sectname rfl (fun s _ => reads_text s) hk
  have h10 := get?_of_field h.variant rfl (fun s _ => reads_text s) hk
  have h11 := get?_of_field h.target rfl (fun s _ => reads_text s) hk
  have h12 := get?_of_field h.source rfl (fun s _ => reads_text s) hk
  have h13 := get_of_field h.attributes d.attributes.reads hk
  have h14 := get_of_field h.options (reads_names d.options) hk
  simp [NodeData.ofFields, h1, h2, h3, h4, h5, h6, h7, h8, h9, h10, h11, h12, h13, h14]

/-! ### Nodes -/

/-- The widths of the columns of a table that a node may have are finite. -/
def Node.WidthsFinite (n : Node) : Prop := ∀ t ∈ n.table, ∀ c ∈ t.columns, c.WidthFinite

namespace Node

theorem decoderTo_null (depth : Nat) : decoderTo depth .null = none := by
  cases depth <;> rfl

theorem readsTo (n : Node) : (∀ m ∈ n.walk, m.WidthsFinite) →
    ∀ depth, Reads (decoderTo depth) Node.Form depth n := by
  induction n using induction_children with
  | step n ih =>
    rintro hfinite depth _ ⟨hdata, htitle, htext, hblocks, hitems, hentries, htable⟩ hdepth
    cases depth with
    | zero => cases hdepth
    | succ depth =>
      have hk := Nat.le_of_succ_le_succ hdepth
      have hchild : ∀ m ∈ n.children, Reads (decoderTo depth) Node.Form depth m := fun m hm =>
        ih m hm (fun k hk => hfinite k (walk_subset_of_child hm hk)) depth
      have hcolumns := hfinite n n.mem_walk_self
      have h1 := get?_of_field htitle rfl (fun ns hns => reads_list fun m hm =>
        hchild m (mem_children_title (by rw [hns]; exact hm))) hk
      have h2 := get?_of_field htext rfl (fun ns hns => reads_list fun m hm =>
        hchild m (mem_children_text (by rw [hns]; exact hm))) hk
      have h3 := get_of_field hblocks (reads_list fun m hm => hchild m (mem_children_blocks hm)) hk
      have h4 := get_of_field hitems (reads_list fun m hm => hchild m (mem_children_items hm)) hk
      have h5 := get_of_field hentries (reads_list fun e he =>
        Entry.reads (decoderTo_null depth) fun m hm => hchild m (mem_children_entry he hm)) hk
      have h6 := get?_of_field htable rfl (fun t ht => Table.reads (hcolumns t ht) fun c hc m hm =>
        hchild m (mem_children_cell ht hc hm)) hk
      simp [decoderTo, Fields.ofPartial, ofFields, NodeData.ofFields_of_form hdata, h1, h2, h3, h4,
        h5, h6]
      cases n
      rfl

variable {depth : Nat}

theorem reads {n : Node} (h : ∀ m ∈ n.walk, m.WidthsFinite) :
    Reads decoder Node.Form depth n := by
  intro j hj _
  exact n.readsTo h (j.depth + 1) j hj (Nat.le_succ _)

end Node

section

variable {depth : Nat}

theorem Inlines.reads {ns : Inlines} (h : ∀ m ∈ Node.walkAll ns, m.WidthsFinite) :
    Reads Inlines.decoder Inlines.Form depth ns := by
  refine reads_list fun n hn => Node.reads fun m hm => h m ?_
  rw [Node.walkAll_eq]
  exact List.mem_flatMap.2 ⟨n, hn, hm⟩

theorem Author.reads (a : Author) : Reads Author.decoder Author.Form depth a := by
  rintro _ ⟨hname, hemail⟩ hdepth
  have hk := Nat.le_of_succ_le hdepth
  have h1 := get_of_field hname (reads_text a.name) hk
  have h2 := get?_of_field hemail rfl (fun s _ => reads_text s) hk
  simp [Author.decoder, Fields.ofPartial, h1, h2]

theorem Header.reads {h : Header} (htitle : ∀ m ∈ Node.walkAll h.title, m.WidthsFinite)
    (hsubtitle : ∀ m ∈ Node.walkOpt h.subtitle, m.WidthsFinite) :
    Reads Header.decoder Header.Form depth h := by
  rintro _ ⟨h1, h2, h3⟩ hdepth
  have hk := Nat.le_of_succ_le hdepth
  have h1 := get_of_field h1 (Inlines.reads htitle) hk
  have h2 := get?_of_field h2 rfl (fun ns hns => Inlines.reads fun m hm =>
    hsubtitle m (by rw [hns]; exact hm)) hk
  have h3 := get_of_field h3 (reads_list fun a _ => a.reads) hk
  simp [Header.decoder, Fields.ofPartial, h1, h2, h3]

theorem RefTarget.reads {t : RefTarget} (h : ∀ m ∈ Node.walkOpt t.title, m.WidthsFinite) :
    Reads RefTarget.decoder RefTarget.Form depth t := by
  rintro _ ⟨hkind, hid, htitle, hreftext, hcaption, hsectname, hsectnum, hnumbered, hlevel⟩ hdepth
  have hk := Nat.le_of_succ_le hdepth
  have h1 := need_of_needed hkind (reads_word (Kind.ofName?_name t.kind)) hk
  have h2 := need_of_needed hid (reads_text t.id) hk
  have h3 := get?_of_field htitle rfl (fun ns hns => Inlines.reads fun m hm =>
    h m (by rw [hns]; exact hm)) hk
  have h4 := get?_of_field hreftext rfl (fun s _ => reads_text s) hk
  have h5 := get?_of_field hcaption rfl (fun s _ => reads_text s) hk
  have h6 := get?_of_field hsectname rfl (fun s _ => reads_text s) hk
  have h7 := get?_of_field hsectnum rfl (fun s _ => reads_text s) hk
  have h8 := need_of_needed hnumbered (reads_flag t.numbered) hk
  have h9 := need_of_needed hlevel (reads_word64 t.level) hk
  simp [RefTarget.decoder, Fields.ofWhole, h1, h2, h3, h4, h5, h6, h7, h8, h9]

theorem Footnote.reads {f : Footnote} (hindex : f.index < UInt64.size)
    (h : ∀ m ∈ Node.walkAll f.text, m.WidthsFinite) :
    Reads Footnote.decoder Footnote.Form depth f := by
  rintro _ ⟨h1, h2, h3⟩ hdepth
  have hk := Nat.le_of_succ_le hdepth
  have h1 := need_of_needed h1 (reads_exact (natBelow_ofNat hindex)) hk
  have h2 := get?_of_field h2 rfl (fun s _ => reads_text s) hk
  have h3 := need_of_needed h3 (Inlines.reads h) hk
  simp [Footnote.decoder, Fields.ofWhole, h1, h2, h3]

theorem Catalog.reads {c : Catalog}
    (hrefs : ∀ e ∈ c.refs.entries, ∀ m ∈ Node.walkOpt e.2.title, m.WidthsFinite)
    (hindexes : ∀ f ∈ c.footnotes, f.index < UInt64.size)
    (hnotes : ∀ f ∈ c.footnotes, ∀ m ∈ Node.walkAll f.text, m.WidthsFinite) :
    Reads Catalog.decoder Catalog.Form depth c := by
  rintro _ ⟨h1, h2⟩ hdepth
  have hk := Nat.le_of_succ_le hdepth
  have h1 := get_of_field h1 (reads_map fun e he => RefTarget.reads (hrefs e he)) hk
  have h2 := get_of_field h2
    (reads_list fun f hf => Footnote.reads (hindexes f hf) (hnotes f hf)) hk
  simp [Catalog.decoder, Fields.ofPartial, h1, h2]

end

/-! ### Documents -/

/-- The numbers of a document are those of its types: widths of columns are finite, and numbers of
footnotes are words of the machine. -/
structure Document.NumbersFit (d : Document) : Prop where
  widths : ∀ n, d.Holds n → n.WidthsFinite
  indexes : ∀ f ∈ d.catalog.footnotes, f.index < UInt64.size

theorem Document.reads {depth : Nat} {d : Document} (h : d.NumbersFit) :
    Reads Document.decoder Document.Form depth d := by
  rintro _ ⟨h1, h2, h3, h4, h5⟩ hdepth
  have hk := Nat.le_of_succ_le hdepth
  have hheader : ∀ header ∈ d.header, Reads Header.decoder Header.Form depth header := by
    intro header hh
    have hblank : d.headerOrBlank = header := by rw [headerOrBlank, hh]; rfl
    refine Header.reads (fun m hm => h.widths m (.header ?_)) fun m hm => h.widths m (.header ?_)
    · exact List.mem_append_left _ (by rw [hblank]; exact hm)
    · exact List.mem_append_right _ (by rw [hblank]; exact hm)
  have hcatalog : Reads Catalog.decoder Catalog.Form depth d.catalog :=
    Catalog.reads (fun e he m hm => h.widths m (.target (SortedMap.get?_of_mem he) hm)) h.indexes
      fun f hf m hm => h.widths m (.note hf hm)
  have h1 := get_of_field h1 (Node.reads fun m hm => h.widths m (.tree hm)) hk
  have h2 := get?_of_field h2 rfl hheader hk
  have h3 := get_of_field h3 d.attributes.reads hk
  have h4 := get_of_field h4 hcatalog hk
  have h5 := get_of_field h5 (reads_flag d.nested) hk
  simp [Document.decoder, Fields.ofPartial, h1, h2, h3, h4, h5]

/-- A document is read back from its encoding, and from every other value that stands for it:
without fields that have their default, and with fields of unknown names. -/
theorem Document.decoder_form (d : Document) (h : d.NumbersFit) :
    Document.decoder d.encode = some d ∧
      d.Form d.encode ∧ ∀ j, d.Form j → Document.decoder j = some d := by
  have hread : ∀ j, d.Form j → Document.decoder j = some d := fun j hj =>
    Document.reads h j hj (Nat.le_refl _)
  exact ⟨hread _ d.form_encode, d.form_encode, hread⟩

namespace Document

/-- A table with one column of half the width. -/
def halfTable : Node :=
  { Node.ofKind .table with table := some ⟨[⟨some 50.0, false⟩], [], [], []⟩ }

/-- A document with the table and a footnote. -/
def halfWidth : Document :=
  { blank with
    root := { Node.ofKind .document with blocks := [halfTable] }
    catalog := ⟨∅, [⟨1, none, [.plain "short"]⟩]⟩ }

theorem halfWidth_fits : halfWidth.NumbersFit where
  widths n hn := by
    cases hn with
    | tree h =>
      have hcases : n = halfWidth.root ∨ n ∈ halfWidth.root.blocks := by
        simpa [halfWidth, halfTable, Node.walk, Node.walkAll, Node.walkOpt, Node.walkEntries,
          Node.walkTable, Node.walkRows, Node.ofKind, Node.leaf, blank] using h
      rcases hcases with rfl | h
      · rintro _ ⟨⟩
      · obtain rfl := List.mem_singleton.1 h
        rintro _ ⟨⟩ c hc
        obtain rfl := List.mem_singleton.1 hc
        rintro _ ⟨⟩
        decide
    | header h => cases h
    | target ht => cases ht
    | note hf h =>
      obtain rfl := List.mem_singleton.1 hf
      obtain rfl := List.mem_singleton.1 h
      rintro _ ⟨⟩
  indexes f hf := by
    obtain rfl := List.mem_singleton.1 hf
    decide

/-- The table as another program may write it, with a field that is not known here. -/
def halfTableJson : Json :=
  .obj [
    ("kind", .str "table"),
    ("table", .obj [("columns", .arr [.obj [("pcwidth", .float 50.0), ("unit", .null)]])])]

/-- The document as another program may write it. -/
def halfWidthJson : Json :=
  .obj [
    ("root", .obj [("kind", .str "document"), ("made-by", .str "hand"),
      ("blocks", .arr [halfTableJson])]),
    ("catalog", .obj [("footnotes", .arr [.obj [
      ("index", .int 1),
      ("text", .arr [.obj [("source", .str "short"), ("kind", .str "text")]])]])])]

theorem halfTable_form : halfTable.Form halfTableJson := by
  have hcolumn : Column.Form ⟨some 50.0, false⟩
      (.obj [("pcwidth", .float 50.0), ("unit", .null)]) := .obj (.of_eq rfl rfl) .absent
  refine .obj ?_ .absent .absent .absent .absent .absent (.of_eq rfl (.some ?_))
  · constructor <;> first | exact .absent | exact .of_eq rfl rfl
  · exact .obj (.of_eq rfl (.arr (.cons hcolumn .nil))) .absent .absent .absent

theorem halfWidth_form : halfWidth.Form halfWidthJson := by
  refine .obj (.of_eq rfl ?_) .absent .absent (.of_eq rfl ?_) .absent
  · refine .obj ?_ .absent .absent (.of_eq rfl (.arr (.cons halfTable_form .nil))) .absent .absent
      .absent
    constructor <;> first | exact .absent | exact .of_eq rfl rfl
  · have htext : Node.Form (.plain "short")
        (.obj [("source", .str "short"), ("kind", .str "text")]) := by
      refine .obj ?_ .absent .absent .absent .absent .absent .absent
      constructor <;> first | exact .absent | exact .of_eq rfl rfl | exact .of_eq rfl (.some rfl)
    exact .obj .absent (.of_eq rfl (.arr (.cons
      (.obj (.of_eq rfl rfl) .absent (.of_eq rfl (.arr (.cons htext .nil)))) .nil)))

theorem decoder_halfWidth :
    halfWidth.NumbersFit ∧ halfWidth.Form halfWidthJson ∧
      Document.decoder halfWidthJson = some halfWidth :=
  ⟨halfWidth_fits, halfWidth_form,
    (decoder_form halfWidth halfWidth_fits).2.2 _ halfWidth_form⟩

end Document

end DocPress
