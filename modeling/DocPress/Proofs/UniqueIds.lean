import DocPress.Node.Build
import DocPress.Proofs.Claims
import Mathlib.Data.List.Nodup

/-! The ids of a page are unique where those of the nodes are, but for what goes with borrowed
words: only anchors are taken out of them, so that spans and the boxes of footnotes keep their ids
in the copy. -/

namespace DocPress

set_option autoImplicit false

/-! ### Distinct claims -/

section

variable {ds : List NodeData} {v : List Char}

end

/-! ### Distinct ids -/

/-- Whether the numbers that footnotes of the title have are inert; preparation gives them none. -/
def Scene.InertNumbers (s : Scene) : Prop :=
  ∀ n ∈ Node.walkOpt s.doc.title?, n.kind = .inlineFootnote →
    ∀ x, n.attr? indexName = some x → Inert x

section

variable {s : Scene} {v : List Char}

variable {d : Document} {defaults : SortedMap String} (hd : s.doc = d.prepareWith defaults)

include hd

theorem mem_registered_of_target {id : String} {t : RefTarget}
    (ht : Reference.target? s id = some t) {n : Node} (hn : n ∈ Node.walkOpt t.title) :
    n ∈ s.doc.registered := by
  unfold Reference.target? at ht
  split at ht
  · rename_i target hr
    obtain rfl := Option.some.inj ht
    rw [hd] at hr ⊢
    exact Document.target_prepared hr hn
  · split at ht
    · obtain rfl := Option.some.inj ht
      rw [Document.registered_eq]
      exact List.mem_append_left _ hn
    · cases ht

variable (h : s.InertNodes) (hh : ∀ h, s.highlighter = some h → s.PlainHighlighter h)
  (hnumbers : s.InertNumbers)

include h hh hnumbers

theorem supplied_registered {n : Node} (hn : n ∈ s.doc.registered) : n.Supplied s .inert := by
  have hcovers : Palette.inert.Covers s :=
    covers_of_inert hd h (fun _ hx => hx) fun _ hx => hx
  have hlistings : s.DrawsListings .inert := drawsListings_of_plain (fun _ hx => hx) hh
  rw [Document.registered_eq, List.mem_append] at hn
  rcases hn with htitle | htree
  · exact supplied_of_holds hcovers hlistings (Document.holds_title htitle) (fun _ _ => trivial)
      (hnumbers n htitle)
  · refine supplied_of_holds hcovers hlistings (.tree htree) (fun _ _ => trivial) fun hk x hx => ?_
    rw [hd] at htree
    obtain ⟨i, _, _, rfl⟩ := index_indexFootnotes _ htree hk hx
    exact .decimal i

theorem embedded_read :
    readTags (Page.embedded s).value.chars = some (tagsOf (Page.embedded s).value) := by
  have hscene : s.Supplied .inert := by
    refine scene_supplied (covers_of_inert hd h (fun _ hx => hx) fun _ hx => hx) ?_
    intro id t ht n hn
    exact supplied_registered hd h hh hnumbers (mem_registered_of_target hd ht hn)
  have htitle : SuppliedAll s .inert (Node.walkOpt s.doc.title?) := fun n hn => by
    refine supplied_registered hd h hh hnumbers ?_
    rw [Document.registered_eq]
    exact List.mem_append_left _ hn
  have hblocks : SuppliedAll s .inert (Node.walkAll s.doc.root.blocks) :=
    fun n hn => supplied_registered hd h hh hnumbers (s.doc.blocks_registered hn)
  have hfine := (Page.embedded_drawn hscene htitle (fun _ _ => trivial) hblocks).fine
  have hsealed : Sealed (Page.embedded s).value := Palette.inert_inert.sealed hfine
  exact hsealed.read (FineAll.named _ hfine)

end

namespace Converter

/-- Whether a node inserts no text of its own unescaped. -/
def insertsNone (n : Node) : Bool :=
  n.kind != .pass && n.kind != .inlineCallout && !n.hasOption "inline" && n.sectnum.isNone

/-- A document with at most one attribute, neither a sign nor the scheme of addresses, inserts
nothing unescaped if its nodes do not. -/
theorem inertNodes_of_insertsNone (d : Document) (given : String)
    (hsign : ¬ "-refsig".toList <:+ given.toList) (hscheme : "asset-uri-scheme" ≠ given)
    (hattrs : ∀ name, name ≠ given → d.attr? name = none)
    (hnodes : ∀ n ∈ (d.prepareWith ∅).headerNodes ++ ((d.prepareWith ∅).root.walk ++
      (d.prepareWith ∅).catalog.footnotes.flatMap fun f => Node.walkAll f.text),
      insertsNone n = true) :
    ((⟨.initial, none, .blank⟩ : Converter).scene (d.prepareWith ∅)).InertNodes := by
  set s := (⟨.initial, none, .blank⟩ : Converter).scene (d.prepareWith ∅)
  have hall : ∀ n, s.doc.Holds n → insertsNone n = true := by
    intro n hn
    refine hnodes n ?_
    simp only [List.mem_append]
    cases hn with
    | tree h => exact .inr (.inl h)
    | header h => exact .inl h
    | target ht h => exact (title_prepared rfl ht h).imp_right .inl
    | note hf h => exact .inr (.inr (List.mem_flatMap.2 ⟨_, hf, h⟩))
  have hnone : ∀ name, name ≠ given → s.attr? name = none := by
    intro name hname
    have hdoc : s.attr? name = (d.attr? name <|> none) := rfl
    rw [hdoc, hattrs name hname]
    rfl
  have hsigns : ∀ name, name ++ "-refsig" ≠ given := by
    intro name h
    exact hsign ⟨name.toList, by rw [← String.toList_append, h]⟩
  exact {
    pass := fun n hn hk => by simpa [insertsNone, hk] using hall n hn
    guard := fun n hn hk => by simpa [insertsNone, hk] using hall n hn
    svg := fun n hn _ ho => by simpa [insertsNone, ho] using hall n hn
    sign := fun name x hx => by simp [hnone _ (hsigns name)] at hx
    scheme := fun x hx => by simp [hnone _ hscheme] at hx
    sectnum := fun n hn x hx => by simpa [insertsNone, hx] using hall n hn }

/-- A title shown with a footnote that has a number, in front of a paragraph with another one. -/
def numberSample (number : String) : Document :=
  let note := (Node.ofKind .inlineFootnote).withPlainText "note"
  let paragraph := (Node.ofKind .paragraph).withText [note]
  let shown := (Document.blank.withBlocks [paragraph]).withAttr "showtitle" (.text "")
  shown.withTitle [(Node.ofKind .inlineFootnote).withAttr "index" (.text number)]

theorem numberSample_attr? (number name : String) (h : name ≠ "showtitle") :
    (numberSample number).attr? name = none := by
  have hattrs : (numberSample number).attributes = SortedMap.empty.insert "showtitle" (.text "") :=
    rfl
  simp [Document.attr?, hattrs, Attributes.text?, h]

end Converter

end DocPress
