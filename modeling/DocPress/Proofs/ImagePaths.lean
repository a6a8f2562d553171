import DocPress.Svg
import Mathlib.Data.List.Basic

/-! Where inline SVGs are read from. The address of an image and the path of its file are put
together in different ways; they come to the same path, apart from slashes that are repeated, and
so to the same file. -/

namespace DocPress

set_option autoImplicit false

/-! ### Components -/

namespace Path

/-- What a path is made of. -/
inductive Component where
  | root
  | here
  | above
  | name (s : String)
  deriving DecidableEq, Repr

/-- The component that a segment stands for; blank ones and single dots stand for none. -/
def component? (segment : String) : Option Component :=
  if segment = "" ∨ segment = "." then none
  else if segment = ".." then some .above
  else some (.name segment)

/-- The components of a path; two paths are equal if these are. A single dot counts only at the
start of a path that is not absolute. -/
def components (path : String) : List Component :=
  (if isAbsolute path then [.root]
    else if (segments path).head? = some "." then [.here] else []) ++
    (segments path).filterMap component?

end Path

/-! ### Repeated slashes -/

/-- Whether the first list is the second one with blank segments ahead of other segments. -/
inductive Padded : List String → List String → Prop where
  | refl (segments : List String) : Padded segments segments
  | blank {padded segments : List String} (h : Padded padded segments) (hne : segments ≠ []) :
    Padded ("" :: padded) segments
  | cons (segment : String) {padded segments : List String} (h : Padded padded segments) :
    Padded (segment :: padded) (segment :: segments)

namespace Padded

variable {padded segments : List String}

theorem append (front : List String) (h : Padded padded segments) :
    Padded (front ++ padded) (front ++ segments) := by
  induction front with
  | nil => exact h
  | cons s front ih => exact .cons s ih

theorem replicate (n : Nat) (hne : segments ≠ []) :
    Padded (List.replicate n "" ++ segments) segments := by
  induction n with
  | zero => exact .refl segments
  | succ n ih => exact .blank ih hne

theorem components (h : Padded padded segments) :
    padded.filterMap Path.component? = segments.filterMap Path.component? := by
  induction h with
  | refl => rfl
  | blank _ _ ih => exact ih
  | cons s _ ih => rw [List.filterMap_cons, List.filterMap_cons, ih]

/-- Blank segments lead nowhere; but what follows them has to be in a directory. -/
theorem follow (h : Padded padded segments) :
    ∀ trees : List FileTree, Files.follow trees padded = Files.follow trees segments := by
  induction h with
  | refl => exact fun _ => rfl
  | @blank padded segments h hne ih =>
    intro trees
    obtain ⟨s, rest, rfl⟩ := List.exists_cons_of_ne_nil hne
    cases trees with
    | nil => exact ih []
    | cons tree outer =>
      cases tree with
      | directory entries => exact ih _
      | text content => rfl
      | binary => rfl
  | cons s _ ih =>
    intro trees
    cases trees with
    | nil => simp only [Files.follow, ih]
    | cons tree outer =>
      cases tree with
      | directory entries => simp only [Files.follow, ih]
      | text content => rfl
      | binary => rfl

/-- Leading names are taken off together with the blank segments between them. -/
theorem dropLeading (h : Padded padded segments) : ∀ base : List String,
    Option.Rel Padded (Files.belowRoot?.dropLeading base padded)
      (Files.belowRoot?.dropLeading base segments) := by
  induction h with
  | refl segments =>
    intro base
    cases Files.belowRoot?.dropLeading base segments with
    | none => exact .none
    | some rest => exact .some (.refl rest)
  | blank h hne ih =>
    intro base
    cases base with
    | nil =>
      simp only [Files.belowRoot?.dropLeading]
      exact .some (Padded.blank h hne)
    | cons b base => exact ih (b :: base)
  | cons s h ih =>
    intro base
    cases base with
    | nil => exact .some (Padded.cons s h)
    | cons b base =>
      simp only [Files.belowRoot?.dropLeading]
      split
      · exact ih (b :: base)
      · split
        · exact ih base
        · exact .none

end Padded

namespace Path

theorem pieces_slashes (front : List Char) (n : Nat) :
    Text.pieces '/' (front ++ List.replicate n '/') =
      Text.pieces '/' front ++ List.replicate n [] := by
  induction n with
  | zero => rw [List.replicate_zero, List.replicate_zero, List.append_nil, List.append_nil]
  | succ n ih =>
    have hlast := Text.pieces_append '/' (front ++ List.replicate n '/') []
    rw [List.replicate_succ', List.replicate_succ', ← List.append_assoc, hlast, ih,
      List.append_assoc]
    rfl

section

variable (front back : List Char) (n : Nat)

/-- The segments of a path in which a slash is repeated. -/
theorem segments_repeated : ∃ first padded rest,
    segments (String.ofList (front ++ List.replicate n '/' ++ '/' :: back)) = first :: padded ∧
      segments (String.ofList (front ++ '/' :: back)) = first :: rest ∧ Padded padded rest := by
  obtain ⟨p, ps, hfront⟩ := List.exists_cons_of_ne_nil (Text.pieces_ne_nil '/' front)
  have hback : (Text.pieces '/' back).map String.ofList ≠ [] := by
    simpa using Text.pieces_ne_nil '/' back
  refine ⟨String.ofList p, ps.map String.ofList ++ (List.replicate n "" ++
    (Text.pieces '/' back).map String.ofList), ps.map String.ofList ++
    (Text.pieces '/' back).map String.ofList, ?_, ?_, (Padded.replicate n hback).append _⟩
  · rw [segments, Text.split, String.toList_ofList, Text.pieces_append, pieces_slashes, hfront]
    simp
  · rw [segments, Text.split, String.toList_ofList, Text.pieces_append, hfront]
    simp

theorem isAbsolute_repeated :
    isAbsolute (String.ofList (front ++ List.replicate n '/' ++ '/' :: back)) =
      isAbsolute (String.ofList (front ++ '/' :: back)) := by
  simp only [isAbsolute, String.toList_ofList]
  cases front with
  | nil => cases n <;> rfl
  | cons c front => rfl

/-- Repeating a slash does not change a path. -/
theorem components_repeated :
    components (String.ofList (front ++ List.replicate n '/' ++ '/' :: back)) =
      components (String.ofList (front ++ '/' :: back)) := by
  obtain ⟨first, padded, rest, hpadded, hrest, h⟩ := segments_repeated front back n
  rw [components, components, isAbsolute_repeated, hpadded, hrest, List.filterMap_cons,
    List.filterMap_cons, h.components]
  rfl

/-- Nor does it change which file is read. -/
theorem read_repeated (files : Files) :
    files.read (String.ofList (front ++ List.replicate n '/' ++ '/' :: back)) =
      files.read (String.ofList (front ++ '/' :: back)) := by
  have hblank (cs : List Char) : (String.ofList (cs ++ '/' :: back)).isEmpty = false := by
    rw [String.isEmpty_eq_false_iff, ne_eq, ← String.toList_eq_nil_iff, String.toList_ofList]
    simp
  obtain ⟨first, padded, rest, hpadded, hrest, h⟩ := segments_repeated front back n
  have hall : Padded (first :: padded) (first :: rest) := .cons first h
  have hfind : files.find (String.ofList (front ++ List.replicate n '/' ++ '/' :: back)) =
      files.find (String.ofList (front ++ '/' :: back)) := by
    rw [Files.find, Files.find, hblank, hblank, isAbsolute_repeated, hpadded, hrest,
      Files.belowRoot?, Files.belowRoot?, hpadded, hrest]
    have hbelow := hall.dropLeading
      ((segments files.location).filter fun s => !Files.isIdle s)
    have hcurrent := (hall.append files.current).follow [files.root]
    rw [hcurrent, hall.follow []]
    generalize Files.belowRoot?.dropLeading _ (first :: padded) = p at hbelow ⊢
    generalize Files.belowRoot?.dropLeading _ (first :: rest) = q at hbelow ⊢
    cases hbelow with
    | none => rfl
    | some hpq => simp only [hpq.follow]
  rw [Files.read, Files.read, hfind]

end

/-- Whether two paths are spelled alike but for a slash that the first of them repeats. -/
inductive Respelled : String → String → Prop where
  | refl (path : String) : Respelled path path
  | repeated (front back : List Char) (n : Nat) :
    Respelled (String.ofList (front ++ List.replicate n '/' ++ '/' :: back))
      (String.ofList (front ++ '/' :: back))

namespace Respelled

variable {a b : String}

theorem components (h : Respelled a b) : Path.components a = Path.components b := by
  cases h with
  | refl => rfl
  | repeated front back n => exact components_repeated front back n

theorem read (h : Respelled a b) (files : Files) : files.read a = files.read b := by
  cases h with
  | refl => rfl
  | repeated front back n => exact read_repeated front back n files

end Respelled

/-! ### Joining -/

/-- A text that is not blank is what is left without the slashes at its end, and these slashes. -/
theorem trimEnd_slashes (dir : String) : ∃ n,
    dir.toList = (Text.trimEnd '/' dir).toList ++ List.replicate n '/' ∧
      (n = 0 ↔ dir.toList.getLast? ≠ some '/') := by
  have hslashes : dir.toList.reverse.takeWhile (· == '/') =
      List.replicate (dir.toList.reverse.takeWhile (· == '/')).length '/' := by
    refine List.eq_replicate_of_mem fun c hc => ?_
    have hall := List.all_takeWhile (p := (· == '/')) (l := dir.toList.reverse)
    exact beq_iff_eq.1 (List.all_eq_true.1 hall c hc)
  refine ⟨(dir.toList.reverse.takeWhile (· == '/')).length, ?_, ?_⟩
  · have hsplit := congrArg List.reverse
      (List.takeWhile_append_dropWhile (p := (· == '/')) (l := dir.toList.reverse))
    rw [List.reverse_reverse, List.reverse_append, hslashes, List.reverse_replicate] at hsplit
    rw [Text.trimEnd, String.toList_ofList, Text.dropEnd]
    exact hsplit.symm
  · rw [List.length_eq_zero_iff, ← List.head?_reverse]
    cases dir.toList.reverse with
    | nil => simp
    | cons c rest => by_cases hc : c = '/' <;> simp [hc]

/-- What stands ahead of a path that is seen from a directory. -/
def lead (base : String) (absolute : Bool) : List Char :=
  if absolute || base.isEmpty then []
  else if base.toList.getLast? == some '/' then base.toList
  else base.toList ++ ['/']

theorem join_eq (base path : String) :
    join base path = String.ofList (lead base (isAbsolute path) ++ path.toList) := by
  rw [← String.toList_inj, String.toList_ofList]
  unfold join lead
  split
  · rfl
  · split <;> simp

/-- Joined one after the other, or the last two first without the slashes between them, three parts
come to the same but for how often the slash between the last two is there. -/
theorem join_join (base : String) {dir target : String} (hdir : dir ≠ "")
    (htarget : isAbsolute target = false) : Respelled (join (join base dir) target)
      (join base (Text.trimEnd '/' dir ++ "/" ++ target)) := by
  obtain ⟨n, hsplit, hn⟩ := trimEnd_slashes dir
  have hne : dir.toList ≠ [] := fun h => hdir (String.toList_eq_nil_iff.1 h)
  have habsolute : isAbsolute (Text.trimEnd '/' dir ++ "/" ++ target) = isAbsolute dir := by
    rw [isAbsolute, isAbsolute, hsplit, String.toList_append, String.toList_append]
    cases htrim : (Text.trimEnd '/' dir).toList with
    | cons c rest => rfl
    | nil =>
      cases n with
      | zero => exact absurd (by rw [hsplit, htrim]; rfl) hne
      | succ n => rfl
  have hlast : (lead base (isAbsolute dir) ++ dir.toList).getLast? = dir.toList.getLast? :=
    List.getLast?_append_of_ne_nil _ hne
  have hfull : (String.ofList (lead base (isAbsolute dir) ++ dir.toList)).isEmpty = false := by
    rw [String.isEmpty_eq_false_iff, ne_eq, ← String.toList_eq_nil_iff, String.toList_ofList]
    exact List.append_ne_nil_of_right_ne_nil _ hne
  have hfront : join (join base dir) target =
      String.ofList (lead base (isAbsolute dir) ++ (Text.trimEnd '/' dir).toList ++
        List.replicate (n - 1) '/' ++ '/' :: target.toList) := by
    rw [join_eq base dir, join_eq, htarget, lead, hfull, String.toList_ofList, hlast]
    cases n with
    | zero =>
      have hend : (dir.toList.getLast? == some '/') = false := beq_false_of_ne (hn.1 rfl)
      rw [hend, hsplit]
      simp
    | succ n =>
      have hend : dir.toList.getLast? = some '/' := Classical.not_not.1 (mt hn.2 nofun)
      rw [hend, hsplit, List.replicate_succ']
      simp
  have hback : join base (Text.trimEnd '/' dir ++ "/" ++ target) =
      String.ofList (lead base (isAbsolute dir) ++ (Text.trimEnd '/' dir).toList ++
        '/' :: target.toList) := by
    rw [join_eq, habsolute, String.toList_append, String.toList_append]
    simp
  rw [hfront, hback]
  exact .repeated _ _ _

end Path

namespace Svg

variable {s : Scene} {target : String}

theorem pathOf_respelled (hdir : ∀ dir, s.attr? "imagesdir" = some dir → Asset.isUri dir = false)
    (htarget : Asset.isUri target = false) :
    Path.Respelled (pathOf s target) (Path.join s.options.baseDir (s.imageUri target)) := by
  unfold pathOf Scene.imageUri Asset.join
  cases hattr : s.attr? "imagesdir" with
  | none => exact .refl _
  | some dir =>
    have hplain := hdir dir hattr
    by_cases hempty : dir.isEmpty = true
    · simp only [hempty, Bool.true_or, if_true]
      exact .refl _
    · simp only [hempty, hplain, htarget, Bool.or_false, Bool.false_or, Bool.false_eq_true,
        if_false, Scene.basePath]
      by_cases habsolute : Path.isAbsolute target = true
      · -- An absolute target wins over both directories.
        have hwins (base : String) : Path.join base target = target := by
          rw [Path.join, habsolute]
          rfl
        rw [if_pos habsolute, hwins, hwins]
        exact .refl _
      · rw [if_neg habsolute]
        exact Path.join_join _ (fun h => hempty (h ▸ rfl)) (Bool.not_eq_true _ ▸ habsolute)

/-- An inline SVG is read at the path that its address names below the base directory, if neither
the address nor the directory of images is one of the web. -/
theorem read_imageUri (s : Scene) (d : NodeData)
    (hdir : ∀ dir, s.attr? "imagesdir" = some dir → Asset.isUri dir = false)
    (htarget : Asset.isUri target = false) :
    let named := Path.join s.options.baseDir (s.imageUri target)
    let path := pathOf s target
    Path.components path = Path.components named ∧
      read s d target = match s.files.read named with
        | .error cause => .warn (.unreadableSvg path cause) none
        | .ok svg =>
          if svg.isEmpty then .warn (.emptySvg path) none
          else pure (some (resize svg (d.attr? "width") (d.attr? "height"))) := by
  intro named path
  have hpath : Path.Respelled path named := pathOf_respelled hdir htarget
  refine ⟨hpath.components, ?_⟩
  rw [read, htarget, ← hpath.read]
  rfl

/-- A directory of images with slashes at its end. -/
theorem read_slashedDirectory :
    let files : Files := ⟨"/", .directory [("img", .directory [("a.svg", .text "<svg/>")])], []⟩
    let s : Scene := ⟨Document.blank.withAttr "imagesdir" (.text "img//"), .initial, files, none⟩
    (∀ dir, s.attr? "imagesdir" = some dir → Asset.isUri dir = false) ∧
      Asset.isUri "a.svg" = false ∧ pathOf s "a.svg" = "./img//a.svg" ∧
      Path.components "./img//a.svg" = Path.components "./img/a.svg" ∧
      (read s {} "a.svg").value = some "<svg/>" := by
  intro files s
  have hattr : s.attr? "imagesdir" = some "img//" := by decide +kernel
  have hdir : ∀ dir, s.attr? "imagesdir" = some dir → Asset.isUri dir = false := by
    intro dir h
    obtain rfl := Option.some.inj (hattr.symm.trans h)
    decide
  have htarget : Asset.isUri "a.svg" = false := by decide
  obtain ⟨hcomponents, hread⟩ := read_imageUri s {} hdir htarget
  have hpath : pathOf s "a.svg" = "./img//a.svg" := by decide +kernel
  have hnamed : Path.join s.options.baseDir (s.imageUri "a.svg") = "./img/a.svg" := by
    decide +kernel
  rw [hpath, hnamed] at hcomponents
  refine ⟨hdir, htarget, hpath, hcomponents, ?_⟩
  rw [hread, hnamed]
  decide +kernel

end Svg

end DocPress
