import DocPress.Proofs.PageLines

/-! A page put together line by line. When the head is done it is not yet known what a highlighter
adds to it, so a line is kept free there; it is written, or removed, once the body is there. The
page is the same as with the lines of the head written in their place. -/

namespace DocPress

set_option autoImplicit false

/-- Lines that only grow at the end, and the index of the one that is kept free, if there is one. -/
structure LineBuffer where
  lines : Array String
  slot : Option Nat
  slot_lt : ∀ i ∈ slot, i < lines.size

namespace LineBuffer

def blank : LineBuffer := ⟨#[], none, nofun⟩

def push (b : LineBuffer) (line : String) : LineBuffer where
  lines := b.lines.push line
  slot := b.slot
  slot_lt i hi := by
    rw [Array.size_push]
    exact Nat.lt_succ_of_lt (b.slot_lt i hi)

def extend (b : LineBuffer) (lines : List String) : LineBuffer := lines.foldl push b

/-- A further line that is kept free. -/
def reserve (b : LineBuffer) : LineBuffer where
  lines := b.lines.push ""
  slot := some b.lines.size
  slot_lt i hi := by
    rw [Array.size_push, Option.mem_some.mp hi]
    exact Nat.lt_succ_self _

/-- The line that was kept free is written, or removed if there is nothing to write. -/
def settle (b : LineBuffer) (line : Option String) : LineBuffer :=
  match h : b.slot with
  | none => b
  | some i =>
    let lines := match line with
      | some line => b.lines.set i line (b.slot_lt i h)
      | none => b.lines.eraseIdx i (b.slot_lt i h)
    ⟨lines, none, nofun⟩

def text (b : LineBuffer) : String := "\n".intercalate b.lines.toList

variable (b : LineBuffer)

@[simp] theorem toList_push (line : String) :
    (b.push line).lines.toList = b.lines.toList ++ [line] := Array.toList_push

theorem extend_cons (line : String) (lines : List String) :
    b.extend (line :: lines) = (b.push line).extend lines := rfl

@[simp] theorem toList_extend (lines : List String) :
    (b.extend lines).lines.toList = b.lines.toList ++ lines := by
  induction lines generalizing b with
  | nil => exact (List.append_nil _).symm
  | cons line lines ih =>
    rw [extend_cons, ih, toList_push, List.append_assoc, List.singleton_append]

theorem extend_extend (lines further : List String) :
    (b.extend lines).extend further = b.extend (lines ++ further) := List.foldl_append.symm

/-- A line is kept free between the ones before it and those pushed since. -/
structure Keeps (b : LineBuffer) (before since : List String) : Prop where
  slot : b.slot = some before.length
  lines : b.lines.toList = before ++ "" :: since

theorem reserve_keeps : b.reserve.Keeps b.lines.toList [] := ⟨rfl, Array.toList_push⟩

variable {b}

theorem Keeps.push {before since : List String} (h : b.Keeps before since) (line : String) :
    (b.push line).Keeps before (since ++ [line]) where
  slot := h.slot
  lines := by rw [toList_push, h.lines, List.append_assoc, List.cons_append]

/-- What is pushed stands behind the line that is kept free, whose index stays. -/
theorem Keeps.extend {before since : List String} (h : b.Keeps before since)
    (lines : List String) : (b.extend lines).Keeps before (since ++ lines) := by
  induction lines generalizing b since with
  | nil => rwa [List.append_nil]
  | cons line lines ih =>
    have hrest := ih (h.push line)
    rwa [List.append_assoc] at hrest

/-- The line is written in its place, or the others close up as if none had been kept free. -/
theorem Keeps.settle {before since : List String} (h : b.Keeps before since)
    (line : Option String) :
    (b.settle line).lines.toList = before ++ line.toList ++ since := by
  unfold LineBuffer.settle
  split
  · rename_i hnone
    exact absurd (hnone.symm.trans h.slot) nofun
  · rename_i i hi
    have hindex : i = before.length := Option.some.inj (hi.symm.trans h.slot)
    cases line with
    | some line => simp [h.lines, hindex]
    | none => simp [h.lines, hindex, List.eraseIdx_append_of_length_le]

end LineBuffer

/-- What a highlighter writes to the line that is kept for it. -/
def Highlighter.headLine (h : Highlighter) (d : Document) (ctx : AssetContext) : Option String :=
  if h.hasHead then (h.head d ctx).map Markup.render else none

theorem Highlighter.headLine_toList (h : Highlighter) (d : Document) (ctx : AssetContext) :
    (h.headLine d ctx).toList = h.headLines d ctx := by
  unfold headLine headLines
  cases h.hasHead <;> rfl

namespace Page

/-- The highlighter settles the line that is kept for it, and may add one behind the body. -/
def settled (s : Scene) (b : LineBuffer) : LineBuffer :=
  match s.highlighter with
  | none => b
  | some h =>
    let b := b.settle (h.headLine s.doc (assetContext s))
    if h.hasFooter then b.push (h.footer s.doc (assetContext s)).render else b

/-- A page in the order in which its lines are pushed. If there is a highlighter, a line of the head
is kept free for it until the body is there. -/
def assembled (s : Scene) : Rendered LineBuffer := do
  let langAttrs := if s.hasAttr "nolang" then [] else [attr .lang (lang s)]
  let b := LineBuffer.blank.extend ["<!DOCTYPE html>", Tag.html.opening langAttrs, "<head>"]
  let head ← headLines s
  let b := b.extend (head.map Markup.render)
  let b := if s.highlighter.isSome then b.reserve else b
  let b := b.extend ["</head>", Tag.body.opening s.doc.root.data.idAttrs]
  let b := b.extend (if s.hasAttr "shownav" then [] else ["<article>"])
  let body ← bodyLines s
  let b := b.extend (body.map Markup.render)
  let b := settled s b
  let b := b.extend (if s.hasAttr "shownav" then [] else ["</article>"])
  return b.extend ["</body>", "</html>"]

/-- What a highlighter adds stands in the place kept for it, and behind the lines pushed since. -/
theorem settled_lines (s : Scene) (b : LineBuffer) (lines : List String) :
    (settled s ((if s.highlighter.isSome then b.reserve else b).extend lines)).lines.toList =
      b.lines.toList ++ (highlighterHead s).map Markup.render ++ lines ++
        (highlighterFooter s).map Markup.render := by
  cases hs : s.highlighter with
  | none => simp [settled, highlighterHead, highlighterFooter, hs]
  | some h =>
    have hsettled := (b.reserve_keeps.extend lines).settle (h.headLine s.doc (assetContext s))
    rw [h.headLine_toList, List.nil_append] at hsettled
    rw [h.headLines_eq hs, h.footLines_eq hs, ← hsettled, Highlighter.footLines]
    simp only [settled, hs, Option.isSome_some, if_true]
    cases h.hasFooter with
    | false => exact (List.append_nil _).symm
    | true => exact LineBuffer.toList_push _ _

/-- The lines pushed are those around what the highlighter adds. -/
theorem assembled_lines (s : Scene) : (assembled s).value.lines.toList =
    (linesOf s).around ((highlighterHead s).map Markup.render)
      ((highlighterFooter s).map Markup.render) := by
  simp only [assembled, Rendered.value_bind, Rendered.value_pure, LineBuffer.extend_extend,
    LineBuffer.toList_extend, settled_lines]
  simp [Lines.around, linesOf, LineBuffer.blank]

/-- A page put together line by line is the page, with the same warnings. -/
theorem assembled_text (s : Scene) :
    LineBuffer.text <$> assembled s = Markup.render <$> standalone s := by
  apply Rendered.ext
  · rw [Rendered.value_map, Rendered.value_map, standalone_lines, LineBuffer.text, assembled_lines]
  · simp [assembled, standalone]

end Page

end DocPress
