import DocPress.Reference

/-! Scenes that agree on the attributes, the files and the base directory make the same running
text of the same nodes, whatever their documents hold, once references are worded alike. -/

namespace DocPress

set_option autoImplicit false

/-- Two scenes give the same answers to what running text asks of a scene. -/
structure Scene.Agree (s t : Scene) : Prop where
  attr? : s.attr? = t.attr?
  files : s.files = t.files
  baseDir : s.options.baseDir = t.options.baseDir

namespace Scene.Agree

variable {s t : Scene} (h : s.Agree t)

include h

/-! ### Lookups -/

theorem hasAttr : s.hasAttr = t.hasAttr := by
  funext name
  simp only [Scene.hasAttr, h.attr?]

theorem attrIs : s.attrIs = t.attrIs := by
  funext name value
  simp only [Scene.attrIs, h.attr?]

theorem nodeAttr? : s.nodeAttr? = t.nodeAttr? := by
  funext d name fallback
  simp only [Scene.nodeAttr?, h.attr?]

theorem icons : s.icons = t.icons := by
  simp only [Scene.icons, h.hasAttr]

theorem fontIcons : s.fontIcons = t.fontIcons := by
  simp only [Scene.fontIcons, h.attrIs]

theorem assetScheme : s.assetScheme = t.assetScheme := by
  simp only [Scene.assetScheme, h.attr?]

theorem cdnBaseUrl : s.cdnBaseUrl = t.cdnBaseUrl := by
  simp only [Scene.cdnBaseUrl, h.assetScheme]

theorem imageUri : s.imageUri = t.imageUri := by
  funext target
  simp only [Scene.imageUri, h.attr?]

theorem iconsDir : s.iconsDir = t.iconsDir := by
  simp only [Scene.iconsDir, h.attr?]

theorem iconUri : s.iconUri = t.iconUri := by
  funext icon name
  simp only [Scene.iconUri, h.attr?, h.iconsDir]

theorem basePath : s.basePath = t.basePath := by
  funext path
  simp only [Scene.basePath, h.baseDir]

theorem readSvg : Svg.read s = Svg.read t := by
  funext d target
  simp only [Svg.read, Svg.pathOf, h.attr?, h.basePath, h.files]

/-! ### Running text -/

theorem callout : Inline.callout s = Inline.callout t := by
  funext d
  simp only [Inline.callout, h.fontIcons, h.icons, h.iconUri]

theorem picture : Inline.picture s = Inline.picture t := by
  funext d dimensions
  simp only [Inline.picture, h.readSvg, h.imageUri]

theorem icon : Inline.icon s = Inline.icon t := by
  funext d dimensions
  simp only [Inline.icon, h.fontIcons, h.icons, h.iconUri]

theorem image : Inline.image s = Inline.image t := by
  funext d
  simp only [Inline.image, h.icon, h.picture]

theorem menu : Inline.menu s = Inline.menu t := by
  funext d
  simp only [Inline.menu, Inline.caret, h.fontIcons]

end Scene.Agree

namespace Scene.Agree

variable {s t : Scene} (wording : Wording)

mutual

theorem inlineAs (h : s.Agree t) (kind : Kind) :
    ∀ n : Node, DocPress.inlineAs s wording kind n = DocPress.inlineAs t wording kind n
  | ⟨d, _, text, _, _, _, _⟩ => by
    have hcontent := inlineContent h d text
    have hor := inlineOr h text
    cases kind <;> simp only [DocPress.inlineAs, hcontent, hor, h.callout, h.image, h.menu]

theorem inlines (h : s.Agree t) :
    ∀ ns : List Node, DocPress.inlines s wording ns = DocPress.inlines t wording ns
  | [] => by simp only [DocPress.inlines]
  | n :: ns => by simp only [DocPress.inlines, inlineAs h n.data.kind n, inlines h ns]

theorem inlineContent (h : s.Agree t) (d : NodeData) : ∀ text : Option (List Node),
    DocPress.inlineContent s wording d text = DocPress.inlineContent t wording d text
  | some ns => by simp only [DocPress.inlineContent, inlines h ns]
  | none => by simp only [DocPress.inlineContent]

theorem inlineOr (h : s.Agree t) : ∀ (text : Option (List Node)) (other : Rendered Markup),
    DocPress.inlineOr s wording text other = DocPress.inlineOr t wording text other
  | some (n :: ns), _ => by simp only [DocPress.inlineOr, inlines h (n :: ns)]
  | some [], _ => by simp only [DocPress.inlineOr]
  | none, _ => by simp only [DocPress.inlineOr]

end

end Scene.Agree

end DocPress
