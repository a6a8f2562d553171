import DocPress.Markup.ClassList
import DocPress.Node.Basic

/-!
# Attributes from nodes

The attributes that elements take from the node they stand for.
-/

namespace DocPress.NodeData

set_option autoImplicit false

def idAttrs (d : NodeData) : List Attr := optAttr .id d.id

def roleAttrs (d : NodeData) : List Attr := (ClassList.empty.push? d.role?).attrs

/-- The fixed class of an element, then the roles. -/
def classAttrs (d : NodeData) (base : String) : List Attr :=
  ((ClassList.base base).push? d.role?).attrs

/-- Where a link opens, and what it says of its target. -/
def linkAttrs (d : NodeData) : List Attr :=
  let nofollow := if d.hasOption "nofollow" then ["nofollow"] else []
  let window := d.attr? "window"
  let noopener := match window with
    | some w => if w == "_blank" || d.hasOption "noopener" then ["noopener"] else []
    | none => []
  let rel := nofollow ++ noopener
  optAttr .target window ++ if rel.isEmpty then [] else [attr .rel (" ".intercalate rel)]

end DocPress.NodeData
