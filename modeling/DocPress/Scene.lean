import DocPress.Asset
import DocPress.Files
import DocPress.Highlighter.Basic
import DocPress.Options

/-!
# Scenes

Everything that rendering looks at: the document, the options, the files and the highlighter. An
attribute is looked up in the node, then in the document, then among the options.
-/

namespace DocPress

set_option autoImplicit false

structure Scene where
  doc : Document
  options : Options
  files : Files
  highlighter : Option Highlighter

namespace Scene

/-- A document attribute, or the default of that name. -/
def attr? (s : Scene) (name : String) : Option String :=
  s.doc.attr? name <|> s.options.attributes.get? name

def hasAttr (s : Scene) (name : String) : Bool := (s.attr? name).isSome

def attrIs (s : Scene) (name value : String) : Bool := s.attr? name == some value

/-- A node attribute, or the document attribute named `fallback`. -/
def nodeAttr? (s : Scene) (d : NodeData) (name fallback : String) : Option String :=
  d.attr? name <|> s.attr? fallback

def icons (s : Scene) : Bool := s.hasAttr "icons"

def fontIcons (s : Scene) : Bool := s.attrIs "icons" "font"

/-- The scheme of asset addresses with its colon; nothing when it is blank. -/
def assetScheme (s : Scene) : String :=
  let scheme := (s.attr? "asset-uri-scheme").getD "https"
  if scheme.isEmpty then "" else scheme ++ ":"

def cdnBaseUrl (s : Scene) : String := s.assetScheme ++ "//cdnjs.cloudflare.com/ajax/libs"

/-- The address of an image, which audio and video share. -/
def imageUri (s : Scene) (target : String) : String := Asset.join (s.attr? "imagesdir") target

/-- The directory of icons: its own attribute, else below the one of images. -/
def iconsDir (s : Scene) : String :=
  match s.attr? "iconsdir", s.attr? "imagesdir" with
  | some dir, _ => dir
  | none, some dir => if dir.isEmpty then "./images/icons" else Text.trimEnd '/' dir ++ "/icons"
  | none, none => "./images/icons"

/-- The address of an icon; `icon` may name another file, with or without an extension. -/
def iconUri (s : Scene) (icon : Option String) (name : String) : String :=
  let type := (s.attr? "icontype").getD "png"
  let file := match icon with
    | some icon => if (Path.extension? icon).isSome then icon else icon ++ "." ++ type
    | none => name ++ "." ++ type
  Asset.join (some s.iconsDir) file

/-- Where files of the base directory are read from. -/
def basePath (s : Scene) (path : String) : String := Path.join s.options.baseDir path

end Scene

end DocPress
