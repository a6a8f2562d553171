import DocPress.Files
import DocPress.Node.Kind

/-!
# Warnings

The problems that rendering recovers from, and how each is worded.
-/

namespace DocPress

set_option autoImplicit false

inductive Warning where
  | blockInText (kind : Kind)
  | inlineAmongBlocks (kind : Kind)
  | unknownAnchor (variant : String)
  | bookAbstract
  | misplacedPartIntro
  | remoteSvg (target : String)
  | unreadableSvg (path : String) (cause : FileError)
  | emptySvg (path : String)
  | unreadableStylesheet (path : String) (cause : FileError)
  deriving DecidableEq, Repr

def Warning.message : Warning → String
  | .blockInText kind => "block node \x60" ++ kind.name ++ "\x60 in inline content was skipped"
  | .inlineAmongBlocks kind =>
    "inline node \x60" ++ kind.name ++ "\x60 in block position was skipped"
  | .unknownAnchor variant => "unknown anchor type: " ++ variant
  | .bookAbstract =>
    "abstract block cannot be used in a document without a doctitle when doctype is book; " ++
      "excluding block content"
  | .misplacedPartIntro =>
    "partintro block can only be used when doctype is book and must be a child of a book part; " ++
      "excluding block content"
  | .remoteSvg target => "cannot embed remote SVG: " ++ target
  | .unreadableSvg path cause => "SVG " ++ path ++ " could not be read: " ++ cause.message
  | .emptySvg path => "SVG " ++ path ++ " is empty"
  | .unreadableStylesheet path cause =>
    "stylesheet " ++ path ++ " could not be read: " ++ cause.message

end DocPress
