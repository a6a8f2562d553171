import DocPress.Config.Expand
import DocPress.Files
import DocPress.Options

/-!
# Configurations

The settings of a configuration file, what the host sets on top of them, and what makes them
valid.
-/

namespace DocPress

set_option autoImplicit false

structure ConfigFile where
  standalone : Option Bool
  baseDir : Option String
  attributes : SortedMap String
  chrome : Chrome

/-- Settings in use: the base directory is seen from where the file stands. -/
structure Config where
  written : Option String
  standalone : Bool
  baseDir : String
  attributes : SortedMap String
  chrome : Chrome
  path : Option String

/-- What the host sets in place of the settings of the file. -/
structure Overrides where
  standalone : Option Bool
  baseDir : Option String
  attributes : List (String × String)

inductive Invalid where
  | emptyBaseDir
  | emptyAttributeName
  | blankInAttributeName (name : String)
  | emptyTitle (lang : String)
  | emptyHref (lang : String)
  deriving DecidableEq, Repr

def Invalid.message : Invalid → String
  | .emptyBaseDir => "output.base_dir cannot be empty"
  | .emptyAttributeName => "attribute name cannot be empty"
  | .blankInAttributeName name => "attribute name '" ++ name ++ "' cannot contain whitespace"
  | .emptyTitle lang => "chrome.navigation." ++ lang ++ ".title cannot be empty"
  | .emptyHref lang => "chrome.navigation." ++ lang ++ ".href cannot be empty"

inductive ConfigError where
  | notFound (path : String)
  | unreadable (cause : FileError)
  | malformed
  | invalid (cause : Invalid)
  | unsetVariable (field name : String)
  deriving DecidableEq, Repr

def ConfigError.message : ConfigError → String
  | .notFound path => "Configuration file not found: " ++ path
  | .unreadable cause => "I/O error: " ++ cause.message
  | .malformed => "TOML parse error"
  | .invalid cause => "Configuration error: " ++ cause.message
  | .unsetVariable field name =>
    "Environment variable error in " ++ field ++ ": $\x7b" ++ name ++
      "\x7d: environment variable not found"

namespace Config

/-- The settings without a file, seen from a directory. -/
def initial (dir : String) : Config := ⟨none, true, dir, ∅, .blank, none⟩

def attributeFault? (name : String) : Option Invalid :=
  if name.isEmpty then some .emptyAttributeName
  else if name.toList.any Text.isBlank then some (.blankInAttributeName name)
  else none

def linkFault? (lang : String) (l : NavLink) : Option Invalid :=
  if l.title.isEmpty then some (.emptyTitle lang)
  else if l.href.isEmpty then some (.emptyHref lang)
  else none

/-- The first fault: of the base directory, then of the attributes, then of the links. -/
def fault? (c : Config) : Option Invalid :=
  if c.written = some "" || c.baseDir.isEmpty then some .emptyBaseDir
  else c.attributes.keys.findSome? attributeFault? <|>
    c.chrome.navigation.entries.findSome? fun e => e.2.findSome? (linkFault? e.1)

def validated (c : Config) : Except ConfigError Config :=
  match c.fault? with
  | some cause => .error (.invalid cause)
  | none => .ok c

/-- The settings with those of the host on top. -/
def override (c : Config) (o : Overrides) : Config :=
  { c with
    standalone := o.standalone.getD c.standalone
    baseDir := o.baseDir.getD c.baseDir
    attributes := o.attributes.foldl (fun m e => m.insert e.1 e.2) c.attributes }

def options (c : Config) : Options := ⟨c.standalone, c.baseDir, c.attributes, c.chrome⟩

end Config

end DocPress
