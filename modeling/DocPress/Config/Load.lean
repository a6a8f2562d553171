import DocPress.Config.Basic
import DocPress.Toml.Parser

/-!
# Loading configurations

A configuration is read from the file that is named, else from the nearest `wl.toml` in the
current directory or above it. It is read, expanded, seen from its directory and checked; what
the host sets comes on top and is checked again.
-/

namespace DocPress

set_option autoImplicit false

namespace Toml

def bool? : Toml → Option Bool
  | .bool b => some b
  | _ => none

def string? : Toml → Option String
  | .str s => some s
  | _ => none

/-- The one key of a date that stands in for a table. -/
def dateKey : String := "$__toml_private_datetime"

def entries? : Toml → Option (List (String × Toml))
  | .table entries => some entries
  | .moment m => some [(dateKey, .str m.render)]
  | _ => none

/-- The entries of a record. Values under other names are passed over, but their numbers must be
such that they can be held. An array gives its values in the order of the names, and nothing is
asked of the values after them. -/
def fields? (names : List String) (t : Toml) : Option (List (String × Toml)) :=
  match t with
  | .arr items => some (names.zip items)
  | t => t.entries?.filter fun entries => entries.all fun e => names.contains e.1 || e.2.isHeld

def map? {α : Type} (read : Toml → Option α) (t : Toml) : Option (SortedMap α) := do
  let entries ← t.entries?
  let values ← entries.mapM fun e => (read e.2).map fun v => (e.1, v)
  return .ofList values

def list? {α : Type} (read : Toml → Option α) : Toml → Option (List α)
  | .arr items => items.mapM read
  | _ => none

def optional {α : Type} (entries : List (String × Toml)) (key : String) (read : Toml → Option α) :
    Option (Option α) :=
  match entries.lookup key with
  | some v => (read v).map some
  | none => some none

def defaulted {α : Type} (entries : List (String × Toml)) (key : String) (read : Toml → Option α)
    (default : α) : Option α :=
  (optional entries key read).map fun v => v.getD default

end Toml

def NavLink.ofToml? (t : Toml) : Option NavLink := do
  let entries ← t.fields? ["title", "href"]
  let title ← (entries.lookup "title").bind Toml.string?
  let href ← (entries.lookup "href").bind Toml.string?
  return ⟨title, href⟩

def Chrome.ofToml? (t : Toml) : Option Chrome := do
  let entries ← t.fields? ["navigation", "footer"]
  let navigation ←
    Toml.defaulted entries "navigation" (Toml.map? (Toml.list? NavLink.ofToml?)) ∅
  let footer ← Toml.defaulted entries "footer" (Toml.map? Toml.string?) ∅
  return ⟨navigation, footer⟩

namespace ConfigFile

def outputOf? (t : Toml) : Option (Option Bool × Option String) := do
  let entries ← t.fields? ["standalone", "base_dir"]
  let standalone ← Toml.optional entries "standalone" Toml.bool?
  let baseDir ← Toml.optional entries "base_dir" Toml.string?
  return (standalone, baseDir)

/-- The settings in the tables of a text; unknown keys are passed over. -/
def ofEntries? (entries : List (String × Toml)) : Option ConfigFile := do
  let entries ← (Toml.table entries).fields? ["output", "attributes", "chrome"]
  let (standalone, baseDir) ← Toml.defaulted entries "output" outputOf? (none, none)
  let attributes ← Toml.defaulted entries "attributes" (Toml.map? Toml.string?) ∅
  let chrome ← Toml.defaulted entries "chrome" Chrome.ofToml? .blank
  return ⟨standalone, baseDir, attributes, chrome⟩

def parse (content : String) : Except ConfigError ConfigFile :=
  match (Toml.parse? content).bind ofEntries? with
  | some file => .ok file
  | none => .error .malformed

/-- Expands a setting; the field is named when a variable of it is not set. -/
def expandField (env : Environment) (field value : String) : Except ConfigError String :=
  (expandSetting env value).mapError (.unsetVariable field)

def expandAttributes (env : Environment) (attributes : SortedMap String) :
    Except ConfigError (SortedMap String) := do
  let entries ← attributes.entries.mapM fun e => do
    return (e.1, ← expandField env ("attributes." ++ e.1) e.2)
  return .ofList entries

def expandNavigation (env : Environment) (navigation : SortedMap (List NavLink)) :
    Except ConfigError (SortedMap (List NavLink)) := do
  let entries ← navigation.entries.mapM fun e => do
    let links ← e.2.mapM fun l => do
      let href ← expandField env ("chrome.navigation." ++ e.1 ++ ".href") l.href
      return { l with href := href }
    return (e.1, links)
  return .ofList entries

/-- Expands the base directory, the attributes and the addresses of links, in this order. -/
def expand (env : Environment) (f : ConfigFile) : Except ConfigError ConfigFile := do
  let baseDir ← f.baseDir.mapM (expandField env "output.base_dir")
  let attributes ← expandAttributes env f.attributes
  let navigation ← expandNavigation env f.chrome.navigation
  return { f with baseDir, attributes, chrome := { f.chrome with navigation } }

def resolve (f : ConfigFile) (path : String) : Config where
  written := f.baseDir
  standalone := f.standalone.getD true
  baseDir := Path.join (Path.parent path) (f.baseDir.getD ".")
  attributes := f.attributes
  chrome := f.chrome
  path := some path

end ConfigFile

namespace Config

/-- The name of a configuration file that is looked for. -/
def fileName : String := "wl.toml"

/-- The nearest configuration file, from the current directory upwards. -/
def discover? (files : Files) : Option String :=
  (files.ancestors.map fun dir => Path.join dir fileName).find? files.exists?

/-- Reads, expands, resolves and checks a file. -/
def loadFile (files : Files) (env : Environment) (path : String) : Except ConfigError Config := do
  let content ← (files.read path).mapError .unreadable
  let file ← ConfigFile.parse content
  let file ← file.expand env
  (file.resolve path).validated

/-- The settings before the host's: of the named file, of the nearest, or of no file. -/
def loadBase (files : Files) (env : Environment) (path : Option String) :
    Except ConfigError Config :=
  match path with
  | some path => if files.exists? path then loadFile files env path else .error (.notFound path)
  | none =>
    match discover? files with
    | some path => loadFile files env path
    | none => .ok (initial (files.locate files.current))

def load (files : Files) (env : Environment) (path : Option String) (overrides : Option Overrides) :
    Except ConfigError Config := do
  let config ← loadBase files env path
  match overrides with
  | some o => (config.override o).validated
  | none => return config

end Config

end DocPress
