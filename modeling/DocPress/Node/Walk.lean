import DocPress.Node.Basic

/-!
# Walks

The order of a document: a node, then its title, text, items, entries (terms before the
description), blocks and table cells (head, body, foot; paragraphs before blocks). `walk` lists
the nodes in this order, `visit` changes the data of each node in this order with a running
state, and `map` changes each node once its children are changed.
-/

namespace DocPress.Node

set_option autoImplicit false

universe u

mutual

/-- The node and all its descendants in document order. -/
def walk : Node → List Node
  | n@⟨_, title, text, items, entries, blocks, table⟩ =>
    n :: (walkOpt title ++ walkOpt text ++ walkAll items ++ walkEntries entries ++
      walkAll blocks ++ walkTable table)

def walkAll : List Node → List Node
  | [] => []
  | n :: ns => walk n ++ walkAll ns

def walkOpt : Option (List Node) → List Node
  | none => []
  | some ns => walkAll ns

def walkEntries : List (Entry Node) → List Node
  | [] => []
  | ⟨terms, none⟩ :: es => walkAll terms ++ walkEntries es
  | ⟨terms, some d⟩ :: es => walkAll terms ++ walk d ++ walkEntries es

def walkTable : Option (Table Node) → List Node
  | none => []
  | some ⟨_, head, body, foot⟩ => walkRows head ++ walkRows body ++ walkRows foot

def walkRows : List (List (Cell Node)) → List Node
  | [] => []
  | r :: rs => walkRow r ++ walkRows rs

def walkRow : List (Cell Node) → List Node
  | [] => []
  | ⟨_, paragraphs, blocks, _, _, _, _, _⟩ :: cs =>
    walkParagraphs paragraphs ++ walkAll blocks ++ walkRow cs

def walkParagraphs : List (List Node) → List Node
  | [] => []
  | p :: ps => walkAll p ++ walkParagraphs ps

end

variable {σ : Type u}

mutual

/-- Changes the data of every node in document order, from a state to a state. -/
def visit (f : Node → σ → NodeData × σ) : Node → σ → Node × σ
  | n@⟨_, title, text, items, entries, blocks, table⟩, s =>
    let (data, s) := f n s
    let (title, s) := visitOpt f title s
    let (text, s) := visitOpt f text s
    let (items, s) := visitAll f items s
    let (entries, s) := visitEntries f entries s
    let (blocks, s) := visitAll f blocks s
    let (table, s) := visitTable f table s
    (⟨data, title, text, items, entries, blocks, table⟩, s)

def visitAll (f : Node → σ → NodeData × σ) : List Node → σ → List Node × σ
  | [], s => ([], s)
  | n :: ns, s =>
    let (n, s) := visit f n s
    let (ns, s) := visitAll f ns s
    (n :: ns, s)

def visitOpt (f : Node → σ → NodeData × σ) : Option (List Node) → σ → Option (List Node) × σ
  | none, s => (none, s)
  | some ns, s =>
    let (ns, s) := visitAll f ns s
    (some ns, s)

def visitEntries (f : Node → σ → NodeData × σ) : List (Entry Node) → σ → List (Entry Node) × σ
  | [], s => ([], s)
  | ⟨terms, none⟩ :: es, s =>
    let (terms, s) := visitAll f terms s
    let (es, s) := visitEntries f es s
    (⟨terms, none⟩ :: es, s)
  | ⟨terms, some d⟩ :: es, s =>
    let (terms, s) := visitAll f terms s
    let (d, s) := visit f d s
    let (es, s) := visitEntries f es s
    (⟨terms, some d⟩ :: es, s)

def visitTable (f : Node → σ → NodeData × σ) : Option (Table Node) → σ → Option (Table Node) × σ
  | none, s => (none, s)
  | some ⟨columns, head, body, foot⟩, s =>
    let (head, s) := visitRows f head s
    let (body, s) := visitRows f body s
    let (foot, s) := visitRows f foot s
    (some ⟨columns, head, body, foot⟩, s)

def visitRows (f : Node → σ → NodeData × σ) :
    List (List (Cell Node)) → σ → List (List (Cell Node)) × σ
  | [], s => ([], s)
  | r :: rs, s =>
    let (r, s) := visitRow f r s
    let (rs, s) := visitRows f rs s
    (r :: rs, s)

def visitRow (f : Node → σ → NodeData × σ) : List (Cell Node) → σ → List (Cell Node) × σ
  | [], s => ([], s)
  | ⟨style, paragraphs, blocks, source, colspan, rowspan, halign, valign⟩ :: cs, s =>
    let (paragraphs, s) := visitParagraphs f paragraphs s
    let (blocks, s) := visitAll f blocks s
    let (cs, s) := visitRow f cs s
    (⟨style, paragraphs, blocks, source, colspan, rowspan, halign, valign⟩ :: cs, s)

def visitParagraphs (f : Node → σ → NodeData × σ) : List (List Node) → σ → List (List Node) × σ
  | [], s => ([], s)
  | p :: ps, s =>
    let (p, s) := visitAll f p s
    let (ps, s) := visitParagraphs f ps s
    (p :: ps, s)

end

mutual

/-- Changes every node by `f`, children first. -/
def map (f : Node → Node) : Node → Node
  | ⟨data, title, text, items, entries, blocks, table⟩ =>
    f ⟨data, mapOpt f title, mapOpt f text, mapAll f items, mapEntries f entries,
      mapAll f blocks, mapTable f table⟩

def mapAll (f : Node → Node) : List Node → List Node
  | [] => []
  | n :: ns => map f n :: mapAll f ns

def mapOpt (f : Node → Node) : Option (List Node) → Option (List Node)
  | none => none
  | some ns => some (mapAll f ns)

def mapEntries (f : Node → Node) : List (Entry Node) → List (Entry Node)
  | [] => []
  | ⟨terms, none⟩ :: es => ⟨mapAll f terms, none⟩ :: mapEntries f es
  | ⟨terms, some d⟩ :: es => ⟨mapAll f terms, some (map f d)⟩ :: mapEntries f es

def mapTable (f : Node → Node) : Option (Table Node) → Option (Table Node)
  | none => none
  | some ⟨columns, head, body, foot⟩ =>
    some ⟨columns, mapRows f head, mapRows f body, mapRows f foot⟩

def mapRows (f : Node → Node) : List (List (Cell Node)) → List (List (Cell Node))
  | [] => []
  | r :: rs => mapRow f r :: mapRows f rs

def mapRow (f : Node → Node) : List (Cell Node) → List (Cell Node)
  | [] => []
  | ⟨style, paragraphs, blocks, source, colspan, rowspan, halign, valign⟩ :: cs =>
    ⟨style, mapParagraphs f paragraphs, mapAll f blocks, source, colspan, rowspan, halign, valign⟩
      :: mapRow f cs

def mapParagraphs (f : Node → Node) : List (List Node) → List (List Node)
  | [] => []
  | p :: ps => mapAll f p :: mapParagraphs f ps

end

end DocPress.Node
