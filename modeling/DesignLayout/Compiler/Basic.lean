import DesignLayout.Compiler.GridScroller
import DesignLayout.Diagnostic
import DesignLayout.Layout.Frame
import DesignLayout.Probe.Measurement
import DesignLayout.Rendition

/-!
Compiling a branch of a scene to layout elements.

What is commented out gives nothing, and so does an active sub-prefab below the root, which has a
document of its own. Nodes of shapes become pictures, groups become containers by their directives,
and the elements below a node are compiled from front to back. A ledger takes down the pictures that
are asked for and the diagnostics, over all roots of one export.
-/
namespace DesignLayout

structure Ledger (α : Type) where
  manifest : Manifest α
  diagnostics : List Diagnostic

def Ledger.empty {α : Type} : Ledger α := ⟨.empty, []⟩

/-- A computation that writes into the ledger. -/
abbrev Compile (α : Type) (β : Type) := StateM (Ledger α) β

namespace Compile

variable {α : Type}

def report (d : Diagnostic) : Compile α Unit :=
  modify fun l => { l with diagnostics := l.diagnostics ++ [d] }

end Compile

/-- The export root that is being compiled. -/
structure Target (α : Type) where
  root : Node α
  folder : String

/-- What all roots of one export are compiled from. -/
structure Compiler (α : Type) where
  scene : Scene α
  context : Context α
  measurements : Measurements α

/-- The child that makes its parent an explicit scroll viewport. -/
def areaName : String := "Area"

namespace Compiler

variable {α : Type}

/-- The container that a group becomes; the first role in force wins. -/
def containerKind? (o : Options) (ds : Directives) : Option (ElementKind α) :=
  if o.active ds .button then some .button
  else if o.active ds .slider then some .slider
  else if o.active ds .scrollbar then some .scrollbar
  else if o.active ds .toggle then some .toggle
  else if o.active ds .list then some (.list .vertical)
  else none

def hasArea (elements : List (Element α)) : Bool :=
  elements.any (·.name == areaName)

/-- The attributes of an element with a place and full opacity. -/
def framed (kind : ElementKind α) (name : String) (f : Frame α) : Attributes α :=
  { kind, name, x := some f.x, y := some f.y, w := some f.w, h := some f.h, opacity := some 100 }

/-- The attributes of an element with a size alone. -/
def sized (kind : ElementKind α) (name : String) (w h : α) : Attributes α :=
  { kind, name, w := some w, h := some h }

/-- The colour without its alpha, in six hexadecimal digits. -/
def colorText (fill : Nat) : String :=
  let digits := Text.hexDigits (fill % 0x1000000)
  String.ofList (List.replicate (6 - digits.length) '0' ++ digits)

variable [Scalar α]

section

variable (c : Compiler α) (t : Target α)

def label (n : Node α) : Label :=
  c.scene.label c.context.options.extended n

def frame (n : Node α) : Frame α :=
  .inRoot n t.root c.context.scale

/-- Asks for a picture of the node. -/
def picture (id : NodeId) (n : Node α) (name : String) : Compile α (Element α) := do
  let parentLabel := ((c.scene.parentOf? n).map (·.name)).getD ""
  let file ← modifyGet fun l =>
    let (file, manifest) :=
      l.manifest.register id n.guid parentLabel name t.folder c.context.scale
    (file, { l with manifest })
  return .mk (framed (.image file) name (c.frame t n)) none

/-- A container with its draw size as a hint. -/
def container (kind : ElementKind α) (n : Node α) (name : String)
    (below : Compile α (List (Element α))) : Compile α (Element α) := do
  let size := n.drawBounds.scaled c.context.scale
  return .mk (sized kind name size.width size.height) (some (← below))

/-- The place of the first source cell within its grid. -/
def cellOffset (n : Node α) : α × α :=
  match n.children.head?.bind c.scene.node? with
  | some cell => (cell.bounds.x - n.bounds.x, cell.bounds.y - n.bounds.y)
  | none => (Scalar.zero, Scalar.zero)

def scroller (n : Node α) (name : String) (below : Compile α (List (Element α))) :
    Compile α (Element α) := do
  let elements ← below
  let frame := c.frame t n
  if hasArea elements then
    return .mk (framed (.scroller { scroll := .vertical }) name frame) (some elements)
  else match n.kind, n.grid with
    | .repeatGrid, some grid =>
      let (layout, items) :=
        grid.scroller (c.cellOffset n) frame.w c.context.scale elements
      return .mk (framed (.scroller layout) name frame) (some items)
    | _, _ =>
      Compile.report (.scrollerWithoutGrid name)
      return .mk (sized .group name frame.w frame.h) (some elements)

def group (id : NodeId) (n : Node α) (l : Label) (below : Compile α (List (Element α))) :
    Compile α (Element α) :=
  let o := c.context.options
  if o.active l.directives .image then c.picture t id n l.name
  else match containerKind? o l.directives with
    | some (.list scroll) => do
      let e ← c.container (.list scroll) n l.name below
      if (e.child? areaName).isNone then Compile.report (.missingArea l.name)
      return e
    | some kind => c.container kind n l.name below
    | none =>
      if o.active l.directives .scroller then c.scroller t n l.name below
      else c.container .group n l.name below

def textContent (text : TextAttributes α) (height : α) : TextContent α :=
  { text := text.content
    flow := if text.areaBox then .paragraph else .point
    font := text.fontFamily
    size := text.fontSize * c.context.scale
    color := colorText text.fill
    align := if text.areaBox then text.align ++ "upper" else text.align
    visualHeight := height }

/-- The text attributes of a node that is to be written as text. -/
def writtenText? (n : Node α) (ds : Directives) : Option (TextAttributes α) :=
  let o := c.context.options
  if (ds.has .text || o.active ds .input) && !o.textAsImage && !ds.has .image then n.text else none

def text (id : NodeId) (n : Node α) (l : Label) : Compile α (Element α) :=
  match c.writtenText? n l.directives with
  | none => c.picture t id n l.name
  | some attributes =>
    let o := c.context.options
    let frame := c.frame t n
    let content := c.textContent attributes frame.h
    let kind :=
      if o.active l.directives .input then .input content
      else if o.richText then .richText content
      else .text content
    return .mk (framed kind l.name frame) none

/-- The element of a node that gives one, the elements below it being compiled by `below`. -/
def node (id : NodeId) (n : Node α) (l : Label) (below : Compile α (List (Element α))) :
    Compile α (Option (Element α)) :=
  match n.kind with
  | .artboard => do
    return some (.mk { kind := .root true, name := l.name } (some (← below)))
  | .booleanGroup => some <$> c.picture t id n l.name
  | .group | .repeatGrid | .symbolInstance => some <$> c.group t id n l below
  | .rectangle | .ellipse | .line | .path => do
    let picture ← c.picture t id n l.name
    let elements ← below
    return some (if elements.isEmpty then picture else .mk picture.own (some elements))
  | .text => some <$> c.text t id n l
  | .other tag => do
    Compile.report (.unknownKind l.name tag)
    let elements ← below
    return if elements.isEmpty then none
      else some (.mk { kind := .group, name := l.name } (some elements))

/-- Takes over what the probe found out about the node. -/
def withParameter (id : NodeId) (e : Element α) : Element α :=
  if c.context.options.responsive then
    match c.measurements.parameter? id with
    | some p => e.setOwn ({ · with
        pivot := p.pivot, stretchX := p.stretchX, stretchY := p.stretchY })
    | none => e
  else e

/-- Whether the compiler passes a node over. -/
def omits (inner : Bool) (l : Label) : Bool :=
  l.directives.has .commentOut || (inner && c.context.options.active l.directives .subPrefab)

mutual

/-- Compiles a branch; `inner` says that it stands below the export root. -/
def branch (inner : Bool) : Branch α → Compile α (Option (Element α))
  | .mk id n children =>
    let l := c.label n
    if c.omits inner l then return none
    else do
      let e ← c.node t id n l (branchesBackward children)
      return e.map (c.withParameter id)

/-- Compiles the branches below a node, the last one first. -/
def branchesBackward : List (Branch α) → Compile α (List (Element α))
  | [] => return []
  | b :: rest => do
    let later ← branchesBackward rest
    let own ← branch true b
    return later ++ own.toList

end
end

end Compiler

/-- An export root with its document. -/
structure CompiledRoot (α : Type) where
  node : NodeId
  name : String
  /-- The folder of the root's pictures. -/
  folder : String
  document : Document α

/-- The name of the root's layout file. -/
def CompiledRoot.fileName {α : Type} (r : CompiledRoot α) : String :=
  r.folder ++ ".layout.txt"

namespace Compiler

variable {α : Type} [Scalar α] (c : Compiler α)

/-- The root element of an export root from which nothing was compiled. -/
def emptyRoot (name : String) : Element α :=
  .mk { kind := .root false, name } (some [])

def root (b : Branch α) : Compile α (CompiledRoot α) := do
  let n := b.node
  let name := (c.label n).name
  let folder := Text.folderName name
  let e := (← c.branch ⟨n, folder⟩ false b).getD (emptyRoot name)
  let document := Document.ofRoot n (c.scene.parentOf? n) c.context.scale e
  return { node := b.id, name, folder, document }

def roots : List (Branch α) → Compile α (List (CompiledRoot α))
  | [] => return []
  | b :: rest => do
    let first ← c.root b
    return first :: (← roots rest)

end Compiler
end DesignLayout
