import DesignLayout.Scene.Elastic
import DesignLayout.Settings.Wire

/-!
Snapshots: design documents as forests of entries.

Loading goes through the entries with parents first. It refuses a forest without entries, a text
without text attributes and an id that an earlier entry has; of several faults the first one counts,
and at one entry the missing text attributes. Ids that are generated for entries without one are not
compared. In JSON every part of a snapshot is a record.
-/
namespace DesignLayout

inductive SnapshotError
  | empty
  | duplicateId (id : String)
  | missingText (name : String)
  deriving DecidableEq, Repr

def SnapshotError.message : SnapshotError → String
  | empty => "snapshot contains no nodes"
  | duplicateId id => "duplicate node id " ++ Text.quoted id
  | missingText name => "text node " ++ Text.quoted name ++ " has no text attributes"

namespace Snapshot

/-- An entry and the entries below it, back to front. -/
inductive Entry (α : Type)
  | mk (own : Draft α) (children : List (Entry α))

/-- The scene so far, and the ids that were given. -/
structure Loading (α : Type) where
  scene : Scene α
  given : List String

def Loading.add {α : Type} (l : Loading α) (parent : Option NodeId) (d : Draft α) :
    Except SnapshotError (Loading α) :=
  if d.kind = .text ∧ d.text.isNone then .error (.missingText d.name)
  else match d.guid with
    | none => .ok { l with scene := l.scene.insert parent d }
    | some guid =>
      if l.given.contains guid then .error (.duplicateId guid)
      else .ok { scene := l.scene.insert parent d, given := guid :: l.given }

mutual

def loadEntry {α : Type} (parent : Option NodeId) (l : Loading α) :
    Entry α → Except SnapshotError (Loading α)
  | .mk own children => do
    loadEntries (some l.scene.size) (← l.add parent own) children

def loadEntries {α : Type} (parent : Option NodeId) (l : Loading α) :
    List (Entry α) → Except SnapshotError (Loading α)
  | [] => .ok l
  | e :: rest => do
    loadEntries parent (← loadEntry parent l e) rest

end

def load {α : Type} (entries : List (Entry α)) : Except SnapshotError (ElasticScene α) :=
  if entries.isEmpty then .error .empty
  else do
    let l ← loadEntries none ⟨.empty, []⟩ entries
    return ⟨l.scene, []⟩

end Snapshot

/-! ### JSON -/

open Json (Reader readBool readText readReal readCount readOptional readList readChoice)

def Bounds.read : Reader (Bounds Float) :=
  Json.readRecord [["x"], ["y"], ["width"], ["height"]]
    fun r => Bounds.mk
      <$> r.required "x" readReal
      <*> r.required "y" readReal
      <*> r.required "width" readReal
      <*> r.required "height" readReal

namespace HorizontalConstraint

def name : HorizontalConstraint → String
  | left => "left"
  | right => "right"
  | center => "center"
  | stretch => "stretch"

def ofName? : String → Option HorizontalConstraint
  | "left" => some left
  | "right" => some right
  | "center" => some center
  | "stretch" => some stretch
  | _ => none

end HorizontalConstraint

namespace VerticalConstraint

def name : VerticalConstraint → String
  | top => "top"
  | bottom => "bottom"
  | middle => "middle"
  | stretch => "stretch"

def ofName? : String → Option VerticalConstraint
  | "top" => some top
  | "bottom" => some bottom
  | "middle" => some middle
  | "stretch" => some stretch
  | _ => none

end VerticalConstraint

def Constraints.read : Reader Constraints :=
  Json.readRecord [["horizontal"], ["vertical"]]
    fun r => Constraints.mk
      <$> r.orElse "horizontal" .left (readChoice HorizontalConstraint.ofName?)
      <*> r.orElse "vertical" .top (readChoice VerticalConstraint.ofName?)

namespace TextAttributes

def read : Reader (TextAttributes Float) :=
  Json.readRecord [["content", "text"], ["fontFamily"], ["fontSize"], ["fill"], ["align"],
      ["areaBox"]]
    fun r => TextAttributes.mk
      <$> r.required "content" readText
      <*> r.required "fontFamily" readText
      <*> r.required "fontSize" readReal
      <*> r.orElse "fill" 0 readCount
      <*> r.orElse "align" "left" readText
      <*> r.orElse "areaBox" false readBool

def toJson (t : TextAttributes Float) : Json :=
  .object [("content", .text t.content), ("fontFamily", .text t.fontFamily),
    ("fontSize", .real t.fontSize), ("fill", .whole t.fill), ("align", .text t.align),
    ("areaBox", .bool t.areaBox)]

end TextAttributes

namespace GridMetrics

def read : Reader (GridMetrics Float) :=
  Json.readRecord [["rows"], ["columns"], ["cellWidth"], ["cellHeight"], ["paddingX"],
      ["paddingY"]]
    fun r => GridMetrics.mk
      <$> r.required "rows" readCount
      <*> r.required "columns" readCount
      <*> r.required "cellWidth" readReal
      <*> r.required "cellHeight" readReal
      <*> r.orElse "paddingX" 0.0 readReal
      <*> r.orElse "paddingY" 0.0 readReal

def toJson (g : GridMetrics Float) : Json :=
  .object [("rows", .whole g.rows), ("columns", .whole g.columns),
    ("cellWidth", .real g.cellWidth), ("cellHeight", .real g.cellHeight),
    ("paddingX", .real g.paddingX), ("paddingY", .real g.paddingY)]

end GridMetrics

namespace Snapshot

/-- Reads an entry of at most so many levels. -/
def readEntryWithin : Nat → Reader (Entry Float)
  | 0 => fun _ => .error .malformed
  | levels + 1 =>
    Json.readRecord [["id", "guid"], ["name"], ["kind"], ["bounds"], ["drawBounds"],
        ["markedForExport"], ["constraints"], ["text"], ["grid"], ["children"]]
      fun r =>
        let own := Draft.mk
          <$> r.orElse "id" none (readOptional readText)
          <*> r.required "name" readText
          <*> (Kind.ofTag <$> r.required "kind" readText)
          <*> r.required "bounds" Bounds.read
          <*> r.orElse "drawBounds" none (readOptional Bounds.read)
          <*> r.orElse "markedForExport" false readBool
          <*> r.orElse "constraints" {} Constraints.read
          <*> r.orElse "text" none (readOptional TextAttributes.read)
          <*> r.orElse "grid" none (readOptional GridMetrics.read)
        Entry.mk <$> own <*> r.orElse "children" [] (readList (readEntryWithin levels))

/-- A snapshot has no more levels than its text has nested arrays and objects. -/
def read : Reader (List (Entry Float)) := fun v =>
  Json.readRecord [["children"]]
    (fun r => r.orElse "children" [] (readList (readEntryWithin v.depth))) v

end Snapshot

/-- Why a text gave no scene. -/
inductive LoadError
  | refused (why : Refusal)
  | fault (error : SnapshotError)
  deriving DecidableEq, Repr

/-- The scene of a snapshot's text. -/
def ElasticScene.ofText (s : String) : Except LoadError (ElasticScene Float) :=
  match Json.decode Snapshot.read s with
  | .error why => .error (.refused why)
  | .ok entries => match Snapshot.load entries with
    | .error e => .error (.fault e)
    | .ok t => .ok t

end DesignLayout
