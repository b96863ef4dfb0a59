import DesignLayout.Json.Basic
import DesignLayout.Layout.Wire
import DesignLayout.Scene.Node
import DesignLayout.Text.FileName

/-!
Renditions: the pictures that an export asks the design tool for.

Requests are queued during one export and handed over as one batch. A picture's name is made of its
parent's label and its own display name; if that is taken, the first characters of the node's id are
appended, and if that is taken too, the first free number from 2 on. So no two requests have one
name.
-/
namespace DesignLayout

structure RenditionRequest (α : Type) where
  /-- The picture's name without its ending. -/
  file : String
  node : NodeId
  /-- The id by which the design tool knows the node. -/
  guid : String
  folder : String
  scale : α

namespace RenditionRequest

variable {α : Type}

def targetFile (r : RenditionRequest α) : String :=
  r.file ++ ".png"

/-- Where the picture is to land below the output folder. -/
def path (r : RenditionRequest α) : String :=
  r.folder ++ "/" ++ r.targetFile

def toJson (r : RenditionRequest Float) : Json :=
  .object [("fileName", .text r.file), ("node", .text r.guid),
    ("target", .object [("folder", .text r.folder), ("fileName", .text r.targetFile)]),
    ("scale", Json.ofReal r.scale)]

end RenditionRequest

/-- The requests of one export in the order in which they came up. -/
structure Manifest (α : Type) where
  requests : List (RenditionRequest α)

namespace Manifest

variable {α : Type}

def empty : Manifest α := ⟨[]⟩

def size (m : Manifest α) : Nat := m.requests.length

def isEmpty (m : Manifest α) : Bool := m.requests.isEmpty

def files (m : Manifest α) : List String := m.requests.map (·.file)

/-- A name is taken when a request is queued under it. No request is ever dropped, so a set of the
taken names, kept beside the requests, would always hold just their files. -/
def contains (m : Manifest α) (file : String) : Bool :=
  m.files.contains file

def baseName (parent role : String) : String :=
  Text.pictureName (parent ++ " - " ++ role)

/-- How many characters of a node's id go into a name. -/
def fragmentLength : Nat := 5

def stemName (base guid : String) : String :=
  Text.pictureName (base ++ "_" ++ String.ofList (guid.toList.take fragmentLength))

/-- The names that are tried one after the other. -/
def candidate (base guid : String) : Nat → String
  | 0 => base
  | 1 => stemName base guid
  | n => stemName base guid ++ "_" ++ toString n

/-- The first candidate that is not taken. The candidates differ from one another, so one more than
there are requests is enough. -/
def freeName (m : Manifest α) (base guid : String) : String :=
  let free := (List.range (m.size + 1)).find? fun n => !m.contains (candidate base guid n)
  candidate base guid (free.getD 0)

/-- Queues a request and returns its name. -/
def register (m : Manifest α) (node : NodeId) (guid parent role folder : String) (scale : α) :
    String × Manifest α :=
  let file := m.freeName (baseName parent role) guid
  (file, ⟨m.requests ++ [⟨file, node, guid, folder, scale⟩]⟩)

def toJson (m : Manifest Float) : Json :=
  .array (m.requests.map (·.toJson))

end Manifest
end DesignLayout
