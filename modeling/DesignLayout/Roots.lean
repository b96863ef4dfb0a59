import DesignLayout.Scene.Basic
import DesignLayout.Settings.Basic

/-!
Export roots: the nodes that get a document of their own.

A candidate is an artboard or an active sub-prefab. Candidates are searched below the selected
nodes, or in the whole scene when nothing is selected, and never inside what is commented out; where
only marked nodes are exported, unmarked candidates are passed over, though not what is below
them. Of several candidates with one display name the last one counts, at the place of the first.
-/
namespace DesignLayout

inductive SelectionError
  | nothingToExport
  | unknownNode (name : String)
  deriving DecidableEq, Repr

def SelectionError.message : SelectionError → String
  | nothingToExport => "no artboard or sub-prefab to export in the current selection"
  | unknownNode name => "selected node " ++ Text.quoted name ++ " does not exist in the document"

/-- What an export compiles, and the artboards that it probes before. -/
structure Roots where
  /-- Display names with their nodes. -/
  named : List (String × NodeId)
  artboards : List NodeId
  deriving DecidableEq, Repr

namespace Roots

/-- Gives a name its node: at the place of the name, if it is there, and else at the end. -/
def put (name : String) (id : NodeId) : List (String × NodeId) → List (String × NodeId)
  | [] => [(name, id)]
  | (other, old) :: rest =>
    if other = name then (name, id) :: rest else (other, old) :: put name id rest

def ids (r : Roots) : List NodeId :=
  r.named.map (·.2)

variable {α : Type}

def isCandidate (o : Options) (n : Node α) (l : Label) : Bool :=
  (n.kind == .artboard || o.active l.directives .subPrefab) && (!o.onlyMarked || n.marked)

mutual

/-- The candidates of a branch with their display names, parents first. -/
def candidates (s : Scene α) (o : Options) : Branch α → List (String × NodeId)
  | .mk id n children =>
    let l := s.label o.extended n
    if l.directives.has .commentOut then []
    else
      (if isCandidate o n l then [(l.name, id)] else []) ++ candidatesAll s o children

def candidatesAll (s : Scene α) (o : Options) : List (Branch α) → List (String × NodeId)
  | [] => []
  | b :: rest => candidates s o b ++ candidatesAll s o rest

end

/-- The roots of an export. -/
def find (s : Scene α) (selection : List NodeId) (o : Options) : Except SelectionError Roots :=
  let searched := if selection.isEmpty then s.topLevel else selection
  let named := (candidatesAll s o (s.branches searched)).foldl (fun named c => put c.1 c.2 named) []
  if named.isEmpty then .error .nothingToExport
  else .ok { named, artboards := (named.filterMap (s.enclosingArtboard? ·.2)).eraseDups }

end Roots

namespace Scene

variable {α : Type}

/-- The first node whose raw label is the name, or else the first one whose display name is. -/
def named? (s : Scene α) (extended : Bool) (name : String) : Option NodeId :=
  (s.preorder.find? fun id => (s.node? id).any (·.name == name)).or
    (s.preorder.find? fun id => (s.node? id).any fun n => (s.label extended n).name == name)

def select (s : Scene α) (extended : Bool) (names : List String) :
    Except SelectionError (List NodeId) :=
  names.mapM fun name => match s.named? extended name with
    | some id => .ok id
    | none => .error (.unknownNode name)

end Scene
end DesignLayout
