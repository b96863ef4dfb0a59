import DesignLayout.Probe.Anchor
import DesignLayout.Scene.Elastic
import Std.Data.TreeMap

/-!
The resize probe.

A probe measures a branch, grows its uppermost node, measures again, gives the node its first size
back and measures a third time. A node whose parent was measured with it gets a `Parameter` from
the first two measurements. Measurements of several branches are merged, and a later record of a
node replaces an earlier one. A node whose third measurement differs from its first one has
drifted: the design document was not restored.
-/
namespace DesignLayout

structure Record (α : Type) where
  name : String
  /-- Missing when the node only came up during the probe. -/
  before : Option (Bounds α) := none
  after : Option (Bounds α) := none
  restored : Option (Bounds α) := none
  parameter : Option Parameter := none

/-- A node that did not come back to where it was. -/
structure DriftedNode (α : Type) where
  id : NodeId
  name : String
  before : Bounds α
  restored : Bounds α

/-- All drifted nodes in the order of their numbers. -/
structure Drift (α : Type) where
  nodes : List (DriftedNode α)

def Drift.message {α : Type} (d : Drift α) : String :=
  "bounds changed for " ++ toString d.nodes.length ++
    " node(s) during the responsive probe; undo the export to restore the document"

/-- The records of measured nodes. -/
structure Measurements (α : Type) where
  records : Std.TreeMap NodeId (Record α)

namespace Measurements

variable {α : Type}

def empty : Measurements α := ⟨∅⟩

def record? (m : Measurements α) (id : NodeId) : Option (Record α) :=
  m.records[id]?

def parameter? (m : Measurements α) (id : NodeId) : Option Parameter :=
  (m.record? id).bind (·.parameter)

/-- The records by ascending node. -/
def toList (m : Measurements α) : List (NodeId × Record α) :=
  m.records.toList

/-- Writes the bounds of a branch into its records; `set` says which measurement it is. -/
def sweep (s : Scene α) (root : NodeId) (set : Bounds α → Record α → Record α)
    (m : Measurements α) : Measurements α :=
  ⟨(s.subtree root).foldl (fun records id =>
    match s.node? id with
    | none => records
    | some n => records.insert id (set n.bounds (records[id]?.getD { name := n.name })))
    m.records⟩

/-- The later records replace the earlier ones. -/
def merge (earlier later : Measurements α) : Measurements α :=
  ⟨earlier.records.insertMany later.records.toList⟩

variable [Scalar α]

/-- The parameter of a node that was measured together with its parent. -/
def derive? (t : Thresholds α) (s : Scene α) (m : Measurements α) (id : NodeId) :
    Option Parameter := do
  let own ← m.record? id
  let parent ← m.record? (← (← s.node? id).parent)
  return .derive t (← own.before) (← own.after) (← parent.before) (← parent.after)

def withParameters (t : Thresholds α) (s : Scene α) (m : Measurements α) : Measurements α :=
  ⟨m.records.map fun id r => { r with parameter := m.derive? t s id }⟩

/-- Probes one branch, and leaves the document as the last resize did. -/
def probe {δ : Type} [Host δ α] (t : Thresholds α) (doc : δ) (root : NodeId) :
    δ × Measurements α :=
  match (Host.scene doc).node? root with
  | none => (doc, empty)
  | some n =>
    let first := n.bounds
    let grown :=
      Host.resize doc root (first.width + t.growWidth) (first.height + t.growHeight)
    let back := Host.resize grown root first.width first.height
    let measured :=
      (((empty.sweep (Host.scene doc) root fun b r => { r with before := some b }).sweep
        (Host.scene grown) root fun b r => { r with after := some b }).sweep
        (Host.scene back) root fun b r => { r with restored := some b })
    (back, measured.withParameters t (Host.scene back))

/-- Probes one branch after the other. -/
def probeAll {δ : Type} [Host δ α] (t : Thresholds α) :
    δ → List NodeId → δ × Measurements α
  | doc, roots => roots.foldl (fun (doc, m) root =>
    let (doc, found) := probe t doc root
    (doc, m.merge found)) (doc, empty)

def drifted? (id : NodeId) (r : Record α) : Option (DriftedNode α) := do
  let before ← r.before
  let restored ← r.restored
  if before.same restored then none else some ⟨id, r.name, before, restored⟩

def drift? (m : Measurements α) : Option (Drift α) :=
  match m.toList.filterMap fun (id, r) => drifted? id r with
  | [] => none
  | nodes => some ⟨nodes⟩

end Measurements
end DesignLayout
