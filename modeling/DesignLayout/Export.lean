import DesignLayout.Compiler.Basic
import DesignLayout.Roots

/-!
Compiling a whole selection: find the export roots, probe their artboards, compile every root.

Only the probe resizes nodes of the design document, and only when the roots were found. Whether
the document came back from the probe is told in `drift`. An export works on the document in place:
`inPlace` gives it back as it stands then, also when there is no export.
-/
namespace DesignLayout

/-- All that an export gives before anything is written. -/
structure Export (α : Type) where
  roots : List (CompiledRoot α)
  manifest : Manifest α
  measurements : Measurements α
  diagnostics : List Diagnostic
  drift : Option (Drift α)

namespace Export

variable {α : Type} [Scalar α]

/-- Compiles export roots of a scene with what a probe has measured. -/
def compile (s : Scene α) (context : Context α) (m : Measurements α) (r : Roots) : Export α :=
  let (roots, ledger) :=
    (Compiler.roots ⟨s, context, m⟩ (s.branches r.ids)).run Ledger.empty
  { roots, manifest := ledger.manifest, measurements := m, diagnostics := ledger.diagnostics,
    drift := m.drift? }

/-- Probes the artboards, unless the context says not to. -/
def measure {δ : Type} [Host δ α] (doc : δ) (context : Context α) (r : Roots) :
    δ × Measurements α :=
  if context.options.responsive then Measurements.probeAll context.thresholds doc r.artboards
  else (doc, .empty)

/-- Compiles the selected nodes, or everything when nothing is selected. The document stands beside
what came of it. -/
def inPlace {δ : Type} [Host δ α] (doc : δ) (selection : List NodeId) (context : Context α) :
    δ × Except SelectionError (Export α) :=
  match Roots.find (Host.scene doc) selection context.options with
  | .error e => (doc, .error e)
  | .ok roots =>
    let (doc, m) := measure doc context roots
    (doc, .ok (compile (Host.scene doc) context m roots))

/-- The export, if there is one, with the document that it leaves behind. -/
def ofSelection {δ : Type} [Host δ α] (doc : δ) (selection : List NodeId) (context : Context α) :
    Except SelectionError (δ × Export α) :=
  let (doc, result) := inPlace doc selection context
  result.map fun e => (doc, e)

end Export
end DesignLayout
