import DesignLayout.Export

/-!
Delivering an export: one layout file and one picture folder for each root, and then the batch of
pictures that are asked for.

`OutputFolder` and `Rasterizer` are what a delivery needs of the outside, in any monad. Each of
their calls may fail; a failure becomes a diagnostic, and the delivery goes on. Nothing is called
when the selection gives no export.
-/
namespace DesignLayout

inductive OutputError
  | file (path reason : String)
  | rasterizer (reason : String)
  deriving DecidableEq, Repr

def OutputError.message : OutputError → String
  | file path reason => path ++ ": " ++ reason
  | rasterizer reason => "rasterizer: " ++ reason

/-- Where layout files and picture folders are written; names are relative to it. -/
structure OutputFolder (m : Type → Type) where
  ensureFolder : String → m (Except OutputError Unit)
  writeText : String → String → m (Except OutputError Unit)

/-- Makes the pictures of a batch, and tells how many. -/
structure Rasterizer (m : Type → Type) where
  createRenditions : Manifest Float → m (Except OutputError Nat)

/-- What became of an export. -/
structure Report where
  /-- The layout files that were written. -/
  documents : List String
  /-- How many pictures were asked for. -/
  renditions : Nat
  /-- How many pictures were made. -/
  rasterized : Nat
  diagnostics : List Diagnostic
  drift : Option (Drift Float)

namespace Export

variable {m : Type → Type} [Monad m]

def failure (file : String) : Except OutputError Unit → List Diagnostic
  | .ok _ => []
  | .error e => [.writeFailed file e.message]

/-- Writes the roots; gives the files that were written and the failures. -/
def writeRoots (out : OutputFolder m) :
    List (CompiledRoot Float) → m (List String × List Diagnostic)
  | [] => return ([], [])
  | r :: rest => do
    let folder ← out.ensureFolder r.folder
    let file ← out.writeText r.fileName r.document.text
    let (files, failures) ← writeRoots out rest
    let written := match file with
      | .ok _ => [r.fileName]
      | .error _ => []
    return (written ++ files, failure r.folder folder ++ failure r.fileName file ++ failures)

/-- Hands the batch over, if there is one; gives how many pictures were made and the failures. -/
def rasterize (r : Rasterizer m) (manifest : Manifest Float) : m (Nat × List Diagnostic) := do
  if manifest.isEmpty then return (0, [])
  else match ← r.createRenditions manifest with
    | .ok count => return (count, [])
    | .error e => return (0, [.rasterizeFailed manifest.size e.message])

def deliver (e : Export Float) (out : OutputFolder m) (r : Rasterizer m) : m Report := do
  let (documents, failures) ← writeRoots out e.roots
  let (rasterized, failed) ← rasterize r e.manifest
  return {
    documents
    renditions := e.manifest.size
    rasterized
    diagnostics := e.diagnostics ++ failures ++ failed
    drift := e.drift }

/-- Compiles the selection and delivers it. The document stands beside what came of it. -/
def runInPlace {δ : Type} [Host δ Float] (doc : δ) (selection : List NodeId)
    (context : Context Float) (out : OutputFolder m) (r : Rasterizer m) :
    m (δ × Except SelectionError Report) := do
  let (doc, result) := inPlace doc selection context
  match result with
  | .error e => return (doc, .error e)
  | .ok e => return (doc, .ok (← e.deliver out r))

/-- The report, if there was an export, with the document that the run leaves behind. -/
def run {δ : Type} [Host δ Float] (doc : δ) (selection : List NodeId) (context : Context Float)
    (out : OutputFolder m) (r : Rasterizer m) : m (Except SelectionError (δ × Report)) := do
  let (doc, result) ← runInPlace doc selection context out r
  return result.map fun report => (doc, report)

end Export
end DesignLayout
