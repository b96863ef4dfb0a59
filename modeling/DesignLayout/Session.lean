import DesignLayout.Export
import DesignLayout.Scene.Snapshot

/-!
Sessions: what a plug-in of the design tool talks to.

A session keeps loaded documents under handles, counted from zero and never given twice. An export
goes over the whole document and describes the result in one JSON text; nothing is written, since
the plug-in has the file system and the renderer.
-/
namespace DesignLayout

inductive ExportError
  | snapshot (error : LoadError)
  | settingsRefused (why : Refusal)
  | settings (error : SettingsError)
  | selection (error : SelectionError)
  | unknownHandle (handle : Nat)
  deriving DecidableEq, Repr

/-- The text of an error; the text of refused JSON is left to whoever read it. -/
def ExportError.message : ExportError → String
  | snapshot (.refused _) => "snapshot: invalid JSON"
  | snapshot (.fault e) => "snapshot: " ++ e.message
  | settingsRefused _ => "settings: invalid JSON"
  | settings e => "config: " ++ e.message
  | selection e => "selection: " ++ e.message
  | unknownHandle handle => "invalid document handle " ++ toString handle

namespace Export

def rootJson (r : CompiledRoot Float) : Json :=
  .object [("name", .text r.name), ("folder", .text r.folder), ("file", .text r.fileName),
    ("layout", r.document.toJson)]

/-- The description of an export. -/
def toJson (e : Export Float) : Json :=
  .object
    [("documents", .array (e.roots.map rootJson)),
     ("renditions", e.manifest.toJson),
     ("diagnostics", .array (e.diagnostics.map fun d => .text d.message)),
     ("drift", (e.drift.map fun d => Json.text d.message).getD .null)]

/-- What the text of the settings comes to. -/
def contextOfText (settings : String) : Except ExportError (Context Float) := do
  let settings ← (Settings.ofText settings).mapError ExportError.settingsRefused
  settings.context.mapError ExportError.settings

/-- Exports a whole document by the text of its settings. The document stands beside what came of
it. -/
def describeInPlace {δ : Type} [Host δ Float] (doc : δ) (settings : String) :
    δ × Except ExportError Json :=
  match contextOfText settings with
  | .error e => (doc, .error e)
  | .ok context =>
    let (doc, result) := inPlace doc [] context
    (doc, (result.mapError ExportError.selection).map (·.toJson))

/-- The description, if there is one, with the document that the export leaves behind. -/
def describe {δ : Type} [Host δ Float] (doc : δ) (settings : String) :
    Except ExportError (δ × Json) :=
  let (doc, result) := describeInPlace doc settings
  result.map fun json => (doc, json)

end Export

structure Session where
  documents : List (Option (ElasticScene Float))

namespace Session

def empty : Session := ⟨[]⟩

def document? (s : Session) (handle : Nat) : Option (ElasticScene Float) :=
  (s.documents[handle]?).join

/-- Loads a snapshot; its handle is the number of loads before. -/
def load (s : Session) (snapshot : String) : Except ExportError (Session × Nat) := do
  let t ← (ElasticScene.ofText snapshot).mapError ExportError.snapshot
  return (⟨s.documents ++ [some t]⟩, s.documents.length)

/-- Exports a loaded document, which stays loaded. -/
def exportText (s : Session) (handle : Nat) (settings : String) :
    Except ExportError (Session × String) :=
  match s.document? handle with
  | none => .error (.unknownHandle handle)
  | some t => do
    let (t, result) ← Export.describe t settings
    return (⟨s.documents.set handle (some t)⟩, result.compact)

/-- Forgets a document; tells whether it was loaded. -/
def release (s : Session) (handle : Nat) : Session × Bool :=
  match s.document? handle with
  | none => (s, false)
  | some _ => (⟨s.documents.set handle none⟩, true)

/-- Loads and exports a snapshot without keeping it. -/
def compile (snapshot settings : String) : Except ExportError String := do
  let t ← (ElasticScene.ofText snapshot).mapError ExportError.snapshot
  let (_, result) ← Export.describe t settings
  return result.compact

/-- How a label is read, as a JSON text. -/
def labelText (label : String) (inGrid : Bool) : String :=
  let l := Label.parse label inGrid true
  Json.compact (.object [("name", .text l.name), ("options", .text l.directives.render)])

end Session
end DesignLayout
