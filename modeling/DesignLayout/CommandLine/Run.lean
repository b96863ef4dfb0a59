import DesignLayout.CommandLine.Arguments
import DesignLayout.Scene.Snapshot
import DesignLayout.Session
import DesignLayout.Storage.Disk

/-!
The command line: exporting a snapshot, listing what the probe finds out, reading a label, telling
the version.

A run gives an exit code, what is printed and perhaps an error. Arguments that break a rule end the
run with code 2, a failed run ends with code 1. An export that was only partly written is reported
in full and ends with code 1.
-/
namespace DesignLayout.CommandLine

/-- How a run ended. -/
structure Outcome where
  exit : Nat
  output : String := ""
  error : Option String := none
  deriving DecidableEq, Repr

namespace Outcome

def usage : Outcome := { exit := 2 }

def failed (error : String) : Outcome := { exit := 1, error := some error }

end Outcome

def lines (ls : List String) : String :=
  String.join (ls.map (· ++ "\n"))

/-! ### Commands -/

def exportRule : CommandRule where
  options :=
    [{ name := "out", letter := some 'o', takes := .path },
     { name := "scale", takes := .text },
     { name := "settings", takes := .path },
     { name := "all", takes := .nothing },
     { name := "no-extended", takes := .nothing },
     { name := "no-responsive", takes := .nothing },
     { name := "no-sub-prefab", takes := .nothing },
     { name := "no-rich-text", takes := .nothing },
     { name := "text-to-image", takes := .nothing },
     { name := "select", takes := .text, repeats := true }]
  positional := [.path]

def probeRule : CommandRule where
  options := [{ name := "artboard", takes := .text }, { name := "settings", takes := .path }]
  positional := [.path]

def nameRule : CommandRule where
  options := [{ name := "in-grid", takes := .nothing }]
  positional := [.text]

/-- The settings with what the arguments say instead. -/
def applyArguments (g : Given) (s : Settings) : Settings :=
  { s with
    scale := ((g.value? "scale").map ScaleSetting.text).getD s.scale
    folder := (g.value? "out").or s.folder
    options := {
      onlyMarked := s.options.onlyMarked && !g.has "all"
      extended := s.options.extended && !g.has "no-extended"
      responsive := s.options.responsive && !g.has "no-responsive"
      subPrefabs := s.options.subPrefabs && !g.has "no-sub-prefab"
      richText := s.options.richText && !g.has "no-rich-text"
      textAsImage := s.options.textAsImage || g.has "text-to-image" } }

section

variable {m : Type → Type} [Monad m] (d : Disk m)

def readFile (path : String) : ExceptT String m String := do
  match ← ExceptT.lift (d.read path) with
  | .ok text => return text
  | .error _ => throw ("failed to read " ++ path)

/-- The settings of a file, or the standard ones without a file. -/
def readSettings (path : Option String) : ExceptT String m Settings := do
  match path with
  | none => return {}
  | some path =>
    let text ← readFile d path
    match Json.decode Settings.read text with
    | .ok s => return s
    | .error _ => throw ("invalid settings in " ++ path)

def readSnapshot (path : String) : ExceptT String m (ElasticScene Float) := do
  let text ← readFile d path
  match ElasticScene.ofText text with
  | .ok t => return t
  | .error _ => throw ("failed to load " ++ path)

def orThrow {ε β : Type} (wrap : ε → ExportError) : Except ε β → ExceptT String m β
  | .ok b => return b
  | .error e => throw (wrap e).message

/-! ### Export -/

def reportLines (folder : String) (r : Report) : List String :=
  r.documents.map (fun file => "wrote " ++ Disk.join folder file) ++
    (if r.renditions = 0 then []
      else ["queued " ++ toString r.rasterized ++ " rendition(s) in " ++
        Disk.join folder Disk.manifestFile]) ++
    (match r.drift with
      | none => []
      | some drift => ["warning: " ++ drift.message]) ++
    r.diagnostics.map fun diagnostic =>
      (if diagnostic.isOutputFailure then "error: " else "warning: ") ++ diagnostic.message

def runExport (g : Given) : ExceptT String m Outcome := do
  let settings ← readSettings d (g.value? "settings")
  let context ← orThrow .settings (applyArguments g settings).context
  let t ← readSnapshot d (g.positional.headD "")
  let selection ← orThrow .selection (t.scene.select context.options.extended (g.values "select"))
  let result ← ExceptT.lift (Export.run t selection context
    (d.outputFolder context.folder) (d.rasterizer context.folder))
  let (_, report) ← orThrow .selection result
  return {
    exit := if report.diagnostics.any (·.isOutputFailure) then 1 else 0
    output := lines (reportLines context.folder report) }

/-! ### Probe -/

def padded (width : Nat) (s : String) : String :=
  s ++ String.ofList (List.replicate (width - s.toList.length) ' ')

def flagText (on : Bool) : String := if on then "true" else "false"

def parameterLine (name : String) (p : Parameter) : String :=
  "  " ++ padded 32 name ++ " pivot=" ++ padded 14 ((p.pivot.map (·.render)).getD "") ++
    " stretchx=" ++ padded 5 (flagText p.stretchX) ++ " stretchy=" ++ flagText p.stretchY

def probeLines (title : String) (found : Measurements Float) : List String :=
  title :: found.toList.filterMap (fun (_, r) => r.parameter.map (parameterLine r.name)) ++
    match found.drift? with
    | none => []
    | some drift => ["  warning: " ++ drift.message]

/-- The artboards at the top level, or those with one raw label. -/
def artboards (s : Scene Float) (name : Option String) : List NodeId :=
  s.topLevel.filter fun id => (s.node? id).any fun n =>
    n.kind == .artboard && name.all (· == n.name)

/-- Probes the artboards one after the other. -/
def probeEach (t : Thresholds Float) :
    ElasticScene Float → List NodeId → List String
  | _, [] => []
  | doc, id :: rest =>
    let (doc, found) := Measurements.probe t doc id
    let title := ((doc.scene.node? id).map (·.name)).getD ""
    probeLines title found ++ probeEach t doc rest

def runProbe (g : Given) : ExceptT String m Outcome := do
  let settings ← readSettings d (g.value? "settings")
  let path := g.positional.headD ""
  let t ← readSnapshot d path
  match artboards t.scene (g.value? "artboard") with
  | [] => throw ("failed to list anchors for " ++ path)
  | boards => return { exit := 0, output := lines (probeEach settings.thresholds t boards) }

/-! ### Name -/

def runName (g : Given) : Outcome :=
  let l := Label.parse (g.positional.headD "") (g.has "in-grid") true
  { exit := 0, output := lines ["name:    " ++ l.name, "options: " ++ l.directives.render] }

/-! ### Version -/

def versionLine : String := "baumkit 0.1.0"

/-- The version is asked for by its long option, or by its letter with anything behind it. -/
def asksVersion (arg : String) : Bool :=
  arg == "--version" || ['-', 'V'].isPrefixOf arg.toList

/-- An error is told after the word `Error`. -/
def outcome (run : ExceptT String m Outcome) : m Outcome := do
  match ← run.run with
  | .ok o => return o
  | .error e => return .failed ("Error: " ++ e)

def run (args : List String) : m Outcome :=
  match args with
  | "export" :: args => match exportRule.read? args with
    | some g => outcome (runExport d g)
    | none => return .usage
  | "probe" :: args => match probeRule.read? args with
    | some g => outcome (runProbe d g)
    | none => return .usage
  | "name" :: args => match nameRule.read? args with
    | some g => return runName g
    | none => return .usage
  | arg :: _ =>
    return if asksVersion arg then { exit := 0, output := lines [versionLine] } else .usage
  | [] => return .usage

end
end DesignLayout.CommandLine
