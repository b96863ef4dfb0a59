import DesignLayout.Proofs.Calls
import DesignLayout.Proofs.Finding
import DesignLayout.Proofs.Writing
import Mathlib.Algebra.GroupWithZero.Nat

/-! What a run reports.

A delivery learns of its surroundings only what its calls are answered. `Export.report` says what is
told of an export whose calls were answered in this way: every answer adds the file that it is about,
its failure or its number of pictures, and nothing else. Whatever is answered, all calls of the export
are made in their order, and the answers make the report (`deliver_eq`); in a whole run they make the
folder of every root that was found and write its layout on several lines, in the order in which the
roots were found, and then hand over the batch (`run_reports`). -/
namespace DesignLayout

/-- A call with what it was answered. -/
inductive Answered
  | folder (name : String) (answer : Except OutputError Unit)
  | file (name text : String) (answer : Except OutputError Unit)
  | renditions (manifest : Manifest Float) (answer : Except OutputError Nat)

namespace Answered

/-- The layout file that was written. -/
def written? : Answered → Option String
  | file name _ (.ok _) => some name
  | _ => none

/-- How many pictures were made. -/
def made : Answered → Nat
  | renditions _ (.ok count) => count
  | _ => 0

def failure? : Answered → Option Diagnostic
  | folder name (.error e) => some (.writeFailed name e.message)
  | file name _ (.error e) => some (.writeFailed name e.message)
  | renditions manifest (.error e) => some (.rasterizeFailed manifest.requests.length e.message)
  | _ => none

/-- The files, the number of pictures and the failures that several answers tell of. -/
def told (answers : List Answered) : List String × Nat × List Diagnostic :=
  (answers.filterMap written?, (answers.map made).sum, answers.filterMap failure?)

/-- What is told first, and what is told after it. -/
def joined (first later : List String × Nat × List Diagnostic) :
    List String × Nat × List Diagnostic :=
  (first.1 ++ later.1, first.2.1 + later.2.1, first.2.2 ++ later.2.2)

theorem told_append (first later : List Answered) :
    told (first ++ later) = joined (told first) (told later) := by
  simp [told, joined]

end Answered

/-- What is reported of an export whose calls were answered so. -/
def Export.report (e : Export Float) (answers : List Answered) : Report where
  documents := answers.filterMap Answered.written?
  renditions := e.manifest.requests.length
  rasterized := (answers.map Answered.made).sum
  diagnostics := e.diagnostics ++ answers.filterMap Answered.failure?
  drift := e.drift

section
variable {m : Type → Type} [Monad m] (out : OutputFolder m) (r : Rasterizer m)

/-- Makes a call. -/
def Call.answered : Call → m Answered
  | .ensureFolder name => Answered.folder name <$> out.ensureFolder name
  | .writeText name text => Answered.file name text <$> out.writeText name text
  | .createRenditions manifest => Answered.renditions manifest <$> r.createRenditions manifest

variable [LawfulMonad m]

namespace Export
open Answered

theorem writeRoots_told (roots : List (CompiledRoot Float)) :
    (fun p => (p.1, 0, p.2)) <$> writeRoots out roots =
      told <$> (roots.flatMap (·.calls)).mapM (Call.answered out r) := by
  induction roots with
  | nil => simp [writeRoots, told]
  | cons root rest ih =>
    have hcalls : (root :: rest).flatMap (·.calls) =
        .ensureFolder root.folder :: .writeText root.fileName root.document.text ::
          rest.flatMap (·.calls) := rfl
    rw [hcalls, List.mapM_cons, List.mapM_cons]
    simp only [writeRoots, Call.answered, map_bind, bind_map_left, bind_pure_comp]
    refine bind_congr fun folder => bind_congr fun file => ?_
    let own : List Answered :=
      [.folder root.folder folder, .file root.fileName root.document.text file]
    calc
      _ = (fun p => joined (told own) (p.1, 0, p.2)) <$> writeRoots out rest := by
        rw [Functor.map_map]
        cases folder <;> cases file <;> rfl
      _ = joined (told own) <$> told <$> (rest.flatMap (·.calls)).mapM (Call.answered out r) := by
        rw [← ih, Functor.map_map]
      _ = _ := by
        rw [Functor.map_map, Functor.map_map, Functor.map_map]
        refine congrArg (· <$> (rest.flatMap (·.calls)).mapM (Call.answered out r)) ?_
        funext later
        exact (told_append own later).symm

theorem rasterize_told (manifest : Manifest Float) :
    (fun p => ([], p.1, p.2)) <$> rasterize r manifest =
      told <$> manifest.calls.mapM (Call.answered out r) := by
  unfold rasterize Manifest.calls
  by_cases hempty : manifest.isEmpty = true
  · simp [hempty, told]
  · rw [if_neg hempty, if_neg hempty, List.mapM_cons]
    simp only [Call.answered, List.mapM_nil, map_bind, bind_map_left, map_pure, pure_bind]
    refine bind_congr fun answer => ?_
    cases answer <;> rw [map_pure] <;> rfl

/-- Whatever its calls are answered, a delivery makes all of them, and reports the answers. -/
theorem deliver_eq (e : Export Float) :
    e.deliver out r = e.report <$> e.calls.mapM (Call.answered out r) := by
  let told? (p : List String × Nat × List Diagnostic) : Report :=
    { documents := p.1, renditions := e.manifest.size, rasterized := p.2.1
      diagnostics := e.diagnostics ++ p.2.2, drift := e.drift }
  calc
    _ = (do
          let first ← (fun p => (p.1, 0, p.2)) <$> writeRoots out e.roots
          let later ← (fun p => ([], p.1, p.2)) <$> rasterize r e.manifest
          return told? (joined first later)) := by
      simp [deliver, told?, joined]
    _ = (do
          let first ← (e.roots.flatMap (·.calls)).mapM (Call.answered out r)
          let later ← e.manifest.calls.mapM (Call.answered out r)
          return told? (told (first ++ later))) := by
      simp only [writeRoots_told out r, rasterize_told out r, bind_map_left, told_append]
    _ = _ := by
      rw [calls, List.mapM_append]
      simp only [map_bind, map_pure]
      rfl

end Export
end

/-! ### A whole run -/

namespace Export

/-- For every document, selection and context, and every output folder and rasterizer of any lawful
monad, whatever they answer: when an export fails, a run gives its error, calls nothing, and the
document stays as it is. Else the roots of the export are the nodes that were found, in the order in
which they were found. The calls of the run are these, in their order: for every root that its folder
be made and its layout written on several lines into its file, and then, if there are any pictures,
that the whole batch be made. What is written holds the layout. And the run gives the report of what
the calls were answered. -/
theorem run_reports {δ : Type} [Host δ Float] (doc : δ) (selection : List NodeId)
    (context : Context Float) {m : Type → Type} [Monad m] [LawfulMonad m] (out : OutputFolder m)
    (r : Rasterizer m) :
    (∀ err, ofSelection doc selection context = .error err →
      inPlace doc selection context = (doc, .error err) ∧
      runInPlace doc selection context out r = pure (doc, .error err) ∧
      (runInPlace doc selection context out.recorded r.recorded).run [] =
        pure ((doc, .error err), [])) ∧
    (∀ after e, ofSelection doc selection context = .ok (after, e) →
      (∃ found, Roots.find (Host.scene doc) selection context.options = .ok found ∧
        e.roots.map (·.node) =
          found.ids.filter fun id => ((Host.scene after).node? id).isSome) ∧
      e.calls =
        (e.roots.flatMap fun root =>
          [.ensureFolder root.folder, .writeText root.fileName root.document.toJson.pretty]) ++
        (if e.manifest.requests = [] then [] else [.createRenditions e.manifest]) ∧
      (∀ root ∈ e.roots, root.document.HeldBy root.document.toJson.pretty) ∧
      (runInPlace doc selection context out.recorded r.recorded).run [] =
        (fun result => (result, e.calls)) <$> runInPlace doc selection context out r ∧
      runInPlace doc selection context out r =
        (fun answers => (after, .ok (e.report answers))) <$>
          e.calls.mapM (Call.answered out r)) := by
  constructor
  · intro err h
    refine ⟨inPlace_of_ofSelection_error h, runInPlace_of_error out r h, ?_⟩
    rw [runInPlace_of_error _ _ h]
    rfl
  · intro after e h
    refine ⟨?_, e.calls_eq, heldBy_pretty h, runInPlace_recorded out r h, ?_⟩
    · obtain ⟨found, hfound, _, he⟩ := ofSelection_eq_ok h
      refine ⟨found, hfound, ?_⟩
      rw [he, ← Scene.map_id_branches]
      exact Compiler.map_node_roots _ _ _
    · rw [runInPlace_of_ok out r h, deliver_eq, Functor.map_map]

/-- A board with a photo and a list without an area, and an empty board. -/
def photoBoards : ElasticScene Float :=
  (((ElasticScene.empty.insert none
    { name := "Shop", kind := .artboard, bounds := ⟨0.0, 0.0, 400.0, 300.0⟩ }).insert none
    { name := "Shelf", kind := .artboard, bounds := ⟨500.0, 0.0, 40.0, 30.0⟩ }).insert (some 0)
    { name := "Photo", kind := .rectangle, bounds := ⟨10.0, 20.0, 30.0, 40.0⟩ }).insert (some 0)
    { name := "CardList", kind := .group, bounds := ⟨50.0, 20.0, 30.0, 40.0⟩ }

/-- The layout of the second board, as it is written. -/
def shelfText : String :=
  "\x7b\n  \"info\": \x7b\n    \"version\": \"0.6.1\",\n    \"canvas\": \x7b\n" ++
    "      \"image\": \x7b\n        \"w\": 40.0,\n        \"h\": 30.0\n      \x7d,\n" ++
    "      \"size\": \x7b\n        \"w\": 40.0,\n        \"h\": 30.0\n      \x7d,\n" ++
    "      \"base\": \x7b\n        \"x\": 0.0,\n        \"y\": 0.0,\n" ++
    "        \"w\": 40.0,\n        \"h\": 30.0\n      \x7d\n    \x7d\n  \x7d,\n" ++
    "  \"root\": \x7b\n    \"type\": \"Root\",\n    \"artboard\": true,\n" ++
    "    \"name\": \"Shelf\",\n    \"elements\": []\n  \x7d\n\x7d"

/-- A folder that takes a file but for the one of this name, and no folders. -/
def fullFolder (refused : String) : OutputFolder Id where
  ensureFolder name := .error (.file name "no space")
  writeText name _ := if name = refused then .error (.file name "no space") else .ok ()

def brokenRasterizer : Rasterizer Id where
  createRenditions _ := .error (.rasterizer "gone")

def refusedFile (name : String) : Diagnostic :=
  .writeFailed name (name ++ ": no space")

/-- From an empty document nothing is exported. Of the two boards one is written, and all that fails
is told after what was wrong in the document. -/
theorem photoBoards_reported :
    runInPlace (ElasticScene.empty : ElasticScene Float) [] wholeContext
      (fullFolder "Shop.layout.txt") brokenRasterizer =
        (ElasticScene.empty, .error .nothingToExport) ∧
    ∃ after e answers, ofSelection photoBoards [] wholeContext = .ok (after, e) ∧
      .writeText "Shelf.layout.txt" shelfText ∈ e.calls ∧
      runInPlace photoBoards [] wholeContext (fullFolder "Shop.layout.txt") brokenRasterizer =
        (after, .ok (e.report answers)) ∧
      (e.report answers).documents = ["Shelf.layout.txt"] ∧
      (e.report answers).diagnostics =
        [.missingArea "CardList", refusedFile "Shop", refusedFile "Shop.layout.txt",
          refusedFile "Shelf", .rasterizeFailed 1 "rasterizer: gone"] := by
  constructor
  · exact ((run_reports (ElasticScene.empty : ElasticScene Float) [] wholeContext
      (fullFolder "Shop.layout.txt") brokenRasterizer).1 .nothingToExport rfl).2.1
  · have htold : (ofSelection photoBoards [] wholeContext).toOption.map (fun p =>
        let report := p.2.report (Id.run (p.2.calls.mapM
          (Call.answered (fullFolder "Shop.layout.txt") brokenRasterizer)))
        (report.documents, report.diagnostics,
          p.2.roots[1]?.map fun root => (root.fileName, root.document.toJson.pretty))) =
        some (["Shelf.layout.txt"],
          [.missingArea "CardList", refusedFile "Shop", refusedFile "Shop.layout.txt",
            refusedFile "Shelf", .rasterizeFailed 1 "rasterizer: gone"],
          some ("Shelf.layout.txt", shelfText)) := by
      decide +kernel
    obtain ⟨⟨after, e⟩, h, htold⟩ := eq_ok_of_map_toOption htold
    obtain ⟨hdocuments, htold⟩ := Prod.mk.inj htold
    obtain ⟨hdiagnostics, hroot⟩ := Prod.mk.inj htold
    obtain ⟨root, hroot, hshelf⟩ := Option.map_eq_some_iff.mp hroot
    obtain ⟨hfile, htext⟩ := Prod.mk.inj hshelf
    obtain ⟨-, hcalls, -, -, hrun⟩ := (run_reports photoBoards [] wholeContext
      (fullFolder "Shop.layout.txt") brokenRasterizer).2 after e h
    have hwritten : Call.writeText "Shelf.layout.txt" shelfText ∈ e.calls := by
      rw [hcalls, ← hfile, ← htext]
      exact List.mem_append_left _ (List.mem_flatMap.mpr
        ⟨root, List.mem_of_getElem? hroot, List.mem_cons_of_mem _ List.mem_cons_self⟩)
    exact ⟨after, e, _, h, hwritten, hrun, hdocuments, hdiagnostics⟩

end Export
end DesignLayout
