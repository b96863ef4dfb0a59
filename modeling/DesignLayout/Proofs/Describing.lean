import DesignLayout.Proofs.Places
import DesignLayout.Proofs.Reporting
import DesignLayout.Proofs.RoundTrip

/-! A description and a run tell the same.

A plug-in gets a description of a whole export in one JSON text; a run writes the layouts into files
and hands the pictures over. A description can always be written (`Export.printable_toJson`). Its
layouts are those that the files of a run hold where nothing is refused, in their order; its
renditions ask for the pictures of the batch, one by one; the other parts of it are told in the
report of the run; and the two fail alike (`Export.describes_run`). -/
namespace DesignLayout

/-! ### Stages that fail -/

section
variable {ε ε' β γ : Type}

theorem bind_eq_error_iff {x : Except ε β} {f : β → Except ε γ} {e : ε} :
    x >>= f = .error e ↔ x = .error e ∨ ∃ b, x = .ok b ∧ f b = .error e := by
  cases x with
  | error e' =>
    refine ⟨fun h => .inl (congrArg _ (Except.error.inj h)), ?_⟩
    rintro (h | ⟨_, h, -⟩)
    · exact congrArg _ (Except.error.inj h)
    · cases h
  | ok b =>
    refine ⟨fun h => .inr ⟨b, rfl, h⟩, ?_⟩
    rintro (h | ⟨_, h, hf⟩)
    · cases h
    · cases h
      exact hf

theorem mapError_eq_error_iff {f : ε → ε'} {x : Except ε β} {e : ε'} :
    x.mapError f = .error e ↔ ∃ why, e = f why ∧ x = .error why := by
  cases x with
  | error why =>
    refine ⟨fun h => ⟨why, (Except.error.inj h).symm, rfl⟩, ?_⟩
    rintro ⟨_, rfl, h⟩
    cases h
    rfl
  | ok b =>
    refine ⟨nofun, ?_⟩
    rintro ⟨_, -, h⟩
    cases h

end

/-! ### What an export gives can be written -/

theorem RenditionRequest.printable (q : RenditionRequest Float) : q.toJson.Printable := by
  refine Json.printable_object ?_
  simp only [List.forall_mem_cons]
  refine ⟨Json.printable_text _, Json.printable_text _, Json.printable_object ?_,
    fun _ _ => Json.fits_ofReal _, List.forall_mem_nil _⟩
  simp only [List.forall_mem_cons]
  exact ⟨Json.printable_text _, Json.printable_text _, List.forall_mem_nil _⟩

namespace Export
variable {e : Export Float}

theorem printable_rootJson {r : CompiledRoot Float} (h : r.document.root.Counted) :
    (rootJson r).Printable := by
  refine Json.printable_object ?_
  simp only [List.forall_mem_cons]
  exact ⟨Json.printable_text _, Json.printable_text _, Json.printable_text _,
    Document.printable h, List.forall_mem_nil _⟩

theorem printable_toJson (h : ∀ r ∈ e.roots, r.document.root.Counted) : e.toJson.Printable := by
  have hdrift : ((e.drift.map fun d => Json.text d.message).getD .null).Printable := by
    cases e.drift with
    | none => exact fun _ _ => .null
    | some d => exact Json.printable_text _
  refine Json.printable_object ?_
  simp only [List.forall_mem_cons]
  exact ⟨Json.printable_array (List.forall_mem_map.mpr fun r hr => printable_rootJson (h r hr)),
    Json.printable_array (List.forall_mem_map.mpr fun q _ => q.printable),
    Json.printable_array (List.forall_mem_map.mpr fun _ _ => Json.printable_text _),
    hdrift, List.forall_mem_nil _⟩

end Export

/-! ### What a run writes and asks for -/

/-- A layout in its file, and the folder for its pictures. -/
structure LayoutFile where
  folder : String
  name : String
  text : String
  deriving DecidableEq

namespace LayoutFile

def calls (f : LayoutFile) : List Call :=
  [.ensureFolder f.folder, .writeText f.name f.text]

/-- The entry names the folder and the file, and its layout is the one that the file holds. -/
def DescribedBy (f : LayoutFile) (entry : Json) : Prop :=
  ∃ (name : String) (layout : Document Float), layout.HeldBy f.text ∧
    entry = .object [("name", .text name), ("folder", .text f.folder), ("file", .text f.name),
      ("layout", layout.toJson)]

end LayoutFile

/-- The entry asks for the picture: it names the picture, the node by the id under which the design
tool knows it, the folder and the file that the picture goes to, and the scale. -/
def RenditionRequest.DescribedBy (q : RenditionRequest Float) (entry : Json) : Prop :=
  entry = .object
    [("fileName", .text q.file),
     ("node", .text q.guid),
     ("target", .object [("folder", .text q.folder), ("fileName", .text (q.file ++ ".png"))]),
     ("scale", if q.scale.isFinite then .real q.scale else .null)]

theorem RenditionRequest.describedBy_toJson (q : RenditionRequest Float) :
    q.DescribedBy q.toJson := rfl

namespace CompiledRoot

def layoutFile (r : CompiledRoot Float) : LayoutFile :=
  ⟨r.folder, r.fileName, r.document.text⟩

theorem describedBy_rootJson {r : CompiledRoot Float} (h : r.document.root.Counted) :
    r.layoutFile.DescribedBy (Export.rootJson r) :=
  ⟨r.name, r.document, Document.heldBy_pretty h, rfl⟩

end CompiledRoot

section
variable {σ : Type}

def Rasterizer.NeverRefuses (r : Rasterizer (StateM σ)) : Prop :=
  ∀ s manifest, ∃ count, ((r.createRenditions manifest).run s).1 = .ok count

namespace Export
variable {out : OutputFolder (StateM σ)} {r : Rasterizer (StateM σ)}

theorem failed_rasterize (manifest : Manifest Float) (s : σ) :
    ∀ d ∈ ((rasterize r manifest).run s).1.2, ∃ why, d = .rasterizeFailed manifest.size why := by
  rw [rasterize]
  split
  · exact List.forall_mem_nil _
  · rw [StateT.run_bind]
    generalize (r.createRenditions manifest).run s = made
    obtain ⟨why | count, s'⟩ := made
    · exact List.forall_mem_singleton.mpr ⟨why.message, rfl⟩
    · exact List.forall_mem_nil _

theorem failed_rasterize_of_neverRefuses (h : r.NeverRefuses) (manifest : Manifest Float) (s : σ) :
    ((rasterize r manifest).run s).1.2 = [] := by
  rw [rasterize]
  split
  · rfl
  · obtain ⟨count, hcount⟩ := h s manifest
    rw [StateT.run_bind]
    generalize (r.createRenditions manifest).run s = made at hcount ⊢
    obtain ⟨answer, s'⟩ := made
    obtain rfl : answer = .ok count := hcount
    rfl

variable {δ : Type} [Host δ Float] {doc after : δ} {context : Context Float} {e : Export Float}

/-- What a run over the whole document comes to, and the calls that it makes. -/
def wholeRun (doc : δ) (context : Context Float) (out : OutputFolder (StateM σ))
    (r : Rasterizer (StateM σ)) (s : σ) : Except SelectionError (δ × Report) × List Call :=
  (((run doc [] context out.recorded r.recorded).run []).run s).1

theorem wholeRun_of_error {err : SelectionError} (h : ofSelection doc [] context = .error err)
    (s : σ) : wholeRun doc context out r s = (.error err, []) := by
  rw [wholeRun, run_of_error _ _ h]
  rfl

theorem wholeRun_of_ok (h : ofSelection doc [] context = .ok (after, e)) (s : σ) :
    wholeRun doc context out r s = (.ok (after, ((e.deliver out r).run s).1), e.calls) := by
  rw [wholeRun, run_recorded out r h, run_of_ok out r h]
  rfl

theorem wholeRun_eq_error_iff {s : σ} {err : SelectionError} :
    (wholeRun doc context out r s).1 = .error err ↔ ofSelection doc [] context = .error err := by
  cases h : ofSelection doc [] context with
  | error err' => rw [wholeRun_of_error h, Except.error.injEq, Except.error.injEq]
  | ok found =>
    rw [wholeRun_of_ok h]
    exact ⟨nofun, nofun⟩

end Export
end

/-! ### A description and a run -/

/-- The description tells what the run did that made these calls and gave this report: it wrote the
files and then handed the batch over, if there was anything in it. Every entry of the description
stands for one of the files or for one of the pictures in the batch. `found` is what was wrong in
the document; a run may also find that its batch has failed. -/
structure DescribesRun (j : Json) (calls : List Call) (report : Report) (files : List LayoutFile)
    (manifest : Manifest Float) (found : List Diagnostic) : Prop where
  json : ∃ entries batch, List.Forall₂ LayoutFile.DescribedBy files entries ∧
    List.Forall₂ RenditionRequest.DescribedBy manifest.requests batch ∧
    j = .object
      [("documents", .array entries),
       ("renditions", .array batch),
       ("diagnostics", .array (found.map fun d => .text d.message)),
       ("drift", (report.drift.map fun d => Json.text d.message).getD .null)]
  text : j.IsValueOf j.compact
  calls : calls = files.flatMap (·.calls) ++ manifest.calls
  documents : report.documents = files.map (·.name)
  renditions : report.renditions = manifest.size
  diagnostics : ∃ failed, report.diagnostics = found ++ failed ∧
    ∀ d ∈ failed, ∃ why, d = .rasterizeFailed manifest.size why

namespace Export
variable {σ : Type} {out : OutputFolder (StateM σ)}

/-- Where nothing is refused, only the batch as a whole may fail. -/
theorem diagnostics_deliver {e : Export Float} (hout : out.NeverRefuses)
    (r : Rasterizer (StateM σ)) (s : σ) :
    ((e.deliver out r).run s).1.diagnostics = e.diagnostics ++
      ((rasterize r e.manifest).run ((writeRoots out e.roots).run s).2).1.2 := by
  show e.diagnostics ++ ((writeRoots out e.roots).run s).1.2 ++
    ((rasterize r e.manifest).run ((writeRoots out e.roots).run s).2).1.2 = _
  rw [writeRoots_outcome hout, List.append_nil]

theorem toJson_describesRun {e : Export Float} (h : ∀ r ∈ e.roots, r.document.root.Counted)
    (hout : out.NeverRefuses) (r : Rasterizer (StateM σ)) (s : σ) :
    DescribesRun e.toJson e.calls ((e.deliver out r).run s).1 (e.roots.map (·.layoutFile))
      e.manifest e.diagnostics := by
  have hprintable := printable_toJson h
  refine ⟨⟨e.roots.map rootJson, e.manifest.requests.map (·.toJson), ?_, ?_, rfl⟩,
    hprintable.isValueOf hprintable.scan_compact, ?_, ?_, rfl, ?_⟩
  · rw [List.forall₂_map_left_iff, List.forall₂_map_right_iff, List.forall₂_same]
    exact fun root hroot => CompiledRoot.describedBy_rootJson (h root hroot)
  · rw [List.forall₂_map_right_iff, List.forall₂_same]
    exact fun q _ => q.describedBy_toJson
  · rw [calls, List.flatMap_map]
    rfl
  · rw [List.map_map]
    exact congrArg Prod.fst (writeRoots_outcome hout e.roots s)
  · exact ⟨_, diagnostics_deliver hout r s, failed_rasterize _ _⟩

section
variable {δ : Type} [Host δ Float] {doc after : δ} {text : String} {settings : Settings}

theorem describe_eq_error_iff (h : Settings.ofText text = .ok settings) {err : ExportError} :
    describe doc text = .error err ↔
      (∃ why, err = .settings why ∧ settings.context = .error why) ∨
      ∃ why context, err = .selection why ∧ settings.context = .ok context ∧
        ofSelection doc [] context = .error why := by
  have hstages : describe doc text =
      (settings.context.mapError ExportError.settings >>= fun context =>
        (ofSelection doc [] context).mapError ExportError.selection >>= fun p =>
          .ok (p.1, p.2.toJson)) := by
    rw [describe_eq, contextOfText, h]
    rfl
  rw [hstages, bind_eq_error_iff, mapError_eq_error_iff]
  refine or_congr_right ⟨?_, ?_⟩
  · rintro ⟨context, hcontext, hd⟩
    rcases bind_eq_error_iff.mp hd with hfailed | ⟨_, -, hok⟩
    · obtain ⟨why, rfl, he⟩ := mapError_eq_error_iff.mp hfailed
      exact ⟨why, context, rfl, mapError_eq_ok hcontext, he⟩
    · cases hok
  · rintro ⟨why, context, rfl, hcontext, he⟩
    refine ⟨context, ?_, ?_⟩
    · rw [hcontext]
      rfl
    · rw [he]
      rfl

theorem exists_of_describe_eq_ok (h : Settings.ofText text = .ok settings) {j : Json}
    (hd : describe doc text = .ok (after, j)) :
    ∃ context e, settings.context = .ok context ∧ ofSelection doc [] context = .ok (after, e) ∧
      j = e.toJson := by
  rw [describe_eq] at hd
  obtain ⟨context, hcontext, hd⟩ := bind_eq_ok hd
  obtain ⟨read, hread, hcontext⟩ := bind_eq_ok hcontext
  obtain rfl := Except.ok.inj (h.symm.trans (mapError_eq_ok hread))
  obtain ⟨⟨after', e⟩, he, hd⟩ := bind_eq_ok hd
  obtain ⟨rfl, rfl⟩ := Prod.mk.inj (Except.ok.inj hd)
  exact ⟨context, e, mapError_eq_ok hcontext, mapError_eq_ok he, rfl⟩

end

/-- For every document at rest without a NaN in its bounds, every text of settings, and every run of
the document over a folder that refuses nothing. A description fails just when the settings are
refused or the run fails, with the same error. When it does not fail, it describes the run: its
documents are the files that are written, in their order; its renditions ask for the pictures of the
batch that is handed over, one by one; its diagnostics are those of the report, unless the rasterizer
adds that the batch has failed; and its drift is that of the report. Both leave the document as it
was. -/
theorem describes_run {t : ElasticScene Float} (hbuilt : t.Built) (hrest : t.AtRest)
    (hnan : ∀ id n, t.scene.node? id = some n → n.bounds.HasNoNaN) {text : String}
    {settings : Settings} (hsettings : Settings.ofText text = .ok settings)
    (hout : out.NeverRefuses) (r : Rasterizer (StateM σ)) (s : σ) :
    (∀ err, describe t text = .error err ↔
      (∃ why, err = .settings why ∧ settings.context = .error why) ∨
      ∃ why context, err = .selection why ∧ settings.context = .ok context ∧
        (wholeRun t context out r s).1 = .error why) ∧
    ∀ after j, describe t text = .ok (after, j) →
      after = t ∧ ∃ context report calls files manifest found,
        settings.context = .ok context ∧
        wholeRun t context out r s = (.ok (t, report), calls) ∧
        DescribesRun j calls report files manifest found ∧
        (r.NeverRefuses → report.diagnostics = found) := by
  have hc : t.scene.Comparable := fun id n hn => (hnan id n hn).same_self
  refine ⟨fun err => ?_, fun after j hd => ?_⟩
  · simp only [describe_eq_error_iff hsettings, wholeRun_eq_error_iff]
  · obtain ⟨context, e, hcontext, he, rfl⟩ := exists_of_describe_eq_ok hsettings hd
    obtain rfl := eq_of_ofSelection_eq_ok hbuilt.isForest hrest hc he
    refine ⟨rfl, context, _, _, _, _, _, hcontext, wholeRun_of_ok he s,
      toJson_describesRun (counted_roots he) hout r s, fun hr => ?_⟩
    rw [diagnostics_deliver hout, failed_rasterize_of_neverRefuses hr, List.append_nil]

/-- Everything is exported, and the other settings are left as they are. -/
def wholeSettings : String :=
  "\x7b\"outputFolder\":\"out\",\"checkMarkedForExport\":false\x7d"

theorem built_photoBoards : photoBoards.Built :=
  (((ElasticScene.Built.empty.insert none _ (by simp)).insert none _ (by simp)).insert (some 0) _
    (by decide)).insert (some 0) _ (by decide)

theorem forall_bounds_photoBoards :
    ∀ id n, photoBoards.scene.node? id = some n → n.bounds.HasNoNaN :=
  Scene.forall_bounds_insert (by decide) (by decide) <|
    Scene.forall_bounds_insert (by decide) (by decide) <|
      Scene.forall_bounds_insert (by simp) (by decide) <|
        Scene.forall_bounds_insert (by simp) (by decide) Scene.forall_bounds_empty

theorem blankPictures_neverRefuses : blankPictures.NeverRefuses :=
  fun _ manifest => ⟨manifest.size, rfl⟩

/-- The second layout of a description, as it stands in a file. -/
def secondFile? : Json → Option (String × LayoutFile)
  | .object [("documents", .array [_, .object [("name", .text name), ("folder", .text folder),
      ("file", .text file), ("layout", layout)]]), _, _, _] =>
    some (name, ⟨folder, file, layout.pretty⟩)
  | _ => none

/-- The renditions and the diagnostics of a description, each on one line. -/
def batchAndTold? : Json → Option (String × String)
  | .object [_, ("renditions", batch), ("diagnostics", told), _] =>
    some (batch.compact, told.compact)
  | _ => none

/-- What is asked for and told of the two boards. -/
def photoBatchAndTold : String × String :=
  ("[\x7b\"fileName\":\"Shop - Photo\",\"node\":\"00002-5\",\"target\":" ++
    "\x7b\"folder\":\"Shop\",\"fileName\":\"Shop - Photo.png\"\x7d,\"scale\":1.0\x7d]",
   "[\"CardList: no Area child found\"]")

/-- Two boards are described and written, with the one picture that is on them and what was
wrong in the document. -/
theorem photoBoards_described :
    ∃ settings context j report calls files manifest,
      Settings.ofText wholeSettings = .ok settings ∧ settings.context = .ok context ∧
      describe photoBoards wholeSettings = .ok (photoBoards, j) ∧
      wholeRun photoBoards context memoryFolder blankPictures (fun _ => none) =
        (.ok (photoBoards, report), calls) ∧
      DescribesRun j calls report files manifest report.diagnostics ∧
      files.map (·.name) = ["Shop.layout.txt", "Shelf.layout.txt"] ∧ manifest.size = 1 ∧
      report.diagnostics = [.missingArea "CardList"] ∧
      secondFile? j = some ("Shelf", ⟨"Shelf", "Shelf.layout.txt", shelfText⟩) ∧
      batchAndTold? j = some photoBatchAndTold := by
  obtain ⟨settings, hsettings⟩ :=
    exists_of_isOk (x := Settings.ofText wholeSettings) (by decide +kernel)
  have hdescribed : (describe photoBoards wholeSettings).toOption.map
      (fun p => (secondFile? p.2, batchAndTold? p.2)) =
        some (some ("Shelf", ⟨"Shelf", "Shelf.layout.txt", shelfText⟩),
          some photoBatchAndTold) := by
    decide +kernel
  obtain ⟨⟨after, j⟩, hd, htold⟩ := eq_ok_of_map_toOption hdescribed
  obtain ⟨hsecond, htold⟩ := Prod.mk.inj htold
  have hreport : (((Settings.ofText wholeSettings).toOption.bind (·.context.toOption)).bind
      fun context => (wholeRun photoBoards context memoryFolder blankPictures
        (fun _ => none)).1.toOption.map fun p =>
          (p.2.documents, p.2.renditions, p.2.diagnostics)) =
      some (["Shop.layout.txt", "Shelf.layout.txt"], 1,
        [.missingArea "CardList"]) := by
    decide +kernel
  obtain ⟨rfl, context, report, calls, files, manifest, found, hcontext, hrun, htells, hfound⟩ :=
    (describes_run built_photoBoards rfl forall_bounds_photoBoards hsettings
      memoryFolder_neverFails.neverRefuses blankPictures (fun _ => none)).2 after j hd
  obtain rfl := hfound blankPictures_neverRefuses
  simp only [hsettings, hcontext, hrun, Except.toOption, Option.bind_some, Option.map_some,
    Option.some.injEq, Prod.mk.injEq] at hreport
  obtain ⟨hdocuments, hrenditions, hdiagnostics⟩ := hreport
  exact ⟨settings, context, j, report, calls, files, manifest, hsettings, hcontext, hd, hrun,
    htells, htells.documents.symm.trans hdocuments, htells.renditions.symm.trans hrenditions,
    hdiagnostics, hsecond, htold⟩

end Export
end DesignLayout
