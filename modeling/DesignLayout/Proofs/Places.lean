import DesignLayout.Proofs.Calls
import DesignLayout.Storage.Disk
import Mathlib.Data.List.Forall2
import Mathlib.Data.List.Nodup

/-! Where the roots of an export are written.

Roots are told apart by their display names, but their folders and layout files are named after
what is left of these names on disk. Two names are written alike exactly when they differ at most
where both have a reserved character or an underscore (`Text.folderName_eq_iff`). So the places of
an export's roots are distinct exactly when no two of their names collide, with or without the
ending of a layout file (`placesDistinct_iff`). When they are, a delivery that never fails ends
with every document in its own file (`text?_deliver`): what is written later goes elsewhere, and
pictures are no layout files. -/
namespace DesignLayout

namespace Text

/-- Characters that cannot be told from an underscore on disk. -/
def isUnderscored (c : Char) : Bool := isReserved c || c == '_'

/-- The names have one length and differ at most where both have underscored characters. -/
def Collide (a b : String) : Prop :=
  List.Forall₂ (fun c d => c = d ∨ isUnderscored c ∧ isUnderscored d) a.toList b.toList

theorem fileNameChar_of_reserved {c : Char} (h : isReserved c = true) :
    fileNameChar false c = '_' := by
  simp [fileNameChar, h]

theorem fileNameChar_of_not_reserved {c : Char} (h : isReserved c = false) :
    fileNameChar false c = c := by
  simp [fileNameChar, h]

theorem isReserved_fileNameChar (replaceDots : Bool) (c : Char) :
    isReserved (fileNameChar replaceDots c) = false := by
  unfold fileNameChar
  split
  · decide
  · rename_i hplain
    rw [Bool.or_eq_true, not_or, Bool.not_eq_true] at hplain
    exact hplain.1

theorem fileNameChar_eq_underscore_iff (c : Char) :
    fileNameChar false c = '_' ↔ isUnderscored c = true := by
  by_cases h : isReserved c = true
  · simp [fileNameChar_of_reserved h, isUnderscored, h]
  · rw [Bool.not_eq_true] at h
    simp [fileNameChar_of_not_reserved h, isUnderscored, h]

theorem fileNameChar_eq_iff (c d : Char) :
    fileNameChar false c = fileNameChar false d ↔ c = d ∨ isUnderscored c ∧ isUnderscored d := by
  constructor
  · intro h
    by_cases hc : isUnderscored c = true
    · have hd := (fileNameChar_eq_underscore_iff c).mpr hc
      rw [h, fileNameChar_eq_underscore_iff] at hd
      exact .inr ⟨hc, hd⟩
    · have hd : ¬ isUnderscored d = true := by
        rwa [← fileNameChar_eq_underscore_iff, ← h, fileNameChar_eq_underscore_iff]
      simp only [isUnderscored, Bool.or_eq_true, not_or, Bool.not_eq_true] at hc hd
      rw [fileNameChar_of_not_reserved hc.1, fileNameChar_of_not_reserved hd.1] at h
      exact .inl h
  · rintro (rfl | ⟨hc, hd⟩)
    · rfl
    · rw [(fileNameChar_eq_underscore_iff c).mpr hc, (fileNameChar_eq_underscore_iff d).mpr hd]

theorem toList_folderName (name : String) :
    (folderName name).toList = name.toList.map (fileNameChar false) := by
  rw [folderName, fileName, String.toList_ofList]

theorem folderName_eq_iff (a b : String) : folderName a = folderName b ↔ Collide a b := by
  rw [← String.toList_inj, toList_folderName, toList_folderName, ← List.forall₂_eq_eq_eq,
    List.forall₂_map_left_iff, List.forall₂_map_right_iff]
  simp only [fileNameChar_eq_iff]
  rfl

instance (a b : String) : Decidable (Collide a b) :=
  decidable_of_iff _ (folderName_eq_iff a b)

theorem not_slash_mem_folderName (name : String) : '/' ∉ (folderName name).toList := by
  rw [toList_folderName]
  intro h
  obtain ⟨c, -, hc⟩ := List.mem_map.mp h
  have hfree := isReserved_fileNameChar false c
  rw [hc] at hfree
  exact absurd hfree (by decide)

end Text

/-- What the name of a layout file ends in. -/
def layoutEnding : String := ".layout.txt"

theorem Text.folderName_append_layoutEnding (name : String) :
    folderName (name ++ layoutEnding) = folderName name ++ layoutEnding := by
  rw [← String.toList_inj, String.toList_append, toList_folderName, toList_folderName,
    String.toList_append, List.map_append]
  exact congrArg _ (by decide)

/-! ### The places of the roots -/

namespace CompiledRoot
variable {α : Type}

theorem fileName_eq (r : CompiledRoot α) : r.fileName = r.folder ++ layoutEnding := rfl

theorem fileName_eq_iff (r r' : CompiledRoot α) :
    r.fileName = r'.fileName ↔ r.folder = r'.folder := by
  rw [fileName_eq, fileName_eq, String.append_left_inj]

end CompiledRoot

/-- No two roots have one folder or one layout file, and no folder of a root is the layout file of
a root. -/
structure PlacesDistinct {α : Type} (rs : List (CompiledRoot α)) : Prop where
  folders : (rs.map (·.folder)).Nodup
  files : (rs.map (·.fileName)).Nodup
  apart : ∀ r ∈ rs, ∀ r' ∈ rs, r.folder ≠ r'.fileName

/-- No two of the names collide, and none collides with one that ends like a layout file. -/
structure NamesApart (names : List String) : Prop where
  pairwise : names.Pairwise fun a b => ¬ Text.Collide a b
  ending : ∀ a ∈ names, ∀ b ∈ names, ¬ Text.Collide a (b ++ layoutEnding)

namespace Compiler
variable {α : Type} [Scalar α] (c : Compiler α)

theorem folder_root (b : Branch α) (l : Ledger α) :
    ((c.root b).run l).1.folder = Text.folderName ((c.root b).run l).1.name := rfl

/-- A root's folder is named after the root. -/
theorem folder_roots (bs : List (Branch α)) (l : Ledger α) :
    ∀ r ∈ ((c.roots bs).run l).1, r.folder = Text.folderName r.name := by
  induction bs generalizing l with
  | nil =>
    intro r hr
    cases hr
  | cons b rest ih =>
    intro r hr
    rcases List.mem_cons.mp hr with rfl | hr
    · exact c.folder_root b l
    · exact ih _ r hr

end Compiler

theorem placesDistinct_iff {α : Type} {rs : List (CompiledRoot α)}
    (h : ∀ r ∈ rs, r.folder = Text.folderName r.name) :
    PlacesDistinct rs ↔ NamesApart (rs.map (·.name)) := by
  have hfiles : (rs.map (·.fileName)).Nodup ↔ (rs.map (·.folder)).Nodup := by
    rw [List.Nodup, List.pairwise_map, List.pairwise_map]
    simp only [ne_eq, CompiledRoot.fileName_eq_iff]
  have hfolders : (rs.map (·.folder)).Nodup ↔
      (rs.map (·.name)).Pairwise fun a b => ¬ Text.Collide a b := by
    rw [List.Nodup, List.pairwise_map, List.pairwise_map]
    refine List.Pairwise.iff_of_mem fun {r r'} hr hr' => ?_
    rw [h r hr, h r' hr', ne_eq, Text.folderName_eq_iff]
  have happart : ∀ r ∈ rs, ∀ r' ∈ rs,
      (r.folder ≠ r'.fileName ↔ ¬ Text.Collide r.name (r'.name ++ layoutEnding)) := by
    intro r hr r' hr'
    rw [CompiledRoot.fileName_eq, h r hr, h r' hr', ← Text.folderName_append_layoutEnding, ne_eq,
      Text.folderName_eq_iff]
  constructor
  · intro hd
    refine ⟨hfolders.mp hd.folders, ?_⟩
    simp only [List.forall_mem_map]
    exact fun r hr r' hr' => (happart r hr r' hr').mp (hd.apart r hr r' hr')
  · intro hn
    refine ⟨hfolders.mpr hn.pairwise, hfiles.mpr (hfolders.mpr hn.pairwise), fun r hr r' hr' => ?_⟩
    exact (happart r hr r' hr').mpr
      (hn.ending _ (List.mem_map_of_mem hr) _ (List.mem_map_of_mem hr'))

/-! ### A delivery that never fails -/

section
variable {σ : Type}

/-- Every call succeeds. -/
structure OutputFolder.NeverRefuses (out : OutputFolder (StateM σ)) : Prop where
  ensureFolder_ok : ∀ s name, ((out.ensureFolder name).run s).1 = .ok ()
  writeText_ok : ∀ s name text, ((out.writeText name text).run s).1 = .ok ()

/-- Every call succeeds. What is written into a file reads back, and files of other names keep
their texts. -/
structure OutputFolder.NeverFails (out : OutputFolder (StateM σ))
    (text? : σ → String → Option String) : Prop where
  ensureFolder_ok : ∀ s name, ((out.ensureFolder name).run s).1 = .ok ()
  ensureFolder_text? : ∀ s name file, file ≠ name →
    text? ((out.ensureFolder name).run s).2 file = text? s file
  writeText_ok : ∀ s name text, ((out.writeText name text).run s).1 = .ok ()
  writeText_text?_self : ∀ s name text,
    text? ((out.writeText name text).run s).2 name = some text
  writeText_text?_of_ne : ∀ s name text file, file ≠ name →
    text? ((out.writeText name text).run s).2 file = text? s file

theorem OutputFolder.NeverFails.neverRefuses {out : OutputFolder (StateM σ)}
    {text? : σ → String → Option String} (h : out.NeverFails text?) : out.NeverRefuses :=
  ⟨h.ensureFolder_ok, h.writeText_ok⟩

/-- Whether it succeeds or not, nothing is written but the pictures of the batch, and the file that
a batch may be put down in. -/
def Rasterizer.KeepsWithin (r : Rasterizer (StateM σ)) (text? : σ → String → Option String) :
    Prop :=
  ∀ s manifest file, (∀ q ∈ manifest.requests, file ≠ q.path) → file ≠ Disk.manifestFile →
    text? ((r.createRenditions manifest).run s).2 file = text? s file

end

namespace Export
variable {σ : Type} {out : OutputFolder (StateM σ)} {r : Rasterizer (StateM σ)}
  {text? : σ → String → Option String}

/-- The state after one root is written. -/
def afterRoot (out : OutputFolder (StateM σ)) (root : CompiledRoot Float) (s : σ) : σ :=
  ((out.writeText root.fileName root.document.text).run
    ((out.ensureFolder root.folder).run s).2).2

theorem run_bind {β γ : Type} (x : StateM σ β) (f : β → StateM σ γ) (s : σ) :
    (x >>= f).run s = (f (x.run s).1).run (x.run s).2 := rfl

theorem run_writeRoots_cons (h : out.NeverRefuses) (root : CompiledRoot Float)
    (rest : List (CompiledRoot Float)) (s : σ) :
    (writeRoots out (root :: rest)).run s =
      let next := (writeRoots out rest).run (afterRoot out root s)
      ((root.fileName :: next.1.1, next.1.2), next.2) := by
  have hfolder : (out.ensureFolder root.folder).run s =
      (.ok (), ((out.ensureFolder root.folder).run s).2) :=
    Prod.ext (h.ensureFolder_ok s root.folder) rfl
  have hfile : (out.writeText root.fileName root.document.text).run
      ((out.ensureFolder root.folder).run s).2 = (.ok (), afterRoot out root s) :=
    Prod.ext (h.writeText_ok _ root.fileName root.document.text) rfl
  rw [writeRoots, run_bind, hfolder, run_bind, hfile, run_bind]
  rfl

theorem text?_afterRoot_self (h : out.NeverFails text?) (root : CompiledRoot Float) (s : σ) :
    text? (afterRoot out root s) root.fileName = some root.document.text :=
  h.writeText_text?_self _ _ _

theorem text?_afterRoot_of_ne (h : out.NeverFails text?) {root : CompiledRoot Float}
    {file : String} (hfolder : file ≠ root.folder) (hfile : file ≠ root.fileName) (s : σ) :
    text? (afterRoot out root s) file = text? s file := by
  rw [afterRoot, h.writeText_text?_of_ne _ _ _ _ hfile, h.ensureFolder_text? _ _ _ hfolder]

/-- All layout files are written, in the order of the roots. -/
theorem writeRoots_outcome (h : out.NeverRefuses) (roots : List (CompiledRoot Float)) (s : σ) :
    ((writeRoots out roots).run s).1 = (roots.map (·.fileName), []) := by
  induction roots generalizing s with
  | nil => rfl
  | cons root rest ih =>
    rw [run_writeRoots_cons h, List.map_cons]
    simp only [ih]

theorem text?_writeRoots_of_notMem (h : out.NeverFails text?) {roots : List (CompiledRoot Float)}
    {file : String} (hfolders : file ∉ roots.map (·.folder))
    (hfiles : file ∉ roots.map (·.fileName)) (s : σ) :
    text? ((writeRoots out roots).run s).2 file = text? s file := by
  induction roots generalizing s with
  | nil => rfl
  | cons root rest ih =>
    rw [List.map_cons, List.mem_cons, not_or] at hfolders hfiles
    rw [run_writeRoots_cons h.neverRefuses]
    exact (ih hfolders.2 hfiles.2 _).trans (text?_afterRoot_of_ne h hfolders.1 hfiles.1 s)

/-- Where all places are distinct, what is written later leaves a layout file alone. -/
theorem text?_writeRoots (h : out.NeverFails text?) {roots : List (CompiledRoot Float)}
    (hd : PlacesDistinct roots) (s : σ) :
    ∀ root ∈ roots, text? ((writeRoots out roots).run s).2 root.fileName =
      some root.document.text := by
  induction roots generalizing s with
  | nil =>
    intro root hroot
    cases hroot
  | cons first rest ih =>
    obtain ⟨hfolders, hfiles, happart⟩ := hd
    rw [List.map_cons, List.nodup_cons] at hfolders hfiles
    intro root hroot
    rw [run_writeRoots_cons h.neverRefuses]
    rcases List.mem_cons.mp hroot with rfl | hroot
    · refine (text?_writeRoots_of_notMem h ?_ hfiles.1 _).trans (text?_afterRoot_self h _ s)
      intro hmem
      obtain ⟨other, hother, heq⟩ := List.mem_map.mp hmem
      exact happart other (List.mem_cons_of_mem _ hother) root List.mem_cons_self heq
    · have hrest : PlacesDistinct rest := ⟨hfolders.2, hfiles.2, fun a ha b hb =>
        happart a (List.mem_cons_of_mem _ ha) b (List.mem_cons_of_mem _ hb)⟩
      exact ih hrest _ root hroot

/-- The pictures stand in folders, and a layout file does not. -/
theorem fileName_ne_path {root : CompiledRoot Float} (h : root.folder = Text.folderName root.name)
    (q : RenditionRequest Float) : root.fileName ≠ q.path := by
  intro heq
  have hmem : '/' ∈ q.path.toList := by
    simp [RenditionRequest.path]
  rw [← heq, CompiledRoot.fileName_eq, String.toList_append, List.mem_append, h] at hmem
  rcases hmem with hmem | hmem
  · exact Text.not_slash_mem_folderName _ hmem
  · exact absurd hmem (by decide)

theorem fileName_ne_manifestFile (root : CompiledRoot Float) :
    root.fileName ≠ Disk.manifestFile := by
  intro heq
  have hlast : layoutEnding.toList.getLast? = some 't' := by decide
  have hfile : root.fileName.toList.getLast? = some 't' := by
    rw [CompiledRoot.fileName_eq, String.toList_append, List.getLast?_append, hlast]
    rfl
  rw [heq] at hfile
  exact absurd hfile (by decide)

theorem text?_rasterize (h : r.KeepsWithin text?) {manifest : Manifest Float} {file : String}
    (hpath : ∀ q ∈ manifest.requests, file ≠ q.path) (hmanifest : file ≠ Disk.manifestFile)
    (s : σ) : text? ((rasterize r manifest).run s).2 file = text? s file := by
  rw [rasterize]
  split
  · rfl
  · have hkept := h s manifest file hpath hmanifest
    rw [StateT.run_bind]
    generalize (r.createRenditions manifest).run s = made at hkept ⊢
    -- Whether the batch was made or not, the state is what it left.
    obtain ⟨_ | _, s'⟩ := made
    · exact hkept
    · exact hkept

/-- A delivery writes the roots and hands the pictures over. -/
theorem deliver_outcome (h : out.NeverFails text?) (e : Export Float) (s : σ) :
    ((e.deliver out r).run s).1.documents = e.roots.map (·.fileName) :=
  congrArg Prod.fst (writeRoots_outcome h.neverRefuses e.roots s)

theorem text?_deliver (h : out.NeverFails text?) (hr : r.KeepsWithin text?) {e : Export Float}
    (hfolder : ∀ root ∈ e.roots, root.folder = Text.folderName root.name)
    (hd : PlacesDistinct e.roots) (s : σ) :
    ∀ root ∈ e.roots, text? ((e.deliver out r).run s).2 root.fileName =
      some root.document.text := by
  intro root hroot
  have hwritten := text?_writeRoots h hd s root hroot
  have hkept := text?_rasterize hr (fun q (_ : q ∈ e.manifest.requests) =>
    fileName_ne_path (hfolder root hroot) q) (fileName_ne_manifestFile root)
    ((writeRoots out e.roots).run s).2
  exact hkept.trans hwritten

/-! ### A whole export -/

/-- For every document, selection and context for which an export succeeds: the places of its roots
are distinct exactly when no two of their display names collide, with or without the ending of a
layout file; and then a run over a folder that never fails reports all layout files, and ends with
every document in its own file. -/
theorem places_distinct_iff_names_apart {δ : Type} [Host δ Float] {doc doc' : δ}
    {selection : List NodeId} {context : Context Float} {e : Export Float}
    (h : ofSelection doc selection context = .ok (doc', e)) :
    (PlacesDistinct e.roots ↔ NamesApart (e.roots.map (·.name))) ∧
    (NamesApart (e.roots.map (·.name)) →
      ∀ {σ : Type} (out : OutputFolder (StateM σ)) (r : Rasterizer (StateM σ))
        (text? : σ → String → Option String), out.NeverFails text? → r.KeepsWithin text? →
      ∀ s, ∃ report s', (run doc selection context out r).run s = (.ok (doc', report), s') ∧
        report.documents = e.roots.map (·.fileName) ∧
        ∀ root ∈ e.roots, text? s' root.fileName = some root.document.text) := by
  have hfolder : ∀ root ∈ e.roots, root.folder = Text.folderName root.name := by
    obtain ⟨found, _, _, he⟩ := ofSelection_eq_ok h
    rw [he]
    exact Compiler.folder_roots _ _ _
  refine ⟨placesDistinct_iff hfolder, fun hnames σ out r text? hout hr s => ?_⟩
  have hd := (placesDistinct_iff hfolder).mpr hnames
  refine ⟨((e.deliver out r).run s).1, ((e.deliver out r).run s).2, ?_, deliver_outcome hout e s,
    text?_deliver hout hr hfolder hd s⟩
  rw [run_of_ok out r h]
  rfl

/-- Two artboards side by side. -/
def twoBoards (first second : String) : ElasticScene Float :=
  (ElasticScene.empty.insert none
    { name := first, kind := .artboard, bounds := ⟨0.0, 0.0, 400.0, 300.0⟩ }).insert none
    { name := second, kind := .artboard, bounds := ⟨500.0, 0.0, 40.0, 30.0⟩ }

/-- Files in memory; folders need not be made. -/
def memoryFolder : OutputFolder (StateM (String → Option String)) where
  ensureFolder _ := return .ok ()
  writeText name text := do
    modify fun files => Function.update files name (some text)
    return .ok ()

/-- Puts an empty file in the place of every picture. -/
def blankPictures : Rasterizer (StateM (String → Option String)) where
  createRenditions manifest := do
    modify fun files file => if file ∈ manifest.requests.map (·.path) then some "" else files file
    return .ok manifest.size

theorem memoryFolder_neverFails : memoryFolder.NeverFails id where
  ensureFolder_ok _ _ := rfl
  ensureFolder_text? _ _ _ _ := rfl
  writeText_ok _ _ _ := rfl
  writeText_text?_self _ _ _ := Function.update_self _ _ _
  writeText_text?_of_ne _ _ _ _ h := Function.update_of_ne h _ _

theorem blankPictures_keepsWithin : blankPictures.KeepsWithin id := by
  intro files manifest file hpath _
  refine if_neg fun hmem => ?_
  obtain ⟨q, hq, heq⟩ := List.mem_map.mp hmem
  exact hpath q hq heq.symm

/-- A name may end in a part of what layout files end in. -/
theorem delivered_boards :
    ∃ after e, ofSelection (twoBoards "Shop" "Shop.layout") [] wholeContext = .ok (after, e) ∧
      PlacesDistinct e.roots ∧
      ∃ report files, (run (twoBoards "Shop" "Shop.layout") [] wholeContext memoryFolder
          blankPictures).run (fun _ => none) = (.ok (after, report), files) ∧
        report.documents = ["Shop.layout.txt", "Shop.layout.layout.txt"] ∧
        ∀ root ∈ e.roots, files root.fileName = some root.document.text := by
  have hplaces : (ofSelection (twoBoards "Shop" "Shop.layout") [] wholeContext).toOption.map
      (fun p => p.2.roots.map fun r => (r.name, r.fileName)) =
        some [("Shop", "Shop.layout.txt"), ("Shop.layout", "Shop.layout.layout.txt")] := by
    decide +kernel
  cases h : ofSelection (twoBoards "Shop" "Shop.layout") [] wholeContext with
  | error err =>
    rw [h] at hplaces
    cases hplaces
  | ok found =>
    obtain ⟨after, e⟩ := found
    rw [h] at hplaces
    have hplaces := Option.some.inj hplaces
    have hnames := congrArg (List.map Prod.fst) hplaces
    have hfiles := congrArg (List.map Prod.snd) hplaces
    rw [List.map_map] at hnames hfiles
    have hnames : e.roots.map (·.name) = ["Shop", "Shop.layout"] := hnames
    have happart : NamesApart (e.roots.map (·.name)) := by
      rw [hnames]
      exact ⟨by decide, by decide⟩
    obtain ⟨hiff, hrun⟩ := places_distinct_iff_names_apart h
    obtain ⟨report, files, hreport, hdocuments, hkept⟩ :=
      hrun happart memoryFolder blankPictures id memoryFolder_neverFails
        blankPictures_keepsWithin (fun _ => none)
    exact ⟨after, e, rfl, hiff.mpr happart, report, files, hreport, hdocuments.trans hfiles,
      hkept⟩

/-- Names that differ in reserved characters alone give one place. -/
theorem colliding_boards :
    ¬ ∀ (doc after : ElasticScene Float) selection context e,
      ofSelection doc selection context = .ok (after, e) → PlacesDistinct e.roots := by
  intro h
  have hfolders : (ofSelection (twoBoards "a:b" "a?b") [] wholeContext).toOption.map
      (fun p => p.2.roots.map (·.folder)) = some ["a_b", "a_b"] := by
    decide +kernel
  cases hboards : ofSelection (twoBoards "a:b" "a?b") [] wholeContext with
  | error err =>
    rw [hboards] at hfolders
    cases hfolders
  | ok found =>
    have hd := (h _ found.1 _ _ found.2 hboards).folders
    rw [hboards] at hfolders
    have hfolders : found.2.roots.map (·.folder) = ["a_b", "a_b"] := Option.some.inj hfolders
    rw [hfolders] at hd
    exact absurd hd (by decide)

end Export
end DesignLayout
