import DesignLayout.Proofs.Calls
import DesignLayout.Proofs.Keeping
import DesignLayout.Proofs.Places

/-! Deliveries that stay inside the output folder.

A name stays inside the folder at hand when it is a single component of a path
(`Text.IsComponent`). No name that is written holds a reserved character, so separators never come
into the way, and whatever ends like a layout file or like a picture is a component. The name of a
folder is one unless it is empty or made of one or two dots, which are kept as they are
(`Text.isComponent_folderName_iff`). So all that a delivery asks of its surroundings stays inside
exactly when no root has one of these three names (`Export.stays_inside_iff`). -/
namespace DesignLayout

namespace Text

/-- No character of the text is reserved. -/
def IsPlain (s : String) : Prop := ∀ c ∈ s.toList, isReserved c = false

/-- A single component of a path, which leads to something within the folder at hand. -/
structure IsComponent (s : String) : Prop where
  ne_empty : s ≠ ""
  ne_here : s ≠ "."
  ne_up : s ≠ ".."
  no_slash : '/' ∉ s.toList
  no_backslash : '\\' ∉ s.toList

/-- Two components, joined by a slash. -/
def IsFileInFolder (path : String) : Prop :=
  ∃ folder file, IsComponent folder ∧ IsComponent file ∧ path = folder ++ "/" ++ file

/-- The names that lead to no place of their own. -/
def strayNames : List String := ["", ".", ".."]

/-! ### Plain texts -/

theorem isPlain_of_all {s : String} (h : (s.toList.all fun c => !isReserved c) = true) :
    IsPlain s := by
  intro c hc
  have hfree := List.all_eq_true.mp h c hc
  rwa [Bool.not_eq_true'] at hfree

theorem IsPlain.append {s t : String} (hs : IsPlain s) (ht : IsPlain t) : IsPlain (s ++ t) := by
  intro c hc
  rw [String.toList_append, List.mem_append] at hc
  exact hc.elim (hs c) (ht c)

theorem isPlain_fileName (replaceDots : Bool) (name : String) :
    IsPlain (fileName replaceDots name) := by
  intro c hc
  rw [fileName, String.toList_ofList] at hc
  obtain ⟨d, -, rfl⟩ := List.mem_map.mp hc
  exact isReserved_fileNameChar replaceDots d

theorem isReserved_of_isDigit {c : Char} (h : c.isDigit = true) : isReserved c = false := by
  simp only [Char.isDigit, Bool.and_eq_true, decide_eq_true_eq] at h
  have hlow : 48 ≤ c.toNat := UInt32.le_iff_toNat_le.mp h.1
  have hhigh : c.toNat ≤ 57 := UInt32.le_iff_toNat_le.mp h.2
  have hlisted : (['\\', '/', ':', '*', '?', '"', '<', '>', '|', '#'].all fun d =>
      decide (d.toNat < 48 ∨ 57 < d.toNat)) = true := by
    decide
  simp only [isReserved, Bool.or_eq_false_iff, decide_eq_false_iff_not, beq_eq_false_iff_ne]
  refine ⟨⟨fun hmem => ?_, by omega⟩, by omega⟩
  have hout := of_decide_eq_true (List.all_eq_true.mp hlisted c hmem)
  omega

theorem isPlain_repr (n : Nat) : IsPlain (Nat.repr n) := by
  intro c hc
  rw [Nat.toList_repr] at hc
  exact isReserved_of_isDigit (Nat.isDigit_of_mem_toDigits (by decide) (by decide) hc)

/-! ### Components -/

theorem IsPlain.isComponent_iff {s : String} (h : IsPlain s) :
    IsComponent s ↔ s ∉ strayNames := by
  have hnotMem {c : Char} (hc : isReserved c = true) : c ∉ s.toList := by
    intro hmem
    rw [h c hmem] at hc
    cases hc
  constructor
  · intro hs hstray
    simp only [strayNames, List.mem_cons, List.not_mem_nil, or_false] at hstray
    rcases hstray with rfl | rfl | rfl
    · exact hs.ne_empty rfl
    · exact hs.ne_here rfl
    · exact hs.ne_up rfl
  · intro hstray
    simp only [strayNames, List.mem_cons, List.not_mem_nil, or_false, not_or] at hstray
    exact ⟨hstray.1, hstray.2.1, hstray.2.2, hnotMem (by decide), hnotMem (by decide)⟩

/-- A text with a longer ending is none of the three names. -/
theorem IsPlain.isComponent_append {s ending : String} (hs : IsPlain s) (hending : IsPlain ending)
    (hlong : 2 < ending.length) : IsComponent (s ++ ending) := by
  refine (hs.append hending).isComponent_iff.mpr fun hstray => ?_
  have hlength : (s ++ ending).length ≤ 2 := by
    simp only [strayNames, List.mem_cons, List.not_mem_nil, or_false] at hstray
    rcases hstray with h | h | h <;> rw [h] <;> decide
  rw [String.length_append] at hlength
  omega

/-- A name without reserved characters is kept. -/
theorem IsPlain.folderName_eq {name : String} (h : IsPlain name) : folderName name = name := by
  have hkept : ∀ c ∈ name.toList, fileNameChar false c = c := fun c hc =>
    fileNameChar_of_not_reserved (h c hc)
  rw [← String.toList_inj, toList_folderName, List.map_congr_left hkept, List.map_id']

/-- A plain name without underscores is written like no other one. -/
theorem folderName_eq_iff_of_plain {a b : String} (hb : IsPlain b) (hunderscore : '_' ∉ b.toList) :
    folderName a = b ↔ a = b := by
  constructor
  · intro hname
    have ha : IsPlain a := by
      intro c hc
      by_contra hreserved
      rw [Bool.not_eq_false] at hreserved
      refine hunderscore ?_
      rw [← hname, toList_folderName, ← fileNameChar_of_reserved hreserved]
      exact List.mem_map_of_mem hc
    rw [← hname, ha.folderName_eq]
  · rintro rfl
    exact hb.folderName_eq

theorem folderName_mem_strayNames (name : String) :
    folderName name ∈ strayNames ↔ name ∈ strayNames := by
  have hplain : ∀ stray ∈ strayNames, IsPlain stray := by
    intro stray hstray
    have hall : ∀ stray ∈ strayNames, (stray.toList.all fun c => !isReserved c) = true := by
      decide
    exact isPlain_of_all (hall stray hstray)
  have hunderscore : ∀ stray ∈ strayNames, '_' ∉ stray.toList := by decide
  constructor
  · intro hmem
    rwa [← (folderName_eq_iff_of_plain (hplain _ hmem) (hunderscore _ hmem)).mp rfl] at hmem
  · intro hmem
    rwa [(hplain _ hmem).folderName_eq]

theorem isComponent_folderName_iff (name : String) :
    IsComponent (folderName name) ↔ name ∉ strayNames := by
  have hplain : IsPlain (folderName name) := isPlain_fileName false name
  rw [hplain.isComponent_iff, folderName_mem_strayNames]

end Text

/-! ### What is asked for -/

namespace Manifest
variable {α : Type}

theorem isPlain_baseName (parent role : String) : Text.IsPlain (baseName parent role) :=
  Text.isPlain_fileName true _

theorem isPlain_stemName (base guid : String) : Text.IsPlain (stemName base guid) :=
  Text.isPlain_fileName true _

theorem isPlain_candidate {base : String} (hbase : Text.IsPlain base) (guid : String) (n : Nat) :
    Text.IsPlain (candidate base guid n) := by
  have hunderscore : Text.IsPlain "_" := Text.isPlain_of_all (by decide)
  rcases n with _ | _ | n
  · rw [candidate_zero]
    exact hbase
  · rw [candidate_one]
    exact isPlain_stemName base guid
  · rw [candidate_add_two]
    exact ((isPlain_stemName base guid).append hunderscore).append (Text.isPlain_repr _)

end Manifest

/-- The picture has a plain name, and it is to go into one of the folders. -/
def RenditionRequest.GoesInto {α : Type} (folders : List String) (q : RenditionRequest α) : Prop :=
  q.folder ∈ folders ∧ Text.IsPlain q.file

/-- Every picture that was asked for goes into one of the folders. -/
def Ledger.GoesInto {α : Type} (folders : List String) (l : Ledger α) : Prop :=
  ∀ q ∈ l.manifest.requests, q.GoesInto folders

theorem Ledger.goesInto_empty {α : Type} (folders : List String) :
    GoesInto folders (empty : Ledger α) := by
  intro q hq
  cases hq

namespace Compiler
open Compile

variable {α : Type} [Scalar α] {c : Compiler α} {folders : List String}

theorem goesInto_picture {t : Target α} (h : t.folder ∈ folders) (id : NodeId) (n : Node α)
    (name : String) : (c.picture t id n name).Keeps (Ledger.GoesInto folders) := by
  intro l hl q hq
  rcases List.mem_append.mp hq with hq | hq
  · exact hl q hq
  · obtain rfl := List.mem_singleton.mp hq
    exact ⟨h, Manifest.isPlain_candidate (Manifest.isPlain_baseName _ _) _ _⟩

theorem map_folder_roots (bs : List (Branch α)) (l : Ledger α) :
    ((c.roots bs).run l).1.map (·.folder) = bs.map fun b => (c.target b).folder := by
  induction bs generalizing l with
  | nil => rfl
  | cons b rest ih => exact congrArg (_ :: ·) (ih _)

theorem goesInto_roots (bs : List (Branch α)) :
    (c.roots bs).Keeps (Ledger.GoesInto (bs.map fun b => (c.target b).folder)) :=
  keeps_roots (fun _ hb p _ => goesInto_picture (List.mem_map.mpr ⟨_, hb, rfl⟩) p.1 p.2)
    fun _ _ hl => hl

end Compiler

/-! ### A whole export -/

/-- Nothing that the call asks for leaves the output folder. -/
def Call.StaysInside : Call → Prop
  | ensureFolder name => Text.IsComponent name
  | writeText name _ => Text.IsComponent name
  | createRenditions manifest => ∀ q ∈ manifest.requests, Text.IsFileInFolder q.path

namespace Export

/-- Every picture is to go into the folder of a root. -/
theorem requests_goInto_roots {α δ : Type} [Scalar α] [Host δ α] {doc doc' : δ}
    {selection : List NodeId} {context : Context α} {e : Export α}
    (h : ofSelection doc selection context = .ok (doc', e)) :
    ∀ q ∈ e.manifest.requests, q.GoesInto (e.roots.map (·.folder)) := by
  obtain ⟨r, _, _, he⟩ := ofSelection_eq_ok h
  rw [he]
  have hkept := Compiler.goesInto_roots (c := ⟨Host.scene doc', context, e.measurements⟩)
    ((Host.scene doc').branches r.ids) Ledger.empty (Ledger.goesInto_empty _)
  rw [← Compiler.map_folder_roots] at hkept
  exact hkept

theorem isPlain_pictureEnding : Text.IsPlain ".png" :=
  Text.isPlain_of_all (by decide)

theorem isPlain_layoutEnding : Text.IsPlain layoutEnding :=
  Text.isPlain_of_all (by decide)

/-- Whatever a root is called, its layout file is a component. -/
theorem isComponent_fileName {α : Type} {r : CompiledRoot α}
    (h : r.folder = Text.folderName r.name) : Text.IsComponent r.fileName := by
  have hfolder : Text.IsPlain r.folder := h ▸ Text.isPlain_fileName false r.name
  rw [CompiledRoot.fileName_eq]
  exact hfolder.isComponent_append isPlain_layoutEnding (by decide)

theorem isComponent_targetFile {α : Type} {q : RenditionRequest α} (h : Text.IsPlain q.file) :
    Text.IsComponent q.targetFile :=
  h.isComponent_append isPlain_pictureEnding (by decide)

theorem mem_calls {e : Export Float} {call : Call} : call ∈ e.calls ↔
    (∃ r ∈ e.roots, call = .ensureFolder r.folder ∨
      call = .writeText r.fileName r.document.text) ∨
    (call = .createRenditions e.manifest ∧ e.manifest.requests ≠ []) := by
  have hbatch : call ∈ e.manifest.calls ↔
      call = .createRenditions e.manifest ∧ e.manifest.requests ≠ [] := by
    unfold Manifest.calls Manifest.isEmpty
    by_cases hnone : e.manifest.requests = [] <;> simp [hnone]
  rw [calls, List.mem_append, List.mem_flatMap, hbatch]
  simp [CompiledRoot.calls]

/-- For every document, selection and context for which an export succeeds: the layout files and the
files of the pictures are single components, and every picture goes into the folder of a root; all
that a delivery asks for stays inside the output folder exactly when no root has an empty name or
one of one or two dots; and these are all the calls that a run makes, with any output folder and any
rasterizer. -/
theorem stays_inside_iff {δ : Type} [Host δ Float] {doc doc' : δ} {selection : List NodeId}
    {context : Context Float} {e : Export Float}
    (h : ofSelection doc selection context = .ok (doc', e)) :
    (∀ r ∈ e.roots, Text.IsComponent r.fileName) ∧
    (∀ q ∈ e.manifest.requests,
      Text.IsComponent q.targetFile ∧ ∃ r ∈ e.roots, q.folder = r.folder) ∧
    ((∀ call ∈ e.calls, call.StaysInside) ↔ ∀ r ∈ e.roots, r.name ∉ Text.strayNames) ∧
    ∀ {m : Type → Type} [Monad m] [LawfulMonad m] (out : OutputFolder m) (r : Rasterizer m),
      (run doc selection context out.recorded r.recorded).run [] =
        (fun result => (result, e.calls)) <$> run doc selection context out r := by
  have hfolder : ∀ r ∈ e.roots, r.folder = Text.folderName r.name := by
    obtain ⟨found, _, _, he⟩ := ofSelection_eq_ok h
    rw [he]
    exact Compiler.folder_roots _ _ _
  have hrequests : ∀ q ∈ e.manifest.requests,
      Text.IsComponent q.targetFile ∧ ∃ r ∈ e.roots, q.folder = r.folder := by
    intro q hq
    obtain ⟨hinto, hplain⟩ := requests_goInto_roots h q hq
    obtain ⟨r, hr, hqr⟩ := List.mem_map.mp hinto
    exact ⟨isComponent_targetFile hplain, r, hr, hqr.symm⟩
  refine ⟨fun r hr => isComponent_fileName (hfolder r hr), hrequests, ?_,
    fun out r => run_recorded out r h⟩
  constructor
  · intro hinside r hr
    have hcall := hinside (.ensureFolder r.folder) (mem_calls.mpr (.inl ⟨r, hr, .inl rfl⟩))
    rw [← Text.isComponent_folderName_iff, ← hfolder r hr]
    exact hcall
  · intro hnames call hcall
    have hcomponent : ∀ r ∈ e.roots, Text.IsComponent r.folder := by
      intro r hr
      rw [hfolder r hr, Text.isComponent_folderName_iff]
      exact hnames r hr
    rcases mem_calls.mp hcall with ⟨r, hr, rfl | rfl⟩ | ⟨rfl, -⟩
    · exact hcomponent r hr
    · exact isComponent_fileName (hfolder r hr)
    · intro q hq
      obtain ⟨hfile, r, hr, hqr⟩ := hrequests q hq
      exact ⟨q.folder, q.targetFile, hqr ▸ hcomponent r hr, hfile, rfl⟩

theorem shapeBoard_stays_inside :
    ∃ after e, ofSelection shapeBoard [] wholeContext = .ok (after, e) ∧
      e.roots.map (·.name) = ["Board"] ∧
      e.manifest.requests.map (·.path) = ["Board/Board - Photo.png", "Board/Photo - Mask.png"] ∧
      ∀ call ∈ e.calls, call.StaysInside := by
  have hshown : (ofSelection shapeBoard [] wholeContext).toOption.map
      (fun p => (p.2.roots.map (·.name), p.2.manifest.requests.map (·.path))) =
        some (["Board"], ["Board/Board - Photo.png", "Board/Photo - Mask.png"]) := by
    decide +kernel
  obtain ⟨⟨after, e⟩, h, hshown⟩ := eq_ok_of_map_toOption hshown
  obtain ⟨hnames, hpaths⟩ := Prod.mk.inj hshown
  have hstray : ∀ r ∈ e.roots, r.name ∉ Text.strayNames := by
    intro r hr
    have hname : r.name ∈ ["Board"] := hnames ▸ List.mem_map_of_mem hr
    rw [List.mem_singleton.mp hname]
    decide
  exact ⟨after, e, h, hnames, hpaths, (stays_inside_iff h).2.2.1.mpr hstray⟩

/-- An artboard that is called by two dots. -/
def upperBoard : ElasticScene Float :=
  ElasticScene.empty.insert none
    { name := "..", kind := .artboard, bounds := ⟨0.0, 0.0, 400.0, 300.0⟩ }

/-- Two dots are kept as the name of a folder, which then is the one above the output folder. -/
theorem upperBoard_leaves :
    ¬ ∀ (doc after : ElasticScene Float) selection context e,
      ofSelection doc selection context = .ok (after, e) → ∀ call ∈ e.calls, call.StaysInside := by
  intro h
  have hfolders : (ofSelection upperBoard [] wholeContext).toOption.map
      (fun p => p.2.roots.map (·.folder)) = some [".."] := by
    decide +kernel
  obtain ⟨⟨after, e⟩, hboard, hfolders⟩ := eq_ok_of_map_toOption hfolders
  have hmem : ".." ∈ e.roots.map (·.folder) := hfolders ▸ List.mem_cons_self
  obtain ⟨r, hr, hfolder⟩ := List.mem_map.mp hmem
  have hinside : Text.IsComponent r.folder :=
    h _ after _ _ e hboard (.ensureFolder r.folder) (mem_calls.mpr (.inl ⟨r, hr, .inl rfl⟩))
  exact hinside.ne_up hfolder

end Export
end DesignLayout
