import DesignLayout.Proofs.Building
import DesignLayout.Proofs.Elements
import DesignLayout.Proofs.Exporting
import DesignLayout.Proofs.Naming

/-! The pictures of the documents and the pictures that are asked for.

A compilation queues requests while it makes elements, and keeps the two in step (`InStep`): the
pictures that its elements show are among those it has asked for, in the same order, and when none
of its elements is the scroller of a repeated grid they are all of them. A picture is asked for
before what is within it is compiled, elements come in the order in which they are compiled, and
only a grid drops elements that it has compiled. -/
namespace DesignLayout

variable {α : Type}

/-! ### Runs of a compilation -/

namespace Compile

@[simp] theorem run_pure {β : Type} (b : β) (l : Ledger α) :
    (pure b : Compile α β).run l = (b, l) := rfl

@[simp] theorem run_bind {β γ : Type} (x : Compile α β) (f : β → Compile α γ) (l : Ledger α) :
    (x >>= f).run l = (f (x.run l).1).run (x.run l).2 := rfl

@[simp] theorem run_map {β γ : Type} (f : β → γ) (x : Compile α β) (l : Ledger α) :
    (f <$> x).run l = (f (x.run l).1, (x.run l).2) := rfl

@[simp] theorem run_report (d : Diagnostic) (l : Ledger α) :
    (report d).run l = ((), { l with diagnostics := l.diagnostics ++ [d] }) := rfl

end Compile

/-! ### Ledgers and elements -/

/-- The picture, with the folder of the document, that an element of the kind shows. -/
def pictureIn (folder : String) (k : ElementKind α) : Option (String × String) :=
  k.picture?.map (folder, ·)

/-- From `l` to `l'` requests were added. Elements of the kinds `ks`, in documents of the given
folders, show pictures of these, in their order; and all of them, unless one is the scroller of a
repeated grid. -/
structure Ledger.Queued (ks : List (String × ElementKind α)) (l l' : Ledger α) : Prop where
  nodup : l.manifest.files.Nodup → l'.manifest.files.Nodup
  added : ∃ new : List (RenditionRequest α),
    l'.manifest.requests = l.manifest.requests ++ new ∧
    (ks.filterMap fun p => pictureIn p.1 p.2).Sublist (new.map fun q => (q.folder, q.file)) ∧
    ((∀ p ∈ ks, p.2.isGridScroller = false) →
      (ks.filterMap fun p => pictureIn p.1 p.2) = new.map fun q => (q.folder, q.file))

namespace Ledger.Queued
variable {ks ks' : List (String × ElementKind α)} {l l' l'' : Ledger α}

theorem nil (l : Ledger α) : Queued [] l l where
  nodup := id
  added := ⟨[], (List.append_nil _).symm, .refl _, fun _ => rfl⟩

/-- A report asks for nothing. -/
theorem report (h : Queued ks l l') (d : Diagnostic) :
    Queued ks l ((Compile.report d).run l').2 where
  nodup := h.nodup
  added := h.added

theorem trans (h : Queued ks l l') (h' : Queued ks' l' l'') : Queued (ks ++ ks') l l'' where
  nodup := h'.nodup ∘ h.nodup
  added := by
    obtain ⟨new, hnew, hsub, hall⟩ := h.added
    obtain ⟨new', hnew', hsub', hall'⟩ := h'.added
    refine ⟨new ++ new', ?_, ?_, fun hplain => ?_⟩
    · rw [hnew', hnew, List.append_assoc]
    · rw [List.filterMap_append, List.map_append]
      exact hsub.append hsub'
    · rw [List.filterMap_append, List.map_append, hall, hall']
      · exact fun p hp => hplain p (List.mem_append_right _ hp)
      · exact fun p hp => hplain p (List.mem_append_left _ hp)

end Ledger.Queued

/-! ### Elements that are compiled -/

/-- The kinds of all elements there are, with the folder of their document. -/
def kindsIn (folder : String) (es : List (Element α)) : List (String × ElementKind α) :=
  (Element.kindsAll es).map (folder, ·)

section
variable {folder : String} {es es' : List (Element α)} {own : Attributes α} {l l' : Ledger α}

theorem kindsIn_nil (folder : String) : kindsIn folder ([] : List (Element α)) = [] := rfl

theorem kindsIn_append : kindsIn folder (es ++ es') = kindsIn folder es ++ kindsIn folder es' := by
  rw [kindsIn, Element.kindsAll_append, List.map_append]
  rfl

theorem kindsIn_mk :
    kindsIn folder [.mk own (some es)] = (folder, own.kind) :: kindsIn folder es := by
  simp [kindsIn]

theorem filterMap_kindsIn : ((kindsIn folder es).filterMap fun p => pictureIn p.1 p.2) =
    ((Element.kindsAll es).filterMap ElementKind.picture?).map (folder, ·) := by
  rw [kindsIn, List.filterMap_map, List.map_filterMap]
  rfl

/-- An element without a picture of its own holds the elements. -/
theorem Ledger.Queued.within (h : Queued (kindsIn folder es) l l')
    (hown : own.kind.picture? = none) : Queued (kindsIn folder [.mk own (some es)]) l l' where
  nodup := h.nodup
  added := by
    obtain ⟨new, hnew, hsub, hall⟩ := h.added
    rw [kindsIn_mk, List.filterMap_cons_none (by rw [pictureIn, hown]; rfl)]
    exact ⟨new, hnew, hsub, fun hplain => hall fun p hp => hplain p (List.mem_cons_of_mem _ hp)⟩

theorem Ledger.Queued.leaf (hown : own.kind.picture? = none) :
    Queued (kindsIn folder [.mk own none]) l l := by
  have h : Queued (kindsIn folder []) l l := .nil l
  exact h.within hown

/-- The scroller of a repeated grid holds fewer elements than there were, in the same order. -/
theorem Ledger.Queued.grid (h : Queued (kindsIn folder es) l l')
    (hown : own.kind.isGridScroller = true)
    (hsub : ((Element.kindsAll es').filterMap ElementKind.picture?).Sublist
      ((Element.kindsAll es).filterMap ElementKind.picture?)) :
    Queued (kindsIn folder [.mk own (some es')]) l l' where
  nodup := h.nodup
  added := by
    obtain ⟨new, hnew, hes, _⟩ := h.added
    have hpic : own.kind.picture? = none := by
      revert hown
      cases own.kind <;> simp [ElementKind.isGridScroller, ElementKind.picture?]
    rw [kindsIn_mk]
    refine ⟨new, hnew, ?_, fun hplain => ?_⟩
    · rw [List.filterMap_cons_none (by rw [pictureIn, hpic]; rfl)]
      rw [filterMap_kindsIn] at hes ⊢
      exact (hsub.map _).trans hes
    · have := hplain _ List.mem_cons_self
      rw [hown] at this
      cases this

end

/-- What a computation asks for goes with the elements in its result, which belong to a document of
the folder. -/
def Compile.InStep {β : Type} (folder : String) (elements : β → List (Element α))
    (x : Compile α β) : Prop :=
  ∀ l, Ledger.Queued (kindsIn folder (elements (x.run l).1)) l (x.run l).2

namespace Compiler
open Compile Element

variable [Scalar α] {c : Compiler α} {t : Target α} {n : Node α} {name : String}
  {below : Compile α (List (Element α))}

theorem inStep_picture (id : NodeId) (n : Node α) (name : String) :
    (c.picture t id n name).InStep t.folder fun e => [e] := by
  intro l
  exact {
    nodup := fun h => Manifest.nodup_files_register h ..
    added := ⟨[_], rfl, .refl _, fun _ => rfl⟩ }

theorem inStep_container {kind : ElementKind α} (hkind : kind.picture? = none)
    (hbelow : below.InStep t.folder id) :
    (c.container kind n name below).InStep t.folder fun e => [e] := by
  intro l
  exact (hbelow l).within hkind

theorem inStep_scroller (hbelow : below.InStep t.folder id) :
    (c.scroller t n name below).InStep t.folder fun e => [e] := by
  intro l
  have h := hbelow l
  simp only [scroller, run_bind]
  split
  · exact h.within rfl
  · split
    · rename_i grid _ _
      refine h.grid rfl ?_
      rw [GridMetrics.scroller, kindsAll_map GridMetrics.kinds_pinned]
      exact GridMetrics.pictures_template grid _
    · exact (h.report _).within rfl

omit [Scalar α] in
theorem picture?_containerKind? {o : Options} {ds : Directives} {kind : ElementKind α}
    (h : containerKind? o ds = some kind) : kind.picture? = none := by
  unfold containerKind? at h
  split_ifs at h <;> cases h <;> rfl

theorem inStep_group (hbelow : below.InStep t.folder id) (m : NodeId) (label : Label) :
    (c.group t m n label below).InStep t.folder fun e => [e] := by
  unfold group
  dsimp only
  split
  · exact inStep_picture m n label.name
  · split
    · -- A list is a container that may be reported.
      intro l
      have h : (c.container _ n label.name below).InStep t.folder fun e => [e] :=
        inStep_container (picture?_containerKind? ‹_›) hbelow
      simp only [run_bind]
      split
      · exact (h l).report _
      · exact h l
    · exact inStep_container (picture?_containerKind? ‹_›) hbelow
    · split
      · exact inStep_scroller hbelow
      · exact inStep_container rfl hbelow

theorem inStep_text (m : NodeId) (n : Node α) (label : Label) :
    (c.text t m n label).InStep t.folder fun e => [e] := by
  unfold text
  split
  · exact inStep_picture m n label.name
  · dsimp only
    intro l
    refine .leaf ?_
    show ElementKind.picture? (if _ then _ else if _ then _ else _) = none
    split_ifs <;> rfl

/-- The picture of a shape is asked for before the pictures within it. -/
theorem inStep_shape (hbelow : below.InStep t.folder id) (m : NodeId) (n : Node α) (name : String) :
    Compile.InStep t.folder Option.toList (do
      let picture ← c.picture t m n name
      let elements ← below
      return some (if elements.isEmpty then picture else .mk picture.own (some elements))) := by
  intro l
  have h := (inStep_picture (c := c) m n name l).trans
    (hbelow ((c.picture t m n name).run l).2)
  simp only [run_bind, run_pure, Option.toList_some]
  split
  · rename_i hnone
    rw [List.isEmpty_iff] at hnone
    simp only [hnone, id_eq, kindsIn_nil, List.append_nil] at h
    exact h
  · rw [kindsIn_mk]
    exact h

theorem inStep_node (hbelow : below.InStep t.folder id) (m : NodeId) (label : Label) :
    (c.node t m n label below).InStep t.folder Option.toList := by
  unfold node
  split
  · intro l
    exact (hbelow l).within rfl
  · exact inStep_picture m n label.name
  · exact inStep_group hbelow m label
  · exact inStep_group hbelow m label
  · exact inStep_group hbelow m label
  · exact inStep_shape hbelow m n label.name
  · exact inStep_shape hbelow m n label.name
  · exact inStep_shape hbelow m n label.name
  · exact inStep_shape hbelow m n label.name
  · exact inStep_text m n label
  · -- A node of an unknown kind is dropped only when there is nothing below it.
    intro l
    rename_i tag _
    have h := ((Ledger.Queued.nil l).report (.unknownKind label.name tag)).trans
      (hbelow ((report (.unknownKind label.name tag)).run l).2)
    simp only [run_bind, run_pure]
    split
    · rename_i hnone
      rw [List.isEmpty_iff] at hnone
      rw [hnone] at h
      exact h
    · exact h.within rfl

omit [Scalar α] in
@[simp] theorem kinds_withParameter (m : NodeId) (e : Element α) :
    (c.withParameter m e).kinds = e.kinds := by
  unfold withParameter
  split
  · split
    · exact kinds_setOwn rfl
    · rfl
  · rfl

mutual

theorem inStep_branch (c : Compiler α) (t : Target α) (inner : Bool) :
    ∀ b, (c.branch t inner b).InStep t.folder Option.toList
  | .mk m n children => by
    unfold branch
    dsimp only
    split
    · exact fun l => .nil l
    · intro l
      have h := inStep_node (c := c) (n := n) (inStep_branchesBackward c t children) m (c.label n) l
      simp only [run_bind, run_pure]
      have hkinds (e? : Option (Element α)) :
          kindsIn t.folder (e?.map (c.withParameter m)).toList = kindsIn t.folder e?.toList := by
        cases e? <;> simp [kindsIn]
      rw [hkinds]
      exact h

theorem inStep_branchesBackward (c : Compiler α) (t : Target α) :
    ∀ bs, (c.branchesBackward t bs).InStep t.folder id
  | [] => fun l => .nil l
  | b :: rest => by
    intro l
    have h := (inStep_branchesBackward c t rest l).trans
      (inStep_branch c t true b ((c.branchesBackward t rest).run l).2)
    rw [← kindsIn_append] at h
    rw [branchesBackward]
    exact h

end

@[simp] theorem Document.root_ofRoot (n : Node α) (parent : Option (Node α)) (scale : α)
    (e : Element α) : (Document.ofRoot n parent scale e).root = e := rfl

theorem inStep_root (c : Compiler α) (b : Branch α) :
    (c.root b).InStep (Text.folderName (c.label b.node).name) fun r => [r.document.root] := by
  intro l
  have h := inStep_branch c ⟨b.node, Text.folderName (c.label b.node).name⟩ false b l
  unfold root
  simp only [run_bind, run_pure]
  rw [Document.root_ofRoot]
  generalize (c.branch _ false b).run l = p at h ⊢
  obtain ⟨_ | e, l'⟩ := p
  · have h : Ledger.Queued (kindsIn _ []) l l' := h
    exact h.within rfl
  · exact h

/-- The kinds of all elements of the documents, with the folders of their documents. -/
def kindsOf (rs : List (CompiledRoot α)) : List (String × ElementKind α) :=
  rs.flatMap fun r => kindsIn r.folder [r.document.root]

theorem queued_roots (c : Compiler α) (bs : List (Branch α)) (l : Ledger α) :
    Ledger.Queued (kindsOf ((c.roots bs).run l).1) l ((c.roots bs).run l).2 := by
  induction bs generalizing l with
  | nil => exact .nil l
  | cons b rest ih => exact (inStep_root c b l).trans (ih _)

end Compiler

/-! ### A whole export -/

namespace Export
variable {δ : Type} [Scalar α] [Host δ α]

/-- The pictures that the documents show, with the folders of their documents. -/
def pictures (e : Export α) : List (String × String) :=
  e.roots.flatMap fun r => r.document.root.pictures.map (r.folder, ·)

/-- No scroller of the documents was made from a repeated grid. -/
def HasNoGridScroller (e : Export α) : Prop :=
  ∀ r ∈ e.roots, ∀ k ∈ r.document.root.kinds, k.isGridScroller = false

omit [Scalar α] in
theorem pictures_eq (e : Export α) :
    e.pictures = (Compiler.kindsOf e.roots).filterMap fun p => pictureIn p.1 p.2 := by
  rw [pictures, Compiler.kindsOf, List.filterMap_flatMap]
  refine List.flatMap_congr fun r _ => ?_
  rw [filterMap_kindsIn, Element.kindsAll_cons, Element.kindsAll_nil, List.append_nil]
  rfl

/-- For every document, selection and context for which an export succeeds: the pictures of the
documents are among the pictures that are asked for, in the same order and for the same folders; a
picture is asked for once and shown once; and without scrollers of repeated grids every picture
that is asked for is shown. -/
theorem pictures_match_requests {doc doc' : δ} {selection : List NodeId} {context : Context α}
    {e : Export α} (h : ofSelection doc selection context = .ok (doc', e)) :
    e.pictures.Sublist (e.manifest.requests.map fun q => (q.folder, q.file)) ∧
    (e.pictures.map (·.2)).Nodup ∧
    (∀ p ∈ e.pictures, ∃ q ∈ e.manifest.requests, q.folder = p.1 ∧ q.file = p.2 ∧
      ∀ q' ∈ e.manifest.requests, q'.file = p.2 → q' = q) ∧
    (e.HasNoGridScroller →
      e.pictures = e.manifest.requests.map fun q => (q.folder, q.file)) := by
  obtain ⟨r, _, _, he⟩ := ofSelection_eq_ok h
  have hqueued : Ledger.Queued (Compiler.kindsOf e.roots) Ledger.empty
      ⟨e.manifest, e.diagnostics⟩ := by
    rw [he]
    exact Compiler.queued_roots _ _ _
  have hfiles : e.manifest.files.Nodup := hqueued.nodup List.nodup_nil
  obtain ⟨new, hnew, hsub, hall⟩ := hqueued.added
  obtain rfl : e.manifest.requests = new := hnew
  rw [← pictures_eq] at hsub hall
  have hsnd : (e.pictures.map (·.2)).Sublist e.manifest.files := by
    have := hsub.map (·.2)
    rw [List.map_map] at this
    exact this
  refine ⟨hsub, hsnd.nodup hfiles, fun p hp => ?_, fun hplain => hall fun p hp => ?_⟩
  · obtain ⟨q, hq, rfl⟩ := List.mem_map.mp (hsub.subset hp)
    exact ⟨q, hq, rfl, rfl, fun q' hq' hfile => List.inj_on_of_nodup_map hfiles hq' hq hfile⟩
  · obtain ⟨r, hr, hp⟩ := List.mem_flatMap.mp hp
    obtain ⟨k, hk, rfl⟩ := List.mem_map.mp hp
    refine hplain r hr k ?_
    rw [Element.kindsAll_cons, Element.kindsAll_nil, List.append_nil] at hk
    exact hk

/-- An artboard with a shape that has another shape within it. -/
def shapeBoard : ElasticScene Float :=
  ((ElasticScene.empty.insert none
    { name := "Board", kind := .artboard, bounds := ⟨0.0, 0.0, 320.0, 240.0⟩ }).insert (some 0)
    { name := "Photo", kind := .rectangle, bounds := ⟨10.0, 20.0, 30.0, 40.0⟩ }).insert (some 1)
    { name := "Mask", kind := .ellipse, bounds := ⟨12.0, 22.0, 10.0, 10.0⟩ }

theorem shapeBoard_pictures :
    ∃ after e, ofSelection shapeBoard [] wholeContext = .ok (after, e) ∧
      e.pictures = [("Board", "Board - Photo"), ("Board", "Photo - Mask")] ∧
      e.pictures.Sublist (e.manifest.requests.map fun q => (q.folder, q.file)) := by
  have hshown : (ofSelection shapeBoard [] wholeContext).toOption.map (·.2.pictures) =
      some [("Board", "Board - Photo"), ("Board", "Photo - Mask")] := by
    decide +kernel
  cases h : ofSelection shapeBoard [] wholeContext with
  | error err =>
    rw [h] at hshown
    cases hshown
  | ok found =>
    rw [h] at hshown
    exact ⟨found.1, found.2, rfl, Option.some.inj hshown, (pictures_match_requests h).1⟩

end Export
end DesignLayout
