import DesignLayout.Proofs.Agreeing
import DesignLayout.Proofs.Anchoring
import DesignLayout.Proofs.RoundTrip

/-! What the probe adds to an export.

`Element.bare` takes away what the compiler takes over from the probe: pivots and stretch flags. The
compiler decides nothing by them (`Attributes.forgets_bare`), and asks for the same pictures and
reports the same. So a branch is compiled to the same bare element with the parameters and without
them (`agree_branch`), and since the probe gives the document back, an export differs only by what
`bare` takes away, whether it probes or not (`Export.bareOutcome_probing`). -/
namespace DesignLayout

variable {α : Type}

/-! ### Taking away what the probe has found -/

def Attributes.bare (a : Attributes α) : Attributes α :=
  { a with pivot := none, stretchX := false, stretchY := false }

namespace Element

mutual

def bare : Element α → Element α
  | mk own none => mk own.bare none
  | mk own (some elements) => mk own.bare (some (bareAll elements))

def bareAll : List (Element α) → List (Element α)
  | [] => []
  | e :: rest => bare e :: bareAll rest

end
end Element

/-- A canvas of the same size at no place. -/
def CanvasRect.unplaced (r : CanvasRect α) : CanvasRect α :=
  { r with x := none, y := none }

def Document.bare (d : Document α) : Document α :=
  { d with canvas := { d.canvas with base := d.canvas.base.unplaced }, root := d.root.bare }

def CompiledRoot.bare (r : CompiledRoot α) : CompiledRoot α :=
  { r with document := r.document.bare }

theorem Attributes.forgets_bare : Forgets (bare (α := α)) where
  name _ := rfl
  rename _ _ := rfl
  group _ := rfl
  repin _ _ := rfl

namespace Element

variable {e e' : Element α}

theorem bareAll_eq (es : List (Element α)) : bareAll es = es.map bare := by
  induction es with
  | nil => rfl
  | cons e rest ih => rw [bareAll, ih, List.map_cons]

@[simp] theorem bare_mk (own : Attributes α) (es : Option (List (Element α))) :
    (mk own es).bare = mk own.bare (es.map (·.map bare)) := by
  cases es with
  | none => rfl
  | some es => simp [bare, bareAll_eq]

mutual

theorem bare_eq_mapOwn : ∀ e : Element α, e.bare = e.mapOwn Attributes.bare
  | mk own none => rfl
  | mk own (some elements) => by rw [bare, mapOwn, bareAll_eq_mapOwnAll elements]

theorem bareAll_eq_mapOwnAll : ∀ es : List (Element α), bareAll es = mapOwnAll Attributes.bare es
  | [] => rfl
  | e :: rest => by rw [bareAll, mapOwnAll, bare_eq_mapOwn e, bareAll_eq_mapOwnAll rest]

end

theorem bare_eq : (bare : Element α → Element α) = mapOwn Attributes.bare :=
  funext bare_eq_mapOwn

theorem bare_setOwn {f : Attributes α → Attributes α} (h : (f e.own).bare = e.own.bare) :
    (e.setOwn f).bare = e.bare := by
  cases e
  simpa [setOwn] using h

end Element

namespace Compile
variable {β γ β' γ' : Type}

/-- From every ledger both computations come to the same ledger, with results that are alike under
`f`. -/
def Agree (f : β → γ) (x y : Compile α β) : Prop :=
  ∀ l, f (x.run l).1 = f (y.run l).1 ∧ (x.run l).2 = (y.run l).2

theorem Agree.refl (f : β → γ) (x : Compile α β) : Agree f x x :=
  fun _ => ⟨rfl, rfl⟩

theorem Agree.pure {f : β → γ} {b b' : β} (h : f b = f b') :
    Agree f (Pure.pure b : Compile α β) (Pure.pure b') :=
  fun _ => ⟨h, rfl⟩

theorem Agree.bind {f : β → γ} {g : β' → γ'} {x y : Compile α β} {k k' : β → Compile α β'}
    (h : Agree f x y) (hk : ∀ b b', f b = f b' → Agree g (k b) (k' b')) :
    Agree g (x >>= k) (y >>= k') := by
  intro l
  obtain ⟨hresult, hledger⟩ := h l
  rw [run_bind, run_bind, hledger]
  exact hk _ _ hresult _

theorem AgreeUpTo.agree {f : β → γ} {x y : Compile α β} (h : AgreeUpTo Eq f x y) : Agree f x y :=
  fun l => h l l rfl

end Compile

/-! ### Compiling without parameters -/

namespace Compiler
open Compile Element

/-- The same compiler, taking nothing over from the probe. -/
def unprobed (c : Compiler α) : Compiler α :=
  { c with
    context := { c.context with options := { c.context.options with responsive := false } }
    measurements := .empty }

variable (c : Compiler α)

theorem bare_withParameter (id : NodeId) (e : Element α) :
    (c.withParameter id e).bare = e.bare := by
  rcases c.withParameter_eq id e with heq | ⟨p, -, heq⟩ <;> rw [heq]
  exact bare_setOwn rfl

theorem takesAlike_unprobed (id : NodeId) : TakesAlike Attributes.bare c c.unprobed id := by
  intro e e' h
  rw [← bare_eq] at h ⊢
  rw [bare_withParameter, bare_withParameter, h]

variable [Scalar α] (t : Target α)

theorem agreement_unprobed : Agreement Eq Attributes.bare c c.unprobed t where
  forgets := Attributes.forgets_bare
  label := rfl
  omits := rfl
  node := rfl
  report _ _ _ hl := by rw [hl]; exact ⟨rfl, rfl⟩
  picture _ _ _ _ _ hl := by rw [hl]; exact ⟨rfl, rfl⟩

/-- A branch is compiled to the same bare element without the parameters. -/
theorem agree_branch (inner : Bool) (b : Branch α) :
    Agree (Option.map bare) (c.branch t inner b) (c.unprobed.branch t inner b) := by
  rw [bare_eq]
  exact (agreeUpTo_branch (agreement_unprobed c t) inner b fun id _ =>
    takesAlike_unprobed c id).agree

end Compiler

/-! ### Documents -/

section
variable [Scalar α]

/-- An anchor moves a canvas, and does not change its size. -/
theorem CanvasRect.unplaced_anchored (base : CanvasRect α) (n : Node α) (parent : Option (Node α))
    (scale : α) (pivot : Option Pivot) :
    (base.anchored n parent scale pivot).unplaced = base.unplaced := by
  unfold anchored
  split <;> rfl

omit [Scalar α] in
theorem Document.bare_ofBase {base base' : CanvasRect α} {root root' : Element α}
    (hbase : base.unplaced = base'.unplaced) (hroot : root.bare = root'.bare) :
    (ofBase base root).bare = (ofBase base' root').bare := by
  simp only [CanvasRect.unplaced, CanvasRect.mk.injEq, true_and] at hbase
  simp [bare, ofBase, CanvasRect.unplaced, hbase, hroot]

theorem Document.bare_ofRoot {n : Node α} {parent : Option (Node α)} {scale : α}
    {e e' : Element α} (h : e.bare = e'.bare) :
    (ofRoot n parent scale e).bare = (ofRoot n parent scale e').bare :=
  bare_ofBase (by rw [CanvasRect.unplaced_anchored, CanvasRect.unplaced_anchored]) h

namespace Compiler
open Compile Element

variable (c : Compiler α)

theorem agree_root (b : Branch α) : Agree CompiledRoot.bare (c.root b) (c.unprobed.root b) := by
  refine (agree_branch c _ false b).bind fun e? e?' h => .pure ?_
  have hroot : (e?.getD (emptyRoot (c.label b.node).name)).bare =
      (e?'.getD (emptyRoot (c.label b.node).name)).bare := by
    cases e? <;> cases e?' <;> simp_all
  exact congrArg (CompiledRoot.mk b.id _ _) (Document.bare_ofRoot hroot)

theorem agree_roots (bs : List (Branch α)) :
    Agree (List.map CompiledRoot.bare) (c.roots bs) (c.unprobed.roots bs) := by
  induction bs with
  | nil => exact .refl _ _
  | cons b rest ih =>
    exact (agree_root c b).bind fun r r' hr => ih.bind fun rs rs' hrs => .pure (by simp [hr, hrs])

end Compiler
end

/-! ### A whole export -/

/-- The switch that turns the probe on or off. -/
def Context.probing (context : Context α) (on : Bool) : Context α :=
  { context with options := { context.options with responsive := on } }

namespace Roots

mutual

theorem candidates_probing (s : Scene α) (context : Context α) (on : Bool) :
    ∀ b, candidates s (context.probing on).options b = candidates s context.options b
  | .mk id n children => by
    rw [candidates, candidates, candidatesAll_probing s context on children]
    rfl

theorem candidatesAll_probing (s : Scene α) (context : Context α) (on : Bool) :
    ∀ bs, candidatesAll s (context.probing on).options bs = candidatesAll s context.options bs
  | [] => rfl
  | b :: rest => by
    rw [candidatesAll, candidatesAll, candidates_probing s context on b,
      candidatesAll_probing s context on rest]

end

theorem find_probing (s : Scene α) (selection : List NodeId) (context : Context α) (on : Bool) :
    find s selection (context.probing on).options = find s selection context.options := by
  simp only [find, candidatesAll_probing]

end Roots

namespace Export
variable [Scalar α] {t : ElasticScene α}

/-- What an export gives away, without what the probe has found. -/
def bareOutcome (doc : ElasticScene α) (selection : List NodeId) (context : Context α) :
    Except SelectionError (List (CompiledRoot α) × Manifest α × List Diagnostic) :=
  (outcome doc selection context).map fun (roots, given) => (roots.map CompiledRoot.bare, given)

theorem bareOutcome_probing (hf : t.scene.IsForest) (hrest : t.AtRest) (hc : t.scene.Comparable)
    (selection : List NodeId) (context : Context α) :
    bareOutcome t selection (context.probing true) =
      bareOutcome t selection (context.probing false) := by
  have hfind (on : Bool) := Roots.find_probing t.scene selection context on
  cases hr : Roots.find t.scene selection context.options with
  | error e =>
    rw [bareOutcome, bareOutcome, outcome_of_error ((hfind true).trans hr),
      outcome_of_error ((hfind false).trans hr)]
  | ok r =>
    have hdoc := (measure_restores hf hrest hc (context.probing true) r).1
    rw [bareOutcome, bareOutcome, outcome_of_find ((hfind true).trans hr),
      outcome_of_find ((hfind false).trans hr)]
    have hprobed : measure t (context.probing true) r =
        (t, (measure t (context.probing true) r).2) := Prod.ext hdoc rfl
    have hunprobed : measure t (context.probing false) r = (t, .empty) := rfl
    obtain ⟨hroots, hledger⟩ := Compiler.agree_roots
      ⟨t.scene, context.probing true, (measure t (context.probing true) r).2⟩
      (t.scene.branches r.ids) Ledger.empty
    rw [hprobed, hunprobed]
    exact congrArg Except.ok (Prod.ext hroots
      (Prod.ext (congrArg Ledger.manifest hledger) (congrArg Ledger.diagnostics hledger)))

/-- For every document at rest without a NaN in its bounds, and every selection and context: with
the probe and without it an export fails with the same error, or it gives the same roots with the
same names and folders, the same requests and the same diagnostics, and documents that are the same
but for pivots, stretch flags and the places of canvases. -/
theorem probe_only_adds {t : ElasticScene Float} (hbuilt : t.Built) (hrest : t.AtRest)
    (hnan : ∀ id n, t.scene.node? id = some n → n.bounds.HasNoNaN) (selection : List NodeId)
    (context : Context Float) :
    bareOutcome t selection (context.probing true) =
      bareOutcome t selection (context.probing false) :=
  bareOutcome_probing hbuilt.isForest hrest (fun id n hn => (hnan id n hn).same_self) selection
    context

theorem barBoard_probe_only_adds :
    (barBoard .left).Built ∧ (barBoard .left).AtRest ∧
    (∀ id n, (barBoard .left).scene.node? id = some n → n.bounds.HasNoNaN) ∧
    (outcome (barBoard .left) [] (wholeContext.probing true)).toOption.map (fun given =>
      given.1.flatMap fun r => r.document.root.children.map fun x =>
        (x.name, x.own.pivot, x.own.stretchX)) =
      some [("ShopScroller", some ⟨none, some .top⟩, true)] ∧
    bareOutcome (barBoard .left) [] (wholeContext.probing true) =
      bareOutcome (barBoard .left) [] (wholeContext.probing false) := by
  have hnan : ∀ id n, (barBoard .left).scene.node? id = some n → n.bounds.HasNoNaN :=
    Scene.forall_bounds_insert (by decide) (by decide) <|
      Scene.forall_bounds_insert (by decide) (by decide) <|
      Scene.forall_bounds_insert (by decide) (by decide) <|
      Scene.forall_bounds_insert (by simp) (by decide) Scene.forall_bounds_empty
  exact ⟨built_barBoard .left, rfl, hnan, by decide +kernel,
    probe_only_adds (built_barBoard .left) rfl hnan [] wholeContext⟩

end Export
end DesignLayout
