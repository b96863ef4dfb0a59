import DesignLayout.Proofs.Exporting
import DesignLayout.Proofs.Measuring
import DesignLayout.Proofs.Resizing
import DesignLayout.Session

/-! The probe gives the design document back.

A probe resizes an artboard twice, the second time to the size that it had; of a document at rest
only the last resize counts, and that one changes nothing (`probe_restores`). So every probe of an
export starts from the same document, no record tells of a drift (`probeAll_restores`), and a whole
export leaves the document as it was (`export_restores`). The only thing asked of the document is
that no bounds hold a NaN: such a size differs from itself, and a resize to it is never taken for
the way back. -/
namespace DesignLayout

/-- Every number in the bounds of a node is the same as itself. -/
def Scene.Comparable {α : Type} [Scalar α] (s : Scene α) : Prop :=
  ∀ id n, s.node? id = some n → n.bounds.same n.bounds = true

theorem Bounds.same_self_iff {α : Type} [Scalar α] {b : Bounds α} :
    b.same b = true ↔ Scalar.same b.x b.x = true ∧ Scalar.same b.y b.y = true ∧
      Scalar.same b.width b.width = true ∧ Scalar.same b.height b.height = true := by
  simp only [same, Bool.and_eq_true, and_assoc]

theorem Scene.forall_bounds_insert {α : Type} {s : Scene α} {parent : Option NodeId} {d : Draft α}
    (hp : ∀ p ∈ parent, p < s.size) {P : Bounds α → Prop} (hd : P d.bounds)
    (hs : ∀ id n, s.node? id = some n → P n.bounds) (id : NodeId) (n : Node α)
    (h : (s.insert parent d).node? id = some n) : P n.bounds := by
  rw [node?_insert s d hp] at h
  split at h
  · obtain rfl := Option.some.inj h
    exact hd
  · obtain ⟨k, hk, rfl⟩ := Option.map_eq_some_iff.mp h
    have := hs id k hk
    split <;> exact this

theorem Scene.forall_bounds_empty {α : Type} {P : Bounds α → Prop} (id : NodeId) (n : Node α)
    (h : (Scene.empty : Scene α).node? id = some n) : P n.bounds := by
  simp [node?, empty] at h

theorem Scene.Comparable.empty {α : Type} [Scalar α] : (Scene.empty : Scene α).Comparable :=
  forall_bounds_empty (P := fun b => b.same b = true)

theorem Scene.Comparable.insert {α : Type} [Scalar α] {s : Scene α} (h : s.Comparable)
    {parent : Option NodeId} {d : Draft α} (hp : ∀ p ∈ parent, p < s.size)
    (hd : d.bounds.same d.bounds = true) : (s.insert parent d).Comparable :=
  forall_bounds_insert (P := fun b => b.same b = true) hp hd h

namespace Measurements
variable {α : Type} [Scalar α] {t : ElasticScene α}

/-- A probe leaves the document as it was, and finds every node of the branch where it was. -/
theorem probe_restores (hf : t.scene.IsForest) (hrest : t.AtRest) (hc : t.scene.Comparable)
    (th : Thresholds α) (root : NodeId) :
    (probe th t root).1 = t ∧
      ∀ id r, (probe th t root).2.record? id = some r → drifted? id r = none := by
  have hfresh := hrest.lookup_eq_none root
  cases hn : t.scene.node? root with
  | none =>
    have hmissing : probe th t root = (t, empty) := by
      simp only [probe, Host.scene, hn]
    rw [hmissing]
    refine ⟨rfl, fun id r hr => ?_⟩
    simp at hr
  | some n =>
    obtain ⟨_, _, hw, hh⟩ := Bounds.same_self_iff.mp (hc root n hn)
    have hback : back th t root n = t := by
      show (t.resize root _ _).resize root n.bounds.width n.bounds.height = t
      rw [ElasticScene.resize_resize hf hfresh, ElasticScene.resize_own_size hn hfresh hw hh]
    constructor
    · simp only [probe, Host.scene, hn]
      exact hback
    · intro id r hr
      rw [record?_probe hf th hn, hback, taken?, swept?] at hr
      split at hr
      · cases hk : t.scene.node? id with
        | none => simp [hk] at hr
        | some k =>
          simp only [hk, Option.map_some, Option.some.injEq] at hr
          subst hr
          simp [drifted?, Scene.bounds?, hk, hc id k hk]
      · cases hr

/-- Probing several branches one after the other leaves the document as it was, with no drift. -/
theorem probeAll_restores (hf : t.scene.IsForest) (hrest : t.AtRest) (hc : t.scene.Comparable)
    (th : Thresholds α) (roots : List NodeId) :
    (probeAll th t roots).1 = t ∧ (probeAll th t roots).2.drift? = none := by
  -- The invariant of the loop, for any measurements to begin with.
  have key (m : Measurements α) (hm : m.drift? = none) :
      (roots.foldl (probeNext th) (t, m)).1 = t ∧
        (roots.foldl (probeNext th) (t, m)).2.drift? = none := by
    induction roots generalizing m with
    | nil => exact ⟨rfl, hm⟩
    | cons root rest ih =>
      obtain ⟨hdoc, hfound⟩ := probe_restores hf hrest hc th root
      rw [List.foldl_cons, probeNext, hdoc]
      refine ih _ ((drift?_eq_none_iff _).mpr fun id r hr => ?_)
      rw [record?_merge, Option.or_eq_some_iff] at hr
      rcases hr with hr | ⟨_, hr⟩
      · exact hfound id r hr
      · exact (drift?_eq_none_iff m).mp hm id r hr
  exact key empty ((drift?_eq_none_iff _).mpr fun id r hr => by simp at hr)

end Measurements

namespace Export
variable {α : Type} [Scalar α] {t : ElasticScene α}

theorem measure_restores (hf : t.scene.IsForest) (hrest : t.AtRest) (hc : t.scene.Comparable)
    (context : Context α) (r : Roots) :
    (measure t context r).1 = t ∧ (measure t context r).2.drift? = none := by
  unfold measure
  split
  · exact Measurements.probeAll_restores hf hrest hc _ _
  · exact ⟨rfl, (Measurements.drift?_eq_none_iff _).mpr fun id r hr => by simp at hr⟩

/-- The document is the same after an export. -/
theorem documentAfter_eq (hf : t.scene.IsForest) (hrest : t.AtRest) (hc : t.scene.Comparable)
    (selection : List NodeId) (context : Context α) : documentAfter t selection context = t := by
  cases hr : Roots.find (Host.scene t) selection context.options with
  | error e => rw [documentAfter, inPlace_of_error hr]
  | ok r =>
    rw [documentAfter_of_find hr]
    exact (measure_restores hf hrest hc context r).1

theorem eq_of_ofSelection_eq_ok (hf : t.scene.IsForest) (hrest : t.AtRest)
    (hc : t.scene.Comparable) {selection : List NodeId} {context : Context α}
    {after : ElasticScene α} {e : Export α}
    (h : ofSelection t selection context = .ok (after, e)) : after = t := by
  have hafter := documentAfter_eq hf hrest hc selection context
  rwa [documentAfter, inPlace_of_ofSelection_ok h] at hafter

/-- An export finds nothing, or it gives the document back as it was and tells of no drift. -/
theorem ofSelection_restores (hf : t.scene.IsForest) (hrest : t.AtRest) (hc : t.scene.Comparable)
    (selection : List NodeId) (context : Context α) :
    ofSelection t selection context = .error .nothingToExport ∨
      ∃ e, ofSelection t selection context = .ok (t, e) ∧ e.drift = none := by
  cases hr : Roots.find (Host.scene t) selection context.options with
  | error e =>
    obtain rfl := Roots.find_error hr
    exact .inl (ofSelection_of_error hr)
  | ok roots =>
    obtain ⟨hdoc, hdrift⟩ := measure_restores hf hrest hc context roots
    refine .inr ⟨compile t.scene context (measure t context roots).2 roots, ?_, hdrift⟩
    rw [ofSelection_of_find hr, hdoc]
    rfl

end Export

/-! ### Doubles -/

/-- A double is the same as itself unless it is a NaN. -/
theorem Scalar.same_self_iff (x : Float) : same x x = true ↔ x.isNaN = false := by
  have hunpacked (a : Float.Model.UnpackedFloat) : a.beq a = !a.isNaN := by
    cases a with
    | notANumber => rfl
    | infinity s => cases s <;> rfl
    | zero s => rfl
    | finite s m e h =>
      have hsame : (compare e e).then (compare m m) = .eq := by
        simp only [Std.ReflCmp.compare_self, Ordering.then_self]
      cases s with
      | positive =>
        show (some ((compare e e).then (compare m m)) == some .eq) = true
        rw [hsame]
        rfl
      | negative =>
        show (some ((compare e e).then (compare m m)).swap == some .eq) = true
        rw [hsame]
        rfl
  have h : (x == x) = !x.isNaN := hunpacked _
  simp [same, h]

/-- No number of the bounds is a NaN. -/
def Bounds.HasNoNaN (b : Bounds Float) : Prop :=
  b.x.isNaN = false ∧ b.y.isNaN = false ∧ b.width.isNaN = false ∧ b.height.isNaN = false

instance (b : Bounds Float) : Decidable b.HasNoNaN :=
  inferInstanceAs (Decidable (_ ∧ _ ∧ _ ∧ _))

theorem Bounds.HasNoNaN.same_self {b : Bounds Float} (h : b.HasNoNaN) : b.same b = true := by
  simp only [same_self_iff, Scalar.same_self_iff]
  exact h

namespace Export

section
variable {δ : Type} [Host δ Float]

/-- A description goes through its stages, and each of them may fail. -/
theorem describe_eq (doc : δ) (settings : String) :
    describe doc settings = (do
      let context ← contextOfText settings
      let (after, e) ← (ofSelection doc [] context).mapError ExportError.selection
      return (after, e.toJson)) := by
  unfold describe describeInPlace ofSelection
  cases contextOfText settings with
  | error why => rfl
  | ok context =>
    simp only [bind, Except.bind]
    cases inPlace doc [] context with
    | mk after result => cases result <;> rfl

theorem describe_eq_ok {doc doc' : δ} {settings : String} {json : Json}
    (h : describe doc settings = .ok (doc', json)) :
    ∃ context e, ofSelection doc [] context = .ok (doc', e) ∧ json = e.toJson := by
  rw [describe_eq] at h
  obtain ⟨context, _, h⟩ := bind_eq_ok h
  obtain ⟨⟨after, e⟩, ho, h⟩ := bind_eq_ok h
  obtain ⟨rfl, rfl⟩ := Prod.mk.inj (Except.ok.inj h)
  exact ⟨context, e, mapError_eq_ok ho, rfl⟩

/-- A description leaves the document alone, or as an export with some context leaves it. -/
theorem describeInPlace_cases (doc : δ) (settings : String) :
    (describeInPlace doc settings).1 = doc ∨
      ∃ context, (describeInPlace doc settings).1 = documentAfter doc [] context := by
  unfold describeInPlace
  cases contextOfText settings with
  | error why => exact .inl rfl
  | ok context => exact .inr ⟨context, rfl⟩

end

/-- For every document at rest without a NaN in its bounds, and every selection and context: an
export finds nothing or gives an export without drift, and either way the document is afterwards
just as it was. So a second export gives what the first one gave. The same goes for a description,
whether it fails or not. -/
theorem export_round_trip {t : ElasticScene Float} (hbuilt : t.Built) (hrest : t.AtRest)
    (hnan : ∀ id n, t.scene.node? id = some n → n.bounds.HasNoNaN) :
    (∀ selection context,
      documentAfter t selection context = t ∧
      (ofSelection t selection context = .error .nothingToExport ∨
        ∃ e, ofSelection t selection context = .ok (t, e) ∧ e.drift = none) ∧
      ofSelection (documentAfter t selection context) selection context =
        ofSelection t selection context) ∧
    ∀ settings, (describeInPlace t settings).1 = t ∧
      ∀ t' json, describe t settings = .ok (t', json) →
        t' = t ∧ describe t' settings = .ok (t', json) := by
  have hc : t.scene.Comparable := fun id n hn => (hnan id n hn).same_self
  constructor
  · intro selection context
    have hafter := documentAfter_eq hbuilt.isForest hrest hc selection context
    refine ⟨hafter, ofSelection_restores hbuilt.isForest hrest hc selection context, ?_⟩
    rw [hafter]
  · refine fun settings => ⟨?_, fun t' json h => ?_⟩
    · rcases describeInPlace_cases t settings with hsame | ⟨context, hafter⟩
      · exact hsame
      · rw [hafter, documentAfter_eq hbuilt.isForest hrest hc]
    · obtain ⟨context, e, ho, _⟩ := describe_eq_ok h
      obtain rfl := eq_of_ofSelection_eq_ok hbuilt.isForest hrest hc ho
      exact ⟨rfl, h⟩

/-- An artboard that stretches with the artboard it stands in. -/
def nestedBoards : ElasticScene Float :=
  (ElasticScene.empty.insert none
    { name := "Outer", kind := .artboard, bounds := ⟨0.1, 0.2, 320.3, 240.7⟩ }).insert (some 0)
    { name := "Inner", kind := .artboard, bounds := ⟨10.1, 20.2, 30.3, 40.4⟩,
      constraints := { horizontal := .stretch, vertical := .bottom } }

theorem built_nestedBoards : nestedBoards.Built :=
  (ElasticScene.Built.empty.insert none _ (by simp)).insert (some 0) _ (by decide)

/-- Both boards are exported and probed, and then stand where they stood. -/
theorem nestedBoards_round_trip :
    nestedBoards.Built ∧ nestedBoards.AtRest ∧
    (∀ id n, nestedBoards.scene.node? id = some n → n.bounds.HasNoNaN) ∧
    documentAfter nestedBoards [] wholeContext = nestedBoards ∧
    ∃ e, ofSelection nestedBoards [] wholeContext = .ok (nestedBoards, e) ∧ e.drift = none ∧
      e.roots.map (·.name) = ["Outer", "Inner"] ∧ e.measurements.toList.map (·.1) = [0, 1] := by
  have hnan : ∀ id n, nestedBoards.scene.node? id = some n → n.bounds.HasNoNaN :=
    Scene.forall_bounds_insert (by decide) (by decide) <|
      Scene.forall_bounds_insert (by simp) (by decide) Scene.forall_bounds_empty
  obtain ⟨hafter, hexport, -⟩ :=
    (export_round_trip built_nestedBoards rfl hnan).1 [] wholeContext
  have hfound : (ofSelection nestedBoards [] wholeContext).toOption.map
      (fun p => (p.2.roots.map (·.name), p.2.measurements.toList.map (·.1))) =
        some (["Outer", "Inner"], [0, 1]) := by
    decide +kernel
  obtain ⟨⟨after, e⟩, h, hfound⟩ := eq_ok_of_map_toOption hfound
  obtain ⟨hnames, hprobed⟩ := Prod.mk.inj hfound
  rcases hexport with hnone | ⟨e', hsome, hdrift⟩
  · rw [h] at hnone
    cases hnone
  · obtain ⟨rfl, rfl⟩ := Prod.mk.inj (Except.ok.inj (h.symm.trans hsome))
    exact ⟨built_nestedBoards, rfl, hnan, hafter, e, h, hdrift, hnames, hprobed⟩

end Export
end DesignLayout
