import DesignLayout.Export
import DesignLayout.Proofs.Forest

/-! The stages of an export, one after the other.

The roots are found in the document as it is given, and when there are none nothing else happens;
the measurements are taken, and the roots are compiled from the document that the probe leaves
behind. `ofSelection_of_find` and `ofSelection_eq_ok` read an export's stages off its result, and
`inPlace_of_ofSelection_error` says that a document from which nothing is exported is not touched. -/
namespace DesignLayout

theorem bind_eq_ok {ε β γ : Type} {x : Except ε β} {f : β → Except ε γ} {c : γ}
    (h : x >>= f = .ok c) : ∃ b, x = .ok b ∧ f b = .ok c := by
  cases x with
  | error e => cases h
  | ok b => exact ⟨b, rfl, h⟩

theorem mapError_eq_ok {ε ε' β : Type} {f : ε → ε'} {x : Except ε β} {b : β}
    (h : x.mapError f = .ok b) : x = .ok b := by
  cases x with
  | error e => cases h
  | ok b' => exact congrArg _ (Except.ok.inj h)

theorem eq_ok_of_map_toOption {ε β γ : Type} {x : Except ε β} {f : β → γ} {c : γ}
    (h : x.toOption.map f = some c) : ∃ b, x = .ok b ∧ f b = c := by
  cases x with
  | error e => cases h
  | ok b => exact ⟨b, rfl, Option.some.inj h⟩

variable {α δ : Type} {selection : List NodeId}

theorem Roots.find_error {s : Scene α} {o : Options} {e : SelectionError}
    (h : find s selection o = .error e) : e = .nothingToExport := by
  unfold find at h
  extract_lets searched named at h
  by_cases hempty : named.isEmpty = true
  · rw [if_pos hempty] at h
    exact (Except.error.inj h).symm
  · rw [if_neg hempty] at h
    cases h

/-- A search that succeeds names the candidates, one after the other, and finds the artboards that
they stand in. -/
theorem Roots.eq_of_find {s : Scene α} {o : Options} {r : Roots} (h : find s selection o = .ok r) :
    r.named = (candidatesAll s o (s.branches (if selection.isEmpty then s.topLevel
      else selection))).foldl (fun named c => put c.1 c.2 named) [] ∧
    r.artboards = (r.named.filterMap (s.enclosingArtboard? ·.2)).eraseDups := by
  unfold find at h
  extract_lets searched named at h
  split at h
  · cases h
  · obtain rfl := Except.ok.inj h
    exact ⟨rfl, rfl⟩

/-! ### The artboards that are probed -/

/-- The elements that are left when duplicates are erased come once each. -/
theorem nodup_eraseDups {β : Type} [BEq β] [LawfulBEq β] (l : List β) : l.eraseDups.Nodup := by
  induction h : l.length using Nat.strongRecOn generalizing l with
  | _ length ih =>
    cases l with
    | nil => simp
    | cons b rest =>
      rw [List.eraseDups_cons, List.nodup_cons]
      refine ⟨?_, ih _ ?_ _ rfl⟩
      · simp [List.mem_eraseDups]
      · rw [← h, List.length_cons]
        exact Nat.lt_succ_of_le (List.length_filter_le ..)

theorem Scene.lt_size_of_artboardWithin? {s : Scene α} {levels : Nat} {id a : NodeId}
    (h : s.artboardWithin? levels id = some a) : a < s.size := by
  induction levels generalizing id with
  | zero => cases h
  | succ levels ih =>
    rw [artboardWithin?] at h
    cases hn : s.node? id with
    | none =>
      rw [hn] at h
      cases h
    | some n =>
      simp only [hn] at h
      split at h
      · obtain rfl := Option.some.inj h
        exact lt_size_of_node? hn
      · obtain ⟨p, _, hp⟩ := Option.bind_eq_some_iff.mp h
        exact ih hp

/-- Every artboard that is probed is in the scene, and none is probed twice. -/
theorem Roots.artboards_of_find {s : Scene α} {o : Options} {r : Roots}
    (h : find s selection o = .ok r) : (∀ a ∈ r.artboards, a < s.size) ∧ r.artboards.Nodup := by
  rw [(eq_of_find h).2]
  refine ⟨fun a ha => ?_, nodup_eraseDups _⟩
  obtain ⟨c, _, hc⟩ := List.mem_filterMap.mp (List.mem_eraseDups.mp ha)
  exact Scene.lt_size_of_artboardWithin? hc

namespace Export
variable [Scalar α] [Host δ α]

/-- The document as an export leaves it, whatever came of the export. -/
def documentAfter (doc : δ) (selection : List NodeId) (context : Context α) : δ :=
  (inPlace doc selection context).1

theorem inPlace_of_error {doc : δ} {context : Context α} {e : SelectionError}
    (h : Roots.find (Host.scene doc) selection context.options = .error e) :
    inPlace doc selection context = (doc, .error e) := by
  rw [inPlace, h]

theorem inPlace_of_find {doc : δ} {context : Context α} {r : Roots}
    (h : Roots.find (Host.scene doc) selection context.options = .ok r) :
    inPlace doc selection context =
      ((measure doc context r).1,
        .ok (compile (Host.scene (measure doc context r).1) context (measure doc context r).2 r)) := by
  rw [inPlace, h]

theorem ofSelection_of_error {doc : δ} {context : Context α} {e : SelectionError}
    (h : Roots.find (Host.scene doc) selection context.options = .error e) :
    ofSelection doc selection context = .error e := by
  rw [ofSelection, inPlace_of_error h]
  rfl

theorem ofSelection_of_find {doc : δ} {context : Context α} {r : Roots}
    (h : Roots.find (Host.scene doc) selection context.options = .ok r) :
    ofSelection doc selection context =
      .ok ((measure doc context r).1,
        compile (Host.scene (measure doc context r).1) context (measure doc context r).2 r) := by
  rw [ofSelection, inPlace_of_find h]
  rfl

/-- Where there is no export, the document was not touched. -/
theorem inPlace_of_ofSelection_error {doc : δ} {context : Context α} {e : SelectionError}
    (h : ofSelection doc selection context = .error e) :
    inPlace doc selection context = (doc, .error e) := by
  cases hr : Roots.find (Host.scene doc) selection context.options with
  | error err =>
    rw [ofSelection_of_error hr] at h
    rw [inPlace_of_error hr, Except.error.inj h]
  | ok r =>
    rw [ofSelection_of_find hr] at h
    cases h

theorem inPlace_of_ofSelection_ok {doc after : δ} {context : Context α} {e : Export α}
    (h : ofSelection doc selection context = .ok (after, e)) :
    inPlace doc selection context = (after, .ok e) := by
  rw [ofSelection] at h
  generalize inPlace doc selection context = made at h ⊢
  obtain ⟨doc', _ | e'⟩ := made
  · cases h
  · obtain ⟨rfl, rfl⟩ := Prod.mk.inj (Except.ok.inj h)
    rfl

theorem documentAfter_of_find {doc : δ} {context : Context α} {r : Roots}
    (h : Roots.find (Host.scene doc) selection context.options = .ok r) :
    documentAfter doc selection context = (measure doc context r).1 := by
  rw [documentAfter, inPlace_of_find h]

/-- Whatever an export gives was compiled from the roots that were found before the probe. -/
theorem ofSelection_eq_ok {doc doc' : δ} {context : Context α} {e : Export α}
    (h : ofSelection doc selection context = .ok (doc', e)) :
    ∃ r, Roots.find (Host.scene doc) selection context.options = .ok r ∧
      measure doc context r = (doc', e.measurements) ∧
      e = compile (Host.scene doc') context e.measurements r := by
  cases hr : Roots.find (Host.scene doc) selection context.options with
  | error err =>
    rw [ofSelection_of_error hr] at h
    cases h
  | ok r =>
    rw [ofSelection_of_find hr] at h
    obtain ⟨rfl, rfl⟩ := Prod.mk.inj (Except.ok.inj h)
    exact ⟨r, rfl, rfl, rfl⟩

/-- What an export gives away: its roots, its requests and its diagnostics, or its error. -/
def outcome (doc : δ) (selection : List NodeId) (context : Context α) :
    Except SelectionError (List (CompiledRoot α) × Manifest α × List Diagnostic) :=
  (ofSelection doc selection context).map fun p => (p.2.roots, p.2.manifest, p.2.diagnostics)

theorem outcome_of_error {doc : δ} {context : Context α} {e : SelectionError}
    (h : Roots.find (Host.scene doc) selection context.options = .error e) :
    outcome doc selection context = .error e := by
  rw [outcome, ofSelection_of_error h]
  rfl

theorem outcome_of_find {doc : δ} {context : Context α} {r : Roots}
    (h : Roots.find (Host.scene doc) selection context.options = .ok r) :
    outcome doc selection context =
      let (after, m) := measure doc context r
      let (roots, ledger) := (Compiler.roots ⟨Host.scene after, context, m⟩
        ((Host.scene after).branches r.ids)).run Ledger.empty
      .ok (roots, ledger.manifest, ledger.diagnostics) := by
  rw [outcome, ofSelection_of_find h]
  rfl

/-- An unscaled export, also of what is not marked. -/
def wholeContext : Context Float :=
  { scale := 1.0, folder := "out", options := { onlyMarked := false }, thresholds := .standard }

end Export
end DesignLayout
