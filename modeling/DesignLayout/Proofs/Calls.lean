import DesignLayout.Delivery
import DesignLayout.Proofs.Exporting

/-! The calls that a delivery makes.

A delivery goes on whatever a call answers, so its calls can be told from the export alone
(`Export.calls`). That they are the calls of every run is said of a run that takes them down: in any
lawful monad it does what the plain run does, and its log is `Export.calls` (`records_deliver`). -/
namespace DesignLayout

/-- A call of a delivery to its surroundings. -/
inductive Call
  | ensureFolder (name : String)
  | writeText (name text : String)
  | createRenditions (manifest : Manifest Float)

section
variable {m : Type → Type} [Monad m]

/-- Takes a call down before it is made. -/
def Call.taken {β : Type} (call : Call) (answer : m β) : StateT (List Call) m β := do
  modify (· ++ [call])
  liftM answer

/-- An output folder that takes down its calls. -/
def OutputFolder.recorded (out : OutputFolder m) : OutputFolder (StateT (List Call) m) where
  ensureFolder name := Call.taken (.ensureFolder name) (out.ensureFolder name)
  writeText name text := Call.taken (.writeText name text) (out.writeText name text)

/-- A rasterizer that takes down its calls. -/
def Rasterizer.recorded (r : Rasterizer m) : Rasterizer (StateT (List Call) m) where
  createRenditions manifest := Call.taken (.createRenditions manifest) (r.createRenditions manifest)

/-- The first run does what the second one does, and takes down these calls. -/
def Records {β : Type} (calls : List Call) (x : StateT (List Call) m β) (y : m β) : Prop :=
  ∀ log, x.run log = (fun b => (b, log ++ calls)) <$> y

variable [LawfulMonad m]

namespace Records
variable {β γ : Type} {calls calls' : List Call}

theorem pure (b : β) : Records (m := m) [] (Pure.pure b) (Pure.pure b) := by
  intro log
  simp

theorem taken (call : Call) (answer : m β) : Records [call] (call.taken answer) answer := by
  intro log
  simp [Call.taken]

/-- What is called later does not depend on the answers. -/
theorem bind {x : StateT (List Call) m β} {y : m β} {f : β → StateT (List Call) m γ}
    {g : β → m γ} (hx : Records calls x y) (hf : ∀ b, Records calls' (f b) (g b)) :
    Records (calls ++ calls') (x >>= f) (y >>= g) := by
  intro log
  rw [StateT.run_bind, hx log, map_bind, bind_map_left]
  refine bind_congr fun b => ?_
  rw [hf b, List.append_assoc]

/-- What is done with an answer calls nothing. -/
theorem bind_pure {x : StateT (List Call) m β} {y : m β} (hx : Records calls x y) (f : β → γ) :
    Records calls (x >>= fun b => Pure.pure (f b)) (y >>= fun b => Pure.pure (f b)) := by
  have h := hx.bind fun b => pure (m := m) (f b)
  rw [List.append_nil] at h
  exact h

end Records
end

/-! ### The calls of an export -/

/-- The calls that write a root. -/
def CompiledRoot.calls (r : CompiledRoot Float) : List Call :=
  [.ensureFolder r.folder, .writeText r.fileName r.document.text]

/-- The call that hands a batch over; there is none for an empty batch. -/
def Manifest.calls (manifest : Manifest Float) : List Call :=
  if manifest.isEmpty then [] else [.createRenditions manifest]

namespace Export

/-- The calls of a delivery, in their order. -/
def calls (e : Export Float) : List Call :=
  e.roots.flatMap (·.calls) ++ e.manifest.calls

variable {m : Type → Type} [Monad m] [LawfulMonad m] (out : OutputFolder m) (r : Rasterizer m)

theorem calls_eq (e : Export Float) :
    e.calls =
      (e.roots.flatMap fun root =>
        [.ensureFolder root.folder, .writeText root.fileName root.document.toJson.pretty]) ++
      (if e.manifest.requests = [] then [] else [.createRenditions e.manifest]) := by
  have hbatch : e.manifest.isEmpty = true ↔ e.manifest.requests = [] := List.isEmpty_iff
  simp only [calls, Manifest.calls, hbatch]
  rfl

theorem records_writeRoots (roots : List (CompiledRoot Float)) :
    Records (roots.flatMap (·.calls)) (writeRoots out.recorded roots) (writeRoots out roots) := by
  induction roots with
  | nil => exact .pure _
  | cons root rest ih =>
    have hfolder := Records.taken (.ensureFolder root.folder) (out.ensureFolder root.folder)
    have hfile := Records.taken (.writeText root.fileName root.document.text)
      (out.writeText root.fileName root.document.text)
    exact hfolder.bind fun _ => hfile.bind fun _ => ih.bind_pure _

theorem records_rasterize (manifest : Manifest Float) :
    Records manifest.calls (rasterize r.recorded manifest) (rasterize r manifest) := by
  unfold Manifest.calls rasterize
  by_cases hempty : manifest.isEmpty = true
  · simp only [if_pos hempty]
    exact .pure _
  · simp only [if_neg hempty]
    refine (Records.taken (.createRenditions manifest) (r.createRenditions manifest)).bind
      fun answer => ?_
    cases answer <;> exact .pure _

theorem records_deliver (e : Export Float) :
    Records e.calls (e.deliver out.recorded r.recorded) (e.deliver out r) :=
  (records_writeRoots out e.roots).bind fun _ => (records_rasterize r e.manifest).bind_pure _

/-! ### The calls of a whole run -/

section
variable {δ : Type} [Host δ Float] {doc after : δ} {selection : List NodeId}
  {context : Context Float} {e : Export Float}

omit [LawfulMonad m] in
theorem runInPlace_of_error {err : SelectionError}
    (h : ofSelection doc selection context = .error err) :
    runInPlace doc selection context out r = pure (doc, .error err) := by
  rw [runInPlace, inPlace_of_ofSelection_error h]

theorem runInPlace_of_ok (h : ofSelection doc selection context = .ok (after, e)) :
    runInPlace doc selection context out r =
      (fun report => (after, .ok report)) <$> e.deliver out r := by
  rw [runInPlace, inPlace_of_ofSelection_ok h]
  exact bind_pure_comp _ _

theorem run_eq :
    run doc selection context out r =
      (fun p => p.2.map fun report => (p.1, report)) <$> runInPlace doc selection context out r :=
  bind_pure_comp _ _

theorem run_of_error {err : SelectionError} (h : ofSelection doc selection context = .error err) :
    run doc selection context out r = pure (.error err) := by
  rw [run_eq, runInPlace_of_error out r h, map_pure]
  rfl

theorem run_of_ok (h : ofSelection doc selection context = .ok (after, e)) :
    run doc selection context out r = (fun report => .ok (after, report)) <$> e.deliver out r := by
  rw [run_eq, runInPlace_of_ok out r h, Functor.map_map]
  rfl

/-- The calls of a whole run are those of the export. -/
theorem runInPlace_recorded (h : ofSelection doc selection context = .ok (after, e)) :
    (runInPlace doc selection context out.recorded r.recorded).run [] =
      (fun result => (result, e.calls)) <$> runInPlace doc selection context out r := by
  rw [runInPlace_of_ok _ _ h, runInPlace_of_ok _ _ h, StateT.run_map, records_deliver out r e,
    Functor.map_map, Functor.map_map]
  rfl

theorem run_recorded (h : ofSelection doc selection context = .ok (after, e)) :
    (run doc selection context out.recorded r.recorded).run [] =
      (fun result => (result, e.calls)) <$> run doc selection context out r := by
  rw [run_eq, run_eq, StateT.run_map, runInPlace_recorded out r h, Functor.map_map,
    Functor.map_map]

end

end Export
end DesignLayout
