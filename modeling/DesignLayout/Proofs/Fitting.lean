import DesignLayout.Json.Record
import DesignLayout.Json.Token
import DesignLayout.Proofs.Doubles
import DesignLayout.Proofs.Records

/-! Values of a bounded depth whose numbers are finite.

Such a value is said to fit (`Source.Fits`). What is read of one comes from values that fit as well:
an object or a list has one level more than its fields or items (`of_readObject`, `of_readRecord`,
`of_readList`), and a number is finite (`of_readReal`). -/
namespace DesignLayout.Json

/-! ### Values whose numbers are finite -/

/-- All numbers of the value are finite, and arrays and objects stand at most so many levels within
one another, what stands too deep to be read left out. -/
inductive Source.Fits : Nat → Source → Prop
  | null {levels : Nat} : Fits levels .null
  | bool {levels : Nat} (value : Bool) : Fits levels (.bool value)
  | whole {levels : Nat} {n : Int} (h : Token.fitsInteger n = true) : Fits levels (.whole n)
  | real {levels : Nat} {x : Float} (h : x.isFinite = true) : Fits levels (.real x)
  | text {levels : Nat} (s : String) : Fits levels (.text s)
  | array {levels : Nat} {items : List Source} (h : ∀ v ∈ items, Fits levels v) :
    Fits (levels + 1) (.array items)
  | object {levels : Nat} {fields : List (Option String × Source)}
    (h : ∀ f ∈ fields, Fits levels f.2) : Fits (levels + 1) (.object fields)
  | unreadable {levels : Nat} : Fits levels .unreadable
  | tooDeep {levels : Nat} (v : Source) : Fits levels (.tooDeep v)

/-! ### Parts that came out whole -/

namespace Parts

variable {β γ : Type}

theorem map_eq_all {f : β → γ} {x : Parts β} {c : γ} :
    f <$> x = all c ↔ ∃ b, x = all b ∧ f b = c := by
  constructor
  · intro h
    cases x with
    | all b => exact ⟨b, rfl, all.inj h⟩
    | fault place why => cases h
  · rintro ⟨b, rfl, rfl⟩
    rfl

theorem seq_eq_all {f : Parts (β → γ)} {x : Parts β} {c : γ} :
    f <*> x = all c ↔ ∃ g b, f = all g ∧ x = all b ∧ g b = c := by
  constructor
  · intro h
    cases f with
    | all g =>
      cases x with
      | all b => exact ⟨g, b, rfl, rfl, all.inj h⟩
      | fault place why => cases h
    | fault p v =>
      cases x with
      | all b => cases h
      | fault q w =>
        have hcombine : (if q < p then fault q w else fault p v : Parts γ) = all c := h
        split at hcombine <;> cases hcombine
  · rintro ⟨g, b, rfl, rfl, rfl⟩
    rfl

theorem placed_eq_all {place : Nat} {e : Except Refusal β} {b : β} (h : placed place e = all b) :
    e = .ok b := by
  cases e with
  | ok b' => exact congrArg Except.ok (all.inj h)
  | error why => cases h

theorem toExcept_seqRight_eq_ok {p : Parts Unit} {x : Parts β} {b : β}
    (h : (p *> x).toExcept = .ok b) : x = all b := by
  cases p with
  | all _ =>
    cases x with
    | all b' => exact congrArg all (Except.ok.inj h)
    | fault place why => cases h
  | fault p v =>
    cases x with
    | all b' => cases h
    | fault q w =>
      have hcombine : (if q < p then fault q w else fault p v : Parts β).toExcept = .ok b := h
      split at hcombine <;> cases hcombine

end Parts

theorem mem_of_lookup {κ γ : Type} [BEq κ] [LawfulBEq κ] {key : κ} {rows : List (κ × γ)} {c : γ}
    (h : rows.lookup key = some c) : (key, c) ∈ rows := by
  obtain ⟨l, rest, rfl, -⟩ := List.lookup_eq_some_iff.mp h
  simp

/-! ### Records of fields with a property -/

namespace Record

variable {β : Type} {P : Source → Prop} {r : Record} {name : String} {read : Reader β} {b : β}

/-- All values that were found have the property. -/
structure All (P : Source → Prop) (r : Record) : Prop where
  fields : ∀ f ∈ r.fields, P f.2.2
  others : ∀ f ∈ r.others, P f.2

theorem All.collect (names : List (List String)) (keeps : Source → Bool)
    {fields : List (Option String × Source)} (hfields : ∀ f ∈ fields, P f.2) (r : Record)
    (hr : r.All P) : (collect names keeps r fields).1.All P := by
  induction fields generalizing r with
  | nil => exact hr
  | cons f rest ih =>
    obtain ⟨name, v⟩ := f
    have hv : P v := hfields _ List.mem_cons_self
    have hrest : ∀ f ∈ rest, P f.2 := fun f hf => hfields f (List.mem_cons_of_mem _ hf)
    cases name with
    | none => exact hr
    | some name =>
      rw [Record.collect]
      split
      · dsimp only
        split
        · exact hr
        · refine ih hrest _ ⟨fun f hf => ?_, hr.others⟩
          rcases List.mem_cons.mp hf with rfl | hf
          · exact hv
          · exact hr.fields f hf
      · split
        · refine ih hrest _ ⟨hr.fields, fun f hf => ?_⟩
          rcases List.mem_append.mp hf with hf | hf
          · exact hr.others f hf
          · rw [List.mem_singleton.mp hf]
            exact hv
        · exact hr

theorem All.ofList (names : List (List String)) {items : List Source} (h : ∀ v ∈ items, P v) :
    (ofList names items).1.All P := by
  refine ⟨fun f hf => ?_, fun f hf => by cases hf⟩
  obtain ⟨⟨⟨known, v⟩, place⟩, hmem, rfl⟩ := List.mem_map.mp hf
  exact h v (List.of_mem_zip (List.fst_mem_of_mem_zipIdx hmem)).2

/-- A field that was read had a value. -/
theorem All.of_required (hr : r.All P) (h : r.required name read = .all b) :
    ∃ v, P v ∧ read v = .ok b := by
  rw [Record.required] at h
  split at h
  · exact ⟨_, hr.fields _ (mem_of_lookup ‹_›), Parts.placed_eq_all h⟩
  · cases h

/-- A field that was read had a value, or there was none. -/
theorem All.of_orElse (hr : r.All P) {default : β} (h : r.orElse name default read = .all b) :
    b = default ∨ ∃ v, P v ∧ read v = .ok b := by
  rw [Record.orElse] at h
  split at h
  · exact .inr ⟨_, hr.fields _ (mem_of_lookup ‹_›), Parts.placed_eq_all h⟩
  · exact .inl (Parts.all.inj h).symm

theorem All.of_optional (hr : r.All P) {o : Option β}
    (h : r.orElse name none (readOptional read) = .all o) :
    ∀ b ∈ o, ∃ v, P v ∧ read v = .ok b := by
  rintro b rfl
  rcases hr.of_orElse h with heq | ⟨v, hv, hread⟩
  · cases heq
  · refine ⟨v, hv, ?_⟩
    rw [readOptional.eq_def] at hread
    split at hread
    · cases hread
    · cases hb : read _ with
      | error why =>
        rw [hb] at hread
        cases hread
      | ok b' =>
        rw [hb] at hread
        cases hread
        rfl

theorem of_rest (h : r.rest read = .all b) : read (.object r.others) = .ok b :=
  Parts.placed_eq_all h

end Record

variable {β : Type} {names : List (List String)} {body : Record → Parts β} {v : Source} {b : β}
  {levels : Nat}

/-- What is read as an object has one level more than the fields that it is read from. -/
theorem of_readObject (hv : v.Fits levels) (h : readObject names body v = .ok b) :
    ∃ inner r, levels = inner + 1 ∧ r.All (Source.Fits inner) ∧ body r = .all b := by
  cases hv with
  | @object inner fields hfields =>
    have hr : Record.All (Source.Fits inner) ⟨[], [], 0⟩ := ⟨nofun, nofun⟩
    exact ⟨inner, _, rfl, hr.collect names Source.isSound hfields,
      Parts.toExcept_seqRight_eq_ok h⟩
  | _ => cases h

theorem of_readRecord (hv : v.Fits levels) (h : readRecord names body v = .ok b) :
    ∃ inner r, levels = inner + 1 ∧ r.All (Source.Fits inner) ∧ body r = .all b := by
  cases hv with
  | @object inner fields hfields =>
    have hr : Record.All (Source.Fits inner) ⟨[], [], 0⟩ := ⟨nofun, nofun⟩
    exact ⟨inner, _, rfl, hr.collect names Source.passes hfields,
      Parts.toExcept_seqRight_eq_ok h⟩
  | @array inner items hitems =>
    exact ⟨inner, _, rfl, Record.All.ofList names hitems, Parts.toExcept_seqRight_eq_ok h⟩
  | _ => cases h

/-! ### How deep values go -/

theorem Source.depthOfFields_le {fields : List (Option String × Source)} :
    depthOfFields fields ≤ levels ↔ ∀ f ∈ fields, f.2.depth ≤ levels := by
  induction fields with
  | nil => simp [depthOfFields]
  | cons f rest ih => rw [depthOfFields, Nat.max_le, ih, List.forall_mem_cons]

theorem Source.depthOfItems_le {items : List Source} :
    depthOfItems items ≤ levels ↔ ∀ v ∈ items, v.depth ≤ levels := by
  induction items with
  | nil => simp [depthOfItems]
  | cons v rest ih => rw [depthOfItems, Nat.max_le, ih, List.forall_mem_cons]

/-- An object is one level deeper than its fields. -/
theorem depth_object_le {fs : List (String × Json)}
    (h : (Source.ofJson (.object fs)).depth ≤ levels) :
    ∃ inner, levels = inner + 1 ∧ ∀ f ∈ fs, (Source.ofJson f.2).depth ≤ inner := by
  rw [Source.ofJson, Source.depth, Source.ofFields_eq] at h
  obtain ⟨inner, rfl⟩ := Nat.exists_eq_add_of_le' (Nat.le_of_add_left_le h)
  rw [Nat.add_le_add_iff_right, Source.depthOfFields_le, List.forall_mem_map] at h
  exact ⟨inner, rfl, h⟩

theorem depth_array_le {items : List Json} (h : (Source.ofJson (.array items)).depth ≤ levels) :
    ∃ inner, levels = inner + 1 ∧ ∀ v ∈ items, (Source.ofJson v).depth ≤ inner := by
  rw [Source.ofJson, Source.depth, Source.ofItems_eq] at h
  obtain ⟨inner, rfl⟩ := Nat.exists_eq_add_of_le' (Nat.le_of_add_left_le h)
  rw [Nat.add_le_add_iff_right, Source.depthOfItems_le, List.forall_mem_map] at h
  exact ⟨inner, rfl, h⟩

theorem isFinite_ofInt {n : Int} (h : Token.fitsInteger n = true) :
    (Float.ofInt n).isFinite = true := by
  simp only [Token.fitsInteger, Bool.and_eq_true, decide_eq_true_eq] at h
  exact Decimal.Binary64.isFinite_ofInt (by omega)

theorem of_readReal {x : Float} (hv : v.Fits levels) (h : readReal v = .ok x) :
    x.isFinite = true := by
  cases hv with
  | whole hfits => cases h; exact isFinite_ofInt hfits
  | real hfinite => cases h; exact hfinite
  | _ => cases h

theorem of_readCount {n : Nat} (h : readCount v = .ok n) : n < 0x100000000 := by
  cases v with
  | whole k =>
    rw [readCount] at h
    split at h
    · cases h
      omega
    · cases h
  | _ => cases h

theorem mem_mapM {read : Reader β} {items : List Source} {bs : List β}
    (h : items.mapM read = .ok bs) : ∀ b ∈ bs, ∃ v ∈ items, read v = .ok b := by
  induction items generalizing bs with
  | nil =>
    cases h
    nofun
  | cons item rest ih =>
    rw [List.mapM_cons] at h
    cases hitem : read item with
    | error why =>
      rw [hitem] at h
      cases h
    | ok b =>
      cases hrest : rest.mapM read with
      | error why =>
        rw [hitem, hrest] at h
        cases h
      | ok bs' =>
        rw [hitem, hrest] at h
        cases h
        intro b' hb'
        rcases List.mem_cons.mp hb' with rfl | hb'
        · exact ⟨item, List.mem_cons_self, hitem⟩
        · obtain ⟨v, hv, hread⟩ := ih hrest b' hb'
          exact ⟨v, List.mem_cons_of_mem _ hv, hread⟩

/-- What is read as a list has one level more than what its items are read from. -/
theorem of_readList {read : Reader β} {bs : List β} (hv : v.Fits levels)
    (h : readList read v = .ok bs) :
    ∃ inner, levels = inner + 1 ∧ ∀ b ∈ bs, ∃ w, w.Fits inner ∧ read w = .ok b := by
  cases hv with
  | @array inner items hitems =>
    refine ⟨inner, rfl, fun b hb => ?_⟩
    obtain ⟨w, hw, hread⟩ := mem_mapM h b hb
    exact ⟨w, hitems w hw, hread⟩
  | _ => cases h

theorem Record.All.finite_required {r : Record} {name : String} {x : Float}
    (hr : r.All (Source.Fits levels)) (h : r.required name readReal = .all x) :
    x.isFinite = true := by
  obtain ⟨v, hv, hread⟩ := hr.of_required h
  exact of_readReal hv hread

theorem Record.All.finite_optional {r : Record} {name : String} {o : Option Float}
    (hr : r.All (Source.Fits levels)) (h : r.orElse name none (readOptional readReal) = .all o) :
    ∀ x ∈ o, x.isFinite = true := by
  intro x hx
  obtain ⟨v, hv, hread⟩ := hr.of_optional h x hx
  exact of_readReal hv hread

/-! ### Written fields that fit -/

theorem Source.Fits.depth_le (h : v.Fits levels) : v.depth ≤ levels := by
  induction h with
  | array _ ih => exact Nat.succ_le_succ (Source.depthOfItems_le.mpr ih)
  | object _ ih => exact Nat.succ_le_succ (Source.depthOfFields_le.mpr ih)
  | _ => exact Nat.zero_le _

/-- An object fits one level more than its fields. -/
theorem fits_object {fs : List (String × Json)}
    (h : ∀ f ∈ fs, (Source.ofJson f.2).Fits levels) :
    (Source.ofJson (.object fs)).Fits (levels + 1) := by
  rw [Source.ofJson, Source.ofFields_eq]
  exact .object (List.forall_mem_map.mpr h)

theorem fits_array {items : List Json} (h : ∀ v ∈ items, (Source.ofJson v).Fits levels) :
    (Source.ofJson (.array items)).Fits (levels + 1) := by
  rw [Source.ofJson, Source.ofItems_eq]
  exact .array (List.forall_mem_map.mpr h)

end DesignLayout.Json
