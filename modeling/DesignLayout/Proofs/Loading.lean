import DesignLayout.Proofs.Fitting
import DesignLayout.Proofs.Showing

/-! What loading a snapshot comes to.

When no record has a fault after those before it, the branches of the loaded scene show the entries,
record by record (`Snapshot.Loaded`); otherwise the first fault is reported.
`Snapshot.loads_all_or_first_fault` says so for every forest of entries. The kind of an entry is
read from a tag, and case, hyphens, underscores and spaces do not matter to the known kinds
(`Kind.ofTag_eq_iff_spells`, `Snapshot.kind_of_read`). -/
namespace DesignLayout

/-! ### Kinds that are read -/

namespace Kind

/-- The known kinds behind their plain spellings. -/
def plainSpellings : List (String × Kind) :=
  [("artboard", artboard), ("group", group), ("repeatgrid", repeatGrid),
   ("booleangroup", booleanGroup), ("symbolinstance", symbolInstance), ("rectangle", rectangle),
   ("ellipse", ellipse), ("line", line), ("path", path), ("text", text)]

/-- The plain spelling is left of the tag when its hyphens, underscores and spaces are taken out and
its ASCII letters are lowered. -/
def Spells (tag plain : String) : Prop :=
  (tag.toList.filter fun c => c ∉ ['-', '_', ' ']).map Char.toLower = plain.toList

theorem spells_iff {tag plain : String} : Spells tag plain ↔ plainTag tag = plain.toList := by
  have hkept : (fun c : Char => decide (c ∉ ['-', '_', ' '])) =
      fun c => !(c == '-' || c == '_' || c == ' ') := by
    funext c
    rw [Bool.eq_iff_iff]
    simp [and_assoc]
  rw [Spells, plainTag, hkept]

theorem plainTag_tag : ∀ p ∈ plainSpellings, p.2 ∈ known ∧ plainTag p.2.tag = p.1.toList := by
  decide

theorem plainTag_injOn : ∀ j ∈ known, ∀ k ∈ known, plainTag j.tag = plainTag k.tag → j = k := by
  decide

theorem ofTag_eq_iff {tag : String} {k : Kind} (hk : k ∈ known) :
    ofTag tag = k ↔ plainTag tag = plainTag k.tag := by
  unfold ofTag
  cases hfound : known.find? fun k => plainTag k.tag == plainTag tag with
  | none =>
    rw [List.find?_eq_none] at hfound
    refine iff_of_false ?_ fun h => hfound k hk (by simp [h])
    rintro rfl
    simp [known] at hk
  | some j =>
    have hj := List.mem_of_find?_eq_some hfound
    have hsame : plainTag j.tag = plainTag tag := by simpa using List.find?_some hfound
    rw [Option.getD_some, ← hsame]
    exact ⟨fun h => h ▸ rfl, plainTag_injOn j hj k hk⟩

/-- A tag stands for a known kind just when it comes to the plain spelling of that kind. -/
theorem ofTag_eq_iff_spells {tag plain : String} {k : Kind} (h : (plain, k) ∈ plainSpellings) :
    ofTag tag = k ↔ Spells tag plain := by
  obtain ⟨hk, hplain⟩ := plainTag_tag _ h
  rw [ofTag_eq_iff hk, hplain, spells_iff]

theorem ofTag_of_unknown {tag : String} (h : ∀ p ∈ plainSpellings, ¬ Spells tag p.1) :
    ofTag tag = other tag := by
  have hspellings : plainSpellings.map Prod.snd = known := rfl
  have hnone : (known.find? fun k => plainTag k.tag == plainTag tag) = none := by
    rw [List.find?_eq_none, ← hspellings]
    intro k hk hsame
    obtain ⟨p, hp, rfl⟩ := List.mem_map.mp hk
    refine h p hp (spells_iff.mpr ?_)
    rw [← (plainTag_tag p hp).2, beq_iff_eq.mp hsame]
  rw [ofTag, hnone, Option.getD_none]

end Kind

namespace Json
variable {β γ : Type} {names : List (List String)} {body : Record → Parts β}
  {part : Record → Parts γ} {v : Source} {b : β} {Q : γ → Prop}

theorem Parts.of_seqRight {fault : Parts Unit} {x : Parts β} {y : Parts γ}
    (h : (fault *> x).toExcept = .ok b) (hpart : x = .all b → ∃ c, y = .all c ∧ Q c) :
    ∃ c, (fault *> y).toExcept = .ok c ∧ Q c := by
  have hx := Parts.toExcept_seqRight_eq_ok h
  obtain ⟨c, rfl, hc⟩ := hpart hx
  subst hx
  cases fault with
  | all _ => exact ⟨c, rfl, hc⟩
  | fault place why => cases h

/-- Where a record is read, a part of it can be read by itself. -/
theorem readRecord_part (h : readRecord names body v = .ok b)
    (hpart : ∀ r, body r = .all b → ∃ c, part r = .all c ∧ Q c) :
    ∃ c, readRecord names part v = .ok c ∧ Q c := by
  cases v with
  | object fields => exact Parts.of_seqRight h (hpart _)
  | array items => exact Parts.of_seqRight h (hpart _)
  | _ => cases h

end Json

namespace Snapshot

/-- Reads what an entry gives as its kind. -/
def Entry.readTag : Json.Reader String :=
  Json.readRecord [["id", "guid"], ["name"], ["kind"], ["bounds"], ["drawBounds"],
      ["markedForExport"], ["constraints"], ["text"], ["grid"], ["children"]]
    fun r => r.required "kind" Json.readText

open Json.Parts in
/-- The kind of an entry that is read is the one that its tag stands for. -/
theorem kind_of_read {levels : Nat} {v : Json.Source} {own : Draft Float}
    {children : List (Entry Float)} (h : readEntryWithin (levels + 1) v = .ok (.mk own children)) :
    ∃ tag, Entry.readTag v = .ok tag ∧ own.kind = Kind.ofTag tag := by
  refine Json.readRecord_part h fun r hr => ?_
  obtain ⟨make, below, hmake, -, hentry⟩ := seq_eq_all.mp hr
  obtain ⟨d, hd, rfl⟩ := map_eq_all.mp hmake
  cases hentry
  simp only [seq_eq_all, map_eq_all] at hd
  -- The kind is the third of nine parts.
  obtain ⟨_, _, ⟨_, _, ⟨_, _, ⟨_, _, ⟨_, _, ⟨_, _, hfirst, -, rfl⟩, -, rfl⟩, -, rfl⟩, -, rfl⟩,
    -, rfl⟩, -, rfl⟩ := hd
  obtain ⟨_, _, ⟨_, _, ⟨_, -, rfl⟩, -, rfl⟩, ⟨tag, htag, rfl⟩, rfl⟩ := hfirst
  exact ⟨tag, htag, rfl⟩

/-- An entry that is read has the kind that its tag stands for: the known kind to whose plain spelling
the tag comes, or else none of the known ones. -/
structure ReadsKinds : Prop where
  read : ∀ levels v own children, readEntryWithin (levels + 1) v = .ok (.mk own children) →
    ∃ tag, Entry.readTag v = .ok tag ∧ own.kind = Kind.ofTag tag
  known : ∀ tag, ∀ p ∈ Kind.plainSpellings, Kind.ofTag tag = p.2 ↔ Kind.Spells tag p.1
  unknown : ∀ tag, (∀ p ∈ Kind.plainSpellings, ¬ Kind.Spells tag p.1) →
    Kind.ofTag tag = .other tag

theorem readsKinds : ReadsKinds where
  read _ _ _ _ := kind_of_read
  known _ _ := Kind.ofTag_eq_iff_spells
  unknown _ := Kind.ofTag_of_unknown

variable {α : Type}

/-- The scene holds what the entries say, and nothing else: node number `k` shows the `k`-th record,
and the branches have the shapes of the entries. No node is away from its resting size. -/
structure Loaded (entries : List (Entry α)) (t : ElasticScene α) : Prop where
  atRest : t.AtRest
  size : t.scene.size = (Entry.recordsAll entries).length
  record : ∀ k d, (Entry.recordsAll entries)[k]? = some d →
    ∃ n, t.scene.node? k = some n ∧ Shown k d n
  topLevel : t.scene.topLevel = (t.scene.branches t.scene.topLevel).map (·.id)
  branches : ShowsAll none (t.scene.branches t.scene.topLevel) entries
  preorder : t.scene.preorder = List.range t.scene.size

theorem loaded_of_gains {entries : List (Entry α)} {t : ElasticScene α} (hf : t.scene.IsForest)
    (hrest : t.AtRest) (h : Scene.Gains .empty t.scene none (Entry.heads 0 entries)
      (Entry.nodesAll none 0 entries)) : Loaded entries t := by
  have hnew : t.scene.HasFrom 0 (Entry.nodesAll none 0 entries) := h.new
  have hsize : t.scene.size = (Entry.recordsAll entries).length :=
    (h.size.trans (Nat.zero_add _)).trans (Entry.length_nodesAll none 0 entries)
  have htop : t.scene.topLevel = Entry.heads 0 entries := h.topLevel
  obtain ⟨hshows, hpreorder⟩ := showsAll_of_hasFrom hf none 0 entries hnew
  rw [← htop] at hshows hpreorder
  refine ⟨hrest, hsize, fun k d hd => ?_, ?_, hshows, ?_⟩
  · obtain ⟨n, hn, hshown⟩ := shown_nodesAll none 0 entries hd
    have hk := hnew k n hn
    rw [Nat.zero_add] at hk hshown
    exact ⟨n, hk, hshown⟩
  · exact (Scene.map_id_branches_of_lt fun _ => hf.lt_size_of_mem_topLevel).symm
  · rw [Scene.preorder, ← hf.preorderAll_branches fun _ => hf.lt_size_of_mem_topLevel, hpreorder,
      hsize, List.range_eq_range']

/-! ### Loading -/

theorem load_eq {entries : List (Entry α)} (hne : entries ≠ []) :
    load entries =
      ((Loading.after []).addAll (Entry.placedAll none 0 entries)).map fun l => ⟨l.scene, []⟩ := by
  rw [load, if_neg (by simpa using hne), loadEntries_eq]
  rfl

theorem load_of_firstFault {entries : List (Entry α)} {e : SnapshotError}
    (h : FirstFault (Entry.recordsAll entries) e) : load entries = .error e := by
  have hne : entries ≠ [] := by
    rintro rfl
    obtain ⟨before, d, later, hds, -⟩ := h
    cases before <;> cases hds
  rw [← Entry.map_snd_placedAll none 0 entries] at h
  rw [load_eq hne, Loading.addAll_of_firstFault h]
  rfl

variable [Scalar α]

theorem exists_loaded {entries : List (Entry α)} (hne : entries ≠ [])
    (hsound : Sound (Entry.recordsAll entries)) : ∃ t, load entries = .ok t ∧ Loaded entries t := by
  rw [← Entry.map_snd_placedAll none 0 entries] at hsound
  have hload := load_eq hne
  rw [Loading.addAll_of_sound hsound] at hload
  obtain ⟨hbuilt, hrest⟩ := built_of_load hload
  exact ⟨_, hload, loaded_of_gains hbuilt.isForest hrest
    (gains_placedAll .empty none entries fun p hp => nomatch hp)⟩

theorem load_eq_error_iff {entries : List (Entry α)} {e : SnapshotError} :
    load entries = .error e ↔
      entries = [] ∧ e = .empty ∨ FirstFault (Entry.recordsAll entries) e := by
  constructor
  · intro h
    by_cases hne : entries = []
    · subst hne
      exact .inl ⟨rfl, Except.error.inj h.symm⟩
    · rcases sound_or_firstFault (Entry.recordsAll entries) with hsound | ⟨e', he'⟩
      · obtain ⟨t, ht, -⟩ := exists_loaded hne hsound
        rw [ht] at h
        cases h
      · rw [load_of_firstFault he', Except.error.injEq] at h
        exact .inr (h ▸ he')
  · rintro (⟨rfl, rfl⟩ | h)
    · rfl
    · exact load_of_firstFault h

theorem sound_of_load {entries : List (Entry α)} {t : ElasticScene α} (h : load entries = .ok t) :
    entries ≠ [] ∧ Sound (Entry.recordsAll entries) := by
  have hnone (e : SnapshotError) : load entries ≠ .error e := by
    rw [h]
    exact nofun
  exact ⟨fun hnil => hnone .empty (load_eq_error_iff.mpr (.inl ⟨hnil, rfl⟩)),
    (sound_or_firstFault _).resolve_right fun ⟨e, he⟩ => hnone e (load_of_firstFault he)⟩

/-- For every forest of entries. Loading fails as empty just when there are no entries. Otherwise it
fails just when a record has a fault, with the fault of the first such record. When it does not
fail, the scene holds what the entries say. The kinds of records are those that their tags stand
for. -/
theorem loads_all_or_first_fault (entries : List (Entry α)) :
    (load entries = .error .empty ↔ entries = []) ∧
      (∀ e, load entries = .error e ↔
        entries = [] ∧ e = .empty ∨ FirstFault (Entry.recordsAll entries) e) ∧
      ((∃ t, load entries = .ok t) ↔ entries ≠ [] ∧ Sound (Entry.recordsAll entries)) ∧
      (∀ t, load entries = .ok t → Loaded entries t) ∧ ReadsKinds := by
  refine ⟨load_eq_error_iff.trans ⟨?_, fun h => .inl ⟨h, rfl⟩⟩, fun e => load_eq_error_iff,
    ⟨fun ⟨t, ht⟩ => sound_of_load ht, ?_⟩, fun t ht => ?_, readsKinds⟩
  · rintro (⟨h, -⟩ | ⟨_, _, _, _, _, hfault⟩)
    · exact h
    · cases hfault
  · rintro ⟨hne, hsound⟩
    obtain ⟨t, ht, -⟩ := exists_loaded hne hsound
    exact ⟨t, ht⟩
  · obtain ⟨hne, hsound⟩ := sound_of_load ht
    obtain ⟨u, hu, hloaded⟩ := exists_loaded hne hsound
    rw [ht] at hu
    exact Except.ok.inj hu ▸ hloaded

/-! ### A screen -/

/-- A board with a picture that has no id, and a title. -/
def titleScreen : List (Entry Float) :=
  [.mk { guid := some "screen", name := "Screen", kind := .artboard, marked := true,
         bounds := ⟨0.0, 0.0, 400.0, 300.0⟩ }
    [.mk { name := "back", kind := .rectangle, bounds := ⟨0.0, 0.0, 400.0, 300.0⟩,
           drawBounds := some ⟨-1.0, -1.0, 402.0, 302.0⟩ } [],
     .mk { guid := some "title", name := "Title", kind := .text,
           bounds := ⟨20.0, 40.0, 200.0, 30.0⟩,
           text := some { content := "Hello", fontFamily := "Sans", fontSize := 24.0 } } []]]

/-- A text without attributes that has the title's id. -/
def footer : Entry Float :=
  .mk { guid := some "title", name := "Footer", kind := .text,
        bounds := ⟨20.0, 80.0, 200.0, 30.0⟩ } []

/-- An entry in JSON. -/
def tagged (name tag : String) (more : List (Option String × Json.Source)) : Json.Source :=
  .object ([(some "name", .text name), (some "kind", .text tag),
    (some "bounds", .array [.whole 0, .whole 0, .whole 40, .whole 30])] ++ more)

/-- A board in JSON with a repeated grid, a symbol, a layer of another kind and what else is given. -/
def menu (rest : List Json.Source) : Json.Source :=
  .object [(some "children", .array [tagged "Menu" "ARTBOARD" [(some "id", .text "menu"),
    (some "children", .array ([tagged "row" "repeat-grid" [], tagged "star" "Symbol_Instance" [],
      tagged "dial" "linked graphic" []] ++ rest))]])]

/-- The screen is loaded. With the other text behind it what is missing there is reported, and not
the id. The nodes of the menu have the kinds that their tags stand for, and a title in the menu is
asked for its text. -/
theorem title_screen_loads :
    (∃ t, load titleScreen = .ok t ∧ Loaded titleScreen t) ∧
      load (titleScreen ++ [footer]) = .error (.missingText "Footer") ∧
      (∃ entries t, read (menu []) = .ok entries ∧ load entries = .ok t ∧ Loaded entries t ∧
        (t.scene.nodes.toList.map fun n => (n.guid, n.kind)) =
          [("menu", .artboard), ("00001-3", .repeatGrid), ("00002-4", .symbolInstance),
            ("00003-4", .other "linked graphic")]) ∧
      ∃ entries, read (menu [tagged "title" "TEXT" []]) = .ok entries ∧
        load entries = .error (.missingText "title") := by
  obtain ⟨t, ht⟩ : ∃ t, load titleScreen = .ok t := ⟨_, rfl⟩
  obtain ⟨-, -, hok, hloaded, -⟩ := loads_all_or_first_fault titleScreen
  obtain ⟨-, hsound⟩ := hok.mp ⟨t, ht⟩
  obtain ⟨-, herror, -⟩ := loads_all_or_first_fault (titleScreen ++ [footer])
  have hfooter := (herror (.missingText "Footer")).mpr
    (.inr ⟨Entry.recordsAll titleScreen, _, [], rfl, hsound, .missingText rfl rfl⟩)
  have hmenu : (read (menu [])).toOption.map (fun entries => (load entries).toOption.map fun t =>
      t.scene.nodes.toList.map fun n => (n.guid, n.kind)) =
      some (some [("menu", .artboard), ("00001-3", .repeatGrid), ("00002-4", .symbolInstance),
        ("00003-4", .other "linked graphic")]) := by
    decide +kernel
  obtain ⟨entries, hread, hmenu⟩ := eq_ok_of_map_toOption hmenu
  obtain ⟨u, hload, hkinds⟩ := eq_ok_of_map_toOption hmenu
  obtain ⟨-, -, -, hmenuLoaded, -⟩ := loads_all_or_first_fault entries
  exact ⟨⟨t, ht, hloaded t ht⟩, hfooter, ⟨entries, u, hread, hload, hmenuLoaded u hload, hkinds⟩,
    _, rfl, rfl⟩

end Snapshot
end DesignLayout
