import DesignLayout.Proofs.Scanning

/-! The text of a value is read as the value.

The scan finds the tokens of a value in both of its texts (`scans_prettyAt`, `scans_compact`), and
from its tokens the reader builds the value (`foldl_tokensOf`). So a text is read as the value that
was written when its numbers are finite and it is not nested too deeply (`decode_pretty`,
`decode_compact`). -/
namespace DesignLayout.Json

/-! ### The tokens of a value -/

mutual

def tokensOf : Json → List Token
  | .null => [.scalar .null]
  | .bool value => [.scalar (.bool value)]
  | .whole value => [.scalar (.whole value)]
  | .real value => [.scalar (.real value)]
  | .text value => [.text (some value)]
  | .array items => .openArray :: (itemTokens items ++ [.closeArray])
  | .object fields => .openObject :: (fieldTokens fields ++ [.closeObject])

def itemTokens : List Json → List Token
  | [] => []
  | [item] => tokensOf item
  | item :: rest => tokensOf item ++ .comma :: itemTokens rest

def fieldTokens : List (String × Json) → List Token
  | [] => []
  | [(name, value)] => .text (some name) :: .colon :: tokensOf value
  | (name, value) :: rest =>
    .text (some name) :: .colon :: (tokensOf value ++ .comma :: fieldTokens rest)

end

namespace Token

theorem yields_openArray : Yields ['['] [.openArray] := fun _ => rfl

theorem yields_closeArray : Yields [']'] [.closeArray] := fun _ => rfl

theorem yields_openObject : Yields ['\x7b'] [.openObject] := fun _ => rfl

theorem yields_closeObject : Yields ['\x7d'] [.closeObject] := fun _ => rfl

theorem yields_comma : Yields [','] [.comma] := fun _ => rfl

theorem yields_colon : Yields [':'] [.colon] := fun _ => rfl

theorem yields_colonSpace : Yields [':', ' '] [.colon] := fun _ => rfl

end Token

open Token

/-! ### The tokens of a text -/

mutual

/-- The tokens of a value are found in its text on one line. -/
theorem scans_compact : ∀ {v : Json} {levels : Nat}, (Source.ofJson v).Fits levels →
    ∀ {rest : List Char} {ts : List Token}, EndsWord rest → Scans rest ts →
      Scans ((compact v).toList ++ rest) (tokensOf v ++ ts)
  | .null, _, _, _, _, hrest, h => isWord_null.scans hrest h
  | .bool value, _, _, _, _, hrest, h => (isWord_bool value).scans hrest h
  | .whole value, _, hv, _, _, hrest, h => by
    cases hv with
    | whole hk => exact (isWord_whole hk).scans hrest h
  | .real value, _, hv, _, _, hrest, h => by
    cases hv with
    | real hx => exact (isWord_real hx).scans hrest h
  | .text value, _, _, _, _, _, h => (yields_textForm value).scans h
  | .array items, _, hv, rest, ts, hrest, h => by
    cases hv with
    | array hitems =>
      have hclose := yields_closeArray.scans h
      have hscan := scans_compactItems hitems (endsWord_cons rfl) hclose
      simpa [compact, tokensOf] using yields_openArray.scans hscan
  | .object fields, _, hv, rest, ts, hrest, h => by
    cases hv with
    | object hfields =>
      have hclose := yields_closeObject.scans h
      have hscan := scans_compactFields hfields (endsWord_cons rfl) hclose
      simpa [compact, tokensOf] using yields_openObject.scans hscan

theorem scans_compactItems : ∀ {items : List Json} {levels : Nat},
    (∀ v ∈ Source.ofItems items, v.Fits levels) →
    ∀ {rest : List Char} {ts : List Token}, EndsWord rest → Scans rest ts →
      Scans ((compactItems items).toList ++ rest) (itemTokens items ++ ts)
  | [], _, _, _, _, _, h => h
  | [item], _, hv, _, _, hrest, h => scans_compact (hv _ (List.mem_singleton_self _)) hrest h
  | item :: next :: rest, _, hv, _, _, hrest, h => by
    obtain ⟨hitem, hnext⟩ := List.forall_mem_cons.mp hv
    have hcomma := yields_comma.scans (scans_compactItems hnext hrest h)
    have hscan := scans_compact hitem (endsWord_cons rfl) hcomma
    simpa [compactItems, itemTokens] using hscan

theorem scans_compactFields : ∀ {fields : List (String × Json)} {levels : Nat},
    (∀ f ∈ Source.ofFields fields, f.2.Fits levels) →
    ∀ {rest : List Char} {ts : List Token}, EndsWord rest → Scans rest ts →
      Scans ((compactFields fields).toList ++ rest) (fieldTokens fields ++ ts)
  | [], _, _, _, _, _, h => h
  | [(name, value)], _, hv, _, _, hrest, h => by
    have hscan := scans_compact (v := value) (hv _ (List.mem_singleton_self _)) hrest h
    have hname := (yields_textForm name).scans (yields_colon.scans hscan)
    simpa [compactFields, fieldTokens] using hname
  | (name, value) :: next :: rest, _, hv, _, _, hrest, h => by
    obtain ⟨hvalue, hnext⟩ := List.forall_mem_cons.mp hv
    have hcomma := yields_comma.scans (scans_compactFields hnext hrest h)
    have hscan := scans_compact (v := value) hvalue (endsWord_cons rfl) hcomma
    have hname := (yields_textForm name).scans (yields_colon.scans hscan)
    simpa [compactFields, fieldTokens] using hname

end

mutual

/-- The tokens of a value are found in its text on several lines. -/
theorem scans_prettyAt : ∀ {v : Json} {levels : Nat}, (Source.ofJson v).Fits levels →
    ∀ (level : Nat) {rest : List Char} {ts : List Token}, EndsWord rest → Scans rest ts →
      Scans ((prettyAt level v).toList ++ rest) (tokensOf v ++ ts)
  | .null, _, _, _, _, _, hrest, h => isWord_null.scans hrest h
  | .bool value, _, _, _, _, _, hrest, h => (isWord_bool value).scans hrest h
  | .whole value, _, hv, _, _, _, hrest, h => by
    cases hv with
    | whole hk => exact (isWord_whole hk).scans hrest h
  | .real value, _, hv, _, _, _, hrest, h => by
    cases hv with
    | real hx => exact (isWord_real hx).scans hrest h
  | .text value, _, _, _, _, _, _, h => (yields_textForm value).scans h
  | .array [], _, _, _, _, _, _, h => by
    simpa [prettyAt, tokensOf, itemTokens] using yields_openArray.scans (yields_closeArray.scans h)
  | .object [], _, _, _, _, _, _, h => by
    simpa [prettyAt, tokensOf, fieldTokens] using
      yields_openObject.scans (yields_closeObject.scans h)
  | .array (item :: items), _, hv, level, rest, ts, hrest, h => by
    cases hv with
    | array hitems =>
      have hclose := (yields_newLine level).scans (yields_closeArray.scans h)
      have hscan := scans_prettyItems hitems (level + 1) (endsWord_newLine level) hclose
      simpa [prettyAt, tokensOf] using yields_openArray.scans hscan
  | .object (field :: fields), _, hv, level, rest, ts, hrest, h => by
    cases hv with
    | object hfields =>
      have hclose := (yields_newLine level).scans (yields_closeObject.scans h)
      have hscan := scans_prettyFields hfields (level + 1) (endsWord_newLine level) hclose
      simpa [prettyAt, tokensOf] using yields_openObject.scans hscan

theorem scans_prettyItems : ∀ {items : List Json} {levels : Nat},
    (∀ v ∈ Source.ofItems items, v.Fits levels) →
    ∀ (level : Nat) {rest : List Char} {ts : List Token}, EndsWord rest → Scans rest ts →
      Scans ((prettyItems level items).toList ++ rest) (itemTokens items ++ ts)
  | [], _, _, _, _, _, _, h => h
  | [item], _, hv, level, _, _, hrest, h => by
    have hscan := scans_prettyAt (hv _ (List.mem_singleton_self _)) level hrest h
    simpa [prettyItems, itemTokens] using (yields_newLine level).scans hscan
  | item :: next :: rest, _, hv, level, _, _, hrest, h => by
    obtain ⟨hitem, hnext⟩ := List.forall_mem_cons.mp hv
    have hcomma := yields_comma.scans (scans_prettyItems hnext level hrest h)
    have hscan := scans_prettyAt hitem level (endsWord_cons rfl) hcomma
    simpa [prettyItems, itemTokens] using (yields_newLine level).scans hscan

theorem scans_prettyFields : ∀ {fields : List (String × Json)} {levels : Nat},
    (∀ f ∈ Source.ofFields fields, f.2.Fits levels) →
    ∀ (level : Nat) {rest : List Char} {ts : List Token}, EndsWord rest → Scans rest ts →
      Scans ((prettyFields level fields).toList ++ rest) (fieldTokens fields ++ ts)
  | [], _, _, _, _, _, _, h => h
  | [(name, value)], _, hv, level, _, _, hrest, h => by
    have hscan := scans_prettyAt (v := value) (hv _ (List.mem_singleton_self _)) level hrest h
    have hname := (yields_textForm name).scans (yields_colonSpace.scans hscan)
    simpa [prettyFields, fieldTokens] using (yields_newLine level).scans hname
  | (name, value) :: next :: rest, _, hv, level, _, _, hrest, h => by
    obtain ⟨hvalue, hnext⟩ := List.forall_mem_cons.mp hv
    have hcomma := yields_comma.scans (scans_prettyFields hnext level hrest h)
    have hscan := scans_prettyAt (v := value) hvalue level (endsWord_cons rfl) hcomma
    have hname := (yields_textForm name).scans (yields_colonSpace.scans hscan)
    simpa [prettyFields, fieldTokens] using (yields_newLine level).scans hname

end

/-- A whole text is scanned as the tokens that are found up to its end. -/
theorem scan_eq {cs : List Char} {ts : List Token} (h : Scans (cs ++ []) (ts ++ [])) :
    scan cs = ts := by
  rw [List.append_nil, List.append_nil] at h
  exact h []

/-! ### The value of the tokens -/

namespace Progress

/-- No value begins with a closing bracket. -/
theorem foldl_firstItem (v : Json) (outer : List Frame) :
    (tokensOf v).foldl step (.awaitFirstItem outer) =
      (tokensOf v).foldl step (.awaitValue (.item [] :: outer)) := by
  cases v <;> rfl

theorem foldl_firstItems {items : List Json} (h : items ≠ []) (outer : List Frame) :
    (itemTokens items).foldl step (.awaitFirstItem outer) =
      (itemTokens items).foldl step (.awaitValue (.item [] :: outer)) := by
  obtain ⟨item, rest, rfl⟩ := List.exists_cons_of_ne_nil h
  cases rest with
  | nil => exact foldl_firstItem item outer
  | cons next rest =>
    rw [itemTokens, List.foldl_append, List.foldl_append, foldl_firstItem]
    simp

theorem foldl_firstFields {fields : List (String × Json)} (h : fields ≠ []) (outer : List Frame) :
    (fieldTokens fields).foldl step (.awaitFirstName outer) =
      (fieldTokens fields).foldl step (.awaitName [] outer) := by
  obtain ⟨⟨name, value⟩, rest, rfl⟩ := List.exists_cons_of_ne_nil h
  cases rest with
  | nil => rfl
  | cons next rest =>
    rw [fieldTokens]
    · rfl
    · simp

variable {outer : List Frame} {levels : Nat}

theorem limited_of_length (v : Source) (h : outer.length + (levels + 1) ≤ maxDepth) :
    limited outer v = v :=
  if_pos (by omega)

theorem length_cons_le (frame : Frame) (h : outer.length + (levels + 1) ≤ maxDepth) :
    (frame :: outer).length + levels ≤ maxDepth := by
  rw [List.length_cons]
  omega

mutual

/-- From the tokens of a value the reader builds the value. -/
theorem foldl_tokensOf : ∀ {v : Json} {levels : Nat}, (Source.ofJson v).Fits levels →
    ∀ {outer : List Frame}, outer.length + levels ≤ maxDepth →
      (tokensOf v).foldl step (.awaitValue outer) = deliver (Source.ofJson v) outer
  | .null, _, _, _, _ | .bool _, _, _, _, _ | .whole _, _, _, _, _ | .real _, _, _, _, _
  | .text _, _, _, _, _ => rfl
  | .array items, _, hv, outer, hlength => by
    cases hv with
    | array hitems =>
      have hlimited := limited_of_length (.array (Source.ofItems items)) hlength
      rw [tokensOf, List.foldl_cons, List.foldl_append]
      change ((itemTokens items).foldl step (.awaitFirstItem outer)).step .closeArray = _
      by_cases hnil : items = []
      · subst hnil
        exact congrArg (deliver · outer) hlimited
      · rw [foldl_firstItems hnil, foldl_itemTokens hnil hitems hlength, List.append_nil]
        change deliver (limited outer (.array (Source.ofItems items).reverse.reverse)) outer = _
        rw [List.reverse_reverse, hlimited]
        rfl
  | .object fields, _, hv, outer, hlength => by
    cases hv with
    | object hfields =>
      have hlimited := limited_of_length (.object (Source.ofFields fields)) hlength
      rw [tokensOf, List.foldl_cons, List.foldl_append]
      change ((fieldTokens fields).foldl step (.awaitFirstName outer)).step .closeObject = _
      by_cases hnil : fields = []
      · subst hnil
        exact congrArg (deliver · outer) hlimited
      · rw [foldl_firstFields hnil, foldl_fieldTokens hnil hfields hlength, List.append_nil]
        change deliver (limited outer (.object (Source.ofFields fields).reverse.reverse)) outer = _
        rw [List.reverse_reverse, hlimited]
        rfl

theorem foldl_itemTokens : ∀ {items : List Json} {levels : Nat}, items ≠ [] →
    (∀ v ∈ Source.ofItems items, v.Fits levels) →
    ∀ {acc : List Source} {outer : List Frame}, outer.length + (levels + 1) ≤ maxDepth →
      (itemTokens items).foldl step (.awaitValue (.item acc :: outer)) =
        .awaitItemEnd ((Source.ofItems items).reverse ++ acc) outer
  | [], _, hne, _, _, _, _ => absurd rfl hne
  | [item], _, _, hv, acc, outer, hlength =>
    foldl_tokensOf (hv _ (List.mem_singleton_self _)) (length_cons_le (.item acc) hlength)
  | item :: next :: rest, _, _, hv, acc, outer, hlength => by
    obtain ⟨hitem, hnext⟩ := List.forall_mem_cons.mp hv
    have hfirst := foldl_tokensOf hitem (length_cons_le (.item acc) hlength)
    rw [itemTokens]
    · rw [List.foldl_append, hfirst, List.foldl_cons]
      change (itemTokens (next :: rest)).foldl step
        (.awaitValue (.item (Source.ofJson item :: acc) :: outer)) = _
      rw [foldl_itemTokens (List.cons_ne_nil _ _) hnext hlength]
      simp [Source.ofItems]
    · simp

theorem foldl_fieldTokens : ∀ {fields : List (String × Json)} {levels : Nat}, fields ≠ [] →
    (∀ f ∈ Source.ofFields fields, f.2.Fits levels) →
    ∀ {acc : List (Option String × Source)} {outer : List Frame},
      outer.length + (levels + 1) ≤ maxDepth →
      (fieldTokens fields).foldl step (.awaitName acc outer) =
        .awaitFieldEnd ((Source.ofFields fields).reverse ++ acc) outer
  | [], _, hne, _, _, _, _ => absurd rfl hne
  | [(name, value)], _, _, hv, acc, outer, hlength =>
    foldl_tokensOf (v := value) (hv _ (List.mem_singleton_self _))
      (length_cons_le (.field acc (some name)) hlength)
  | (name, value) :: next :: rest, _, _, hv, acc, outer, hlength => by
    obtain ⟨hvalue, hnext⟩ := List.forall_mem_cons.mp hv
    have hfirst := foldl_tokensOf (v := value) hvalue
      (length_cons_le (.field acc (some name)) hlength)
    rw [fieldTokens]
    · rw [List.foldl_cons, List.foldl_cons, List.foldl_append]
      change (Token.comma :: fieldTokens (next :: rest)).foldl step
        ((tokensOf value).foldl step (.awaitValue (.field acc (some name) :: outer))) = _
      rw [hfirst, List.foldl_cons]
      change (fieldTokens (next :: rest)).foldl step
        (.awaitName ((some name, Source.ofJson value) :: acc) outer) = _
      rw [foldl_fieldTokens (List.cons_ne_nil _ _) hnext hlength]
      simp [Source.ofFields]
    · simp

end

end Progress

/-! ### The value of a text -/

variable {v : Json} {s : String}

theorem ofText_eq (hv : (Source.ofJson v).Fits maxDepth) (hs : Token.scan s.toList = tokensOf v) :
    Source.ofText s = (Source.ofJson v, true) := by
  rw [Source.ofText, hs, Progress.foldl_tokensOf hv (Nat.le_of_eq (Nat.zero_add _))]
  rfl

theorem ofText_pretty (hv : (Source.ofJson v).Fits maxDepth) :
    Source.ofText v.pretty = (Source.ofJson v, true) :=
  ofText_eq hv (scan_eq (scans_prettyAt hv 0 endsWord_nil scans_nil))

theorem ofText_compact (hv : (Source.ofJson v).Fits maxDepth) :
    Source.ofText v.compact = (Source.ofJson v, true) :=
  ofText_eq hv (scan_eq (scans_compact hv endsWord_nil scans_nil))

/-- What reads a value reads its text. -/
theorem decode_eq {β : Type} {read : Reader β} {b : β}
    (hs : Source.ofText s = (Source.ofJson v, true)) (hread : read (Source.ofJson v) = .ok b) :
    decode read s = .ok b := by
  rw [decode, hs]
  dsimp only
  rw [hread]
  rfl

end DesignLayout.Json
