import DesignLayout.Proofs.Rereading
import DesignLayout.Proofs.Shapes

/-! What an export writes.

A layout on several lines has the tokens of the same layout on one line, so the two are read alike
(`Json.Printable.isValueOf`). Whatever an export gives can be written, also where a number is not
finite (`Export.counted_roots`). So the file of every root holds its layout: it is read as the value
of the layout, and as the layout itself if all of its numbers have a place in JSON
(`Export.heldBy_pretty`). -/
namespace DesignLayout

open Json (Source)

/-! ### The value of a text -/

namespace Json

/-- The text is read just as the value on one line is, and in full when the value is not too deep
to be read at all. -/
structure IsValueOf (v : Json) (text : String) : Prop where
  alike : Source.ofText text = Source.ofText v.compact
  value : (Source.ofJson v).depth ≤ maxDepth → Source.ofText text = (Source.ofJson v, true)

variable {v : Json}

theorem Printable.scan_compact (h : v.Printable) :
    Token.scan v.compact.toList = tokensOf v :=
  scan_eq (scans_compact (h _ (Nat.le_refl _)) Token.endsWord_nil Token.scans_nil)

theorem Printable.scan_pretty (h : v.Printable) : Token.scan v.pretty.toList = tokensOf v :=
  scan_eq (scans_prettyAt (h _ (Nat.le_refl _)) 0 Token.endsWord_nil Token.scans_nil)

/-- A text with the tokens of the value is read as the value. -/
theorem Printable.isValueOf (h : v.Printable) {text : String}
    (ht : Token.scan text.toList = tokensOf v) : v.IsValueOf text where
  alike := by rw [Source.ofText, Source.ofText, ht, h.scan_compact]
  value hdepth := ofText_eq (h _ hdepth) ht

end Json

/-! ### Layouts -/

/-- The text is read as the value of the layout, and as the layout itself when all of its numbers are
finite and it is not too deep to be read. -/
structure Document.HeldBy (d : Document Float) (text : String) : Prop where
  value : d.toJson.IsValueOf text
  layout : d.Writable → (Source.ofJson d.toJson).depth ≤ Json.maxDepth →
    Json.decode read text = .ok d

theorem Document.heldBy_pretty {d : Document Float} (h : d.root.Counted) :
    d.HeldBy d.toJson.pretty where
  value := (printable h).isValueOf (printable h).scan_pretty
  layout hwritable hdepth := (readsBack hwritable hdepth).pretty

theorem Attributes.WellShaped.opacity_lt {α : Type} {a : Attributes α} (h : a.WellShaped) :
    ∀ n ∈ a.opacity, n < 0x100000000 := by
  intro n hn
  cases hplaced : a.kind.isPlaced with
  | true =>
    rw [(h.placed hplaced).2.2] at hn
    cases hn
    decide
  | false =>
    rw [(h.unplaced hplaced).2.2] at hn
    cases hn

namespace Export
variable {δ : Type} [Host δ Float] {doc after : δ} {selection : List NodeId}
  {context : Context Float} {e : Export Float}

theorem counted_roots (h : ofSelection doc selection context = .ok (after, e)) :
    ∀ r ∈ e.roots, r.document.root.Counted := by
  obtain ⟨_, -, -, he⟩ := ofSelection_eq_ok h
  intro r hr x hx
  rw [he] at hr
  exact (Compiler.allShaped_roots (c := ⟨Host.scene after, context, e.measurements⟩)
    (derived_of_ofSelection h) _ _ r hr x hx).own.opacity_lt

/-- The file of every root holds the layout of the root. -/
theorem heldBy_pretty (h : ofSelection doc selection context = .ok (after, e)) :
    ∀ r ∈ e.roots, r.document.HeldBy r.document.toJson.pretty :=
  fun r hr => Document.heldBy_pretty (counted_roots h r hr)

end Export
end DesignLayout
