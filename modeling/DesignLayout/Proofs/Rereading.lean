import DesignLayout.Proofs.Accepting
import DesignLayout.Proofs.Printing

/-! Layouts read back from their texts.

What was written is read again as it was, from a text on one line and from one on several lines: the
fields of an element come back from its value (`Element.read_ofJson`), and the value from its texts
(`Json.ReadsBack.of_fits`). What was read of any text can be written, so it is read again as well.
-/
namespace DesignLayout

open Json (Source)

/-- Both texts of the value are read as `b`. -/
structure Json.ReadsBack {β : Type} (read : Json.Reader β) (v : Json) (b : β) : Prop where
  pretty : Json.decode read v.pretty = .ok b
  compact : Json.decode read v.compact = .ok b

theorem Json.ReadsBack.of_fits {β : Type} {read : Json.Reader β} {v : Json} {b : β}
    (hv : (Source.ofJson v).Fits Json.maxDepth) (hread : read (Source.ofJson v) = .ok b) :
    Json.ReadsBack read v b :=
  ⟨Json.decode_eq (Json.ofText_pretty hv) hread, Json.decode_eq (Json.ofText_compact hv) hread⟩

namespace Element

variable {e : Element Float}

theorem readsBack (h : e.Writable) (hdepth : (Source.ofJson e.toJson).depth ≤ Json.maxDepth) :
    Json.ReadsBack read e.toJson e :=
  .of_fits (h.counted.printable _ hdepth) (read_ofJson h)

theorem of_decode {s : String} (h : Json.decode read s = .ok e) :
    e.Writable ∧ (Source.ofJson e.toJson).depth ≤ Json.maxDepth := by
  obtain ⟨v, hv, hread⟩ := Json.of_decode h
  obtain ⟨hwritable, hfits⟩ := of_readWithin _ hv hread
  exact ⟨hwritable, hfits.depth_le⟩

end Element

namespace Document

variable {d : Document Float}

theorem readsBack (h : d.Writable) (hdepth : (Source.ofJson d.toJson).depth ≤ Json.maxDepth) :
    Json.ReadsBack read d.toJson d :=
  .of_fits (printable h.root.counted _ hdepth) (read_ofJson h)

theorem of_decode {s : String} (h : Json.decode read s = .ok d) :
    d.Writable ∧ (Source.ofJson d.toJson).depth ≤ Json.maxDepth := by
  obtain ⟨v, hv, hread⟩ := Json.of_decode h
  obtain ⟨hwritable, hfits⟩ := of_read hv hread
  exact ⟨hwritable, hfits.depth_le⟩

end Document

/-- Reading undoes writing. For every element and every document whose numbers are finite and whose
pivots are not empty: it is read back from its value, and from its text on one line and on several
lines unless these are too deep to be read. And whatever was read of a text is read back from its own
texts. -/
theorem Document.rereads :
    (∀ e : Element Float, e.Writable → Element.read (Source.ofJson e.toJson) = .ok e ∧
      ((Source.ofJson e.toJson).depth ≤ Json.maxDepth → Json.ReadsBack Element.read e.toJson e)) ∧
    (∀ d : Document Float, d.Writable → Document.read (Source.ofJson d.toJson) = .ok d ∧
      ((Source.ofJson d.toJson).depth ≤ Json.maxDepth → Json.ReadsBack Document.read d.toJson d)) ∧
    (∀ (s : String) (e : Element Float), Json.decode Element.read s = .ok e →
      Json.ReadsBack Element.read e.toJson e) ∧
    (∀ (s : String) (d : Document Float), Json.decode Document.read s = .ok d →
      Json.ReadsBack Document.read d.toJson d) := by
  refine ⟨fun e he => ⟨Element.read_ofJson he, Element.readsBack he⟩,
    fun d hd => ⟨Document.read_ofJson hd, Document.readsBack hd⟩, fun s e h => ?_, fun s d h => ?_⟩
  · obtain ⟨hwritable, hdepth⟩ := Element.of_decode h
    exact Element.readsBack hwritable hdepth
  · obtain ⟨hwritable, hdepth⟩ := Document.of_decode h
    exact Document.readsBack hwritable hdepth

/-- A group around an empty list and a scroller, with figures that are written with an exponent, a
negative zero and a name that has to be escaped. -/
def shelfElement : Element Float :=
  .mk { kind := .group, name := "shelf", w := some 400, h := some 1e300 }
    (some [.mk { kind := .list .vertical, name := "items", pivot := some .leftTop } (some []),
      .mk { kind := .scroller ⟨.horizontal, some 0.1, none, some 1e-7, some (-0.0)⟩
            name := "\"row\"\n", opacity := some 100, stretchX := true }
        (some [.mk { kind := .image "cell.png", name := "cell" } none])])

def shelfDocument : Document Float :=
  .ofBase { x := some 0.5, w := 400, h := 0.1 } shelfElement

def groupText : String :=
  "\x7b\"name\":\"a\",\"type\":\"Group\"\x7d"

/-- A document as it is written by hand: its canvas as a list, a number without a point, the type
behind the name. -/
def noticeText : String :=
  "\x7b\"info\":[\"0.6.1\"," ++
    "[\x7b\"w\":8,\"h\":4\x7d,\x7b\"w\":8,\"h\":4\x7d,\x7b\"w\":8,\"h\":4\x7d]]," ++
    "\"root\":" ++ groupText ++ "\x7d"

theorem exists_of_isOk {ε β : Type} {x : Except ε β} (h : x.isOk = true) : ∃ b, x = .ok b := by
  cases x with
  | error why => cases h
  | ok b => exact ⟨b, rfl⟩

theorem Document.notice_rereads :
    (shelfElement.Writable ∧ (Source.ofJson shelfElement.toJson).depth ≤ Json.maxDepth ∧
      Json.ReadsBack Element.read shelfElement.toJson shelfElement) ∧
    (shelfDocument.Writable ∧ (Source.ofJson shelfDocument.toJson).depth ≤ Json.maxDepth ∧
      Json.ReadsBack Document.read shelfDocument.toJson shelfDocument) ∧
    (∃ e, Json.decode Element.read groupText = .ok e ∧
      Json.ReadsBack Element.read e.toJson e) ∧
    ∃ d, Json.decode Document.read noticeText = .ok d ∧
      Json.ReadsBack Document.read d.toJson d := by
  have helement : shelfElement.Writable := by decide +kernel
  have helementDepth : (Source.ofJson shelfElement.toJson).depth ≤ Json.maxDepth := by
    decide +kernel
  have hdocument : shelfDocument.Writable := by decide +kernel
  have hdocumentDepth : (Source.ofJson shelfDocument.toJson).depth ≤ Json.maxDepth := by
    decide +kernel
  obtain ⟨e, he⟩ := exists_of_isOk (x := Json.decode Element.read groupText) (by decide +kernel)
  obtain ⟨d, hd⟩ := exists_of_isOk (x := Json.decode Document.read noticeText) (by decide +kernel)
  exact ⟨⟨helement, helementDepth, (Document.rereads.1 _ helement).2 helementDepth⟩,
    ⟨hdocument, hdocumentDepth, (Document.rereads.2.1 _ hdocument).2 hdocumentDepth⟩,
    ⟨e, he, Document.rereads.2.2.1 _ e he⟩, d, hd, Document.rereads.2.2.2 _ d hd⟩

end DesignLayout
