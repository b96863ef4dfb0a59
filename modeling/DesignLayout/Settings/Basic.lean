import DesignLayout.Decimal.Numeral
import DesignLayout.Decimal.Text
import DesignLayout.Label.Directive
import DesignLayout.Scalar
import DesignLayout.Text.Blank

/-!
Settings of an export.

`Settings` is what a user gives: a scale that may still be text, perhaps an output folder, switches
and thresholds. `Settings.context` checks them, the scale first, and gives the `Context` that the
whole export reads.
-/
namespace DesignLayout

/-- The switches of the export dialog. -/
structure Options where
  /-- Export only layers that are marked for export. -/
  onlyMarked : Bool := true
  /-- Admit inputs and scrollers. -/
  extended : Bool := true
  /-- Probe how layers follow a resize, and write anchors and stretch flags. -/
  responsive : Bool := true
  /-- Export sub-prefabs as documents of their own. -/
  subPrefabs : Bool := true
  /-- Write rich text instead of plain text. -/
  richText : Bool := true
  /-- Rasterize every text. -/
  textAsImage : Bool := false
  deriving DecidableEq, Repr

/-- Whether the directive is in force and the switches admit it. -/
def Options.active (o : Options) (ds : Directives) (d : Directive) : Bool :=
  let admitted := match d with
    | .input | .scroller => o.extended
    | .subPrefab => o.subPrefabs
    | _ => true
  admitted && ds.has d

/-- What the probe measures with: how far it grows an artboard, up to which share of the growth a
move counts as centred, and from which factor on a wider node counts as stretched. -/
structure Thresholds (α : Type) where
  growWidth : α
  growHeight : α
  anchorRatio : α
  stretchSlack : α

def Thresholds.standard : Thresholds Float :=
  { growWidth := 100.0, growHeight := 100.0, anchorRatio := 0.6, stretchSlack := 1.0001 }

inductive SettingsError
  | invalidScale (given : String)
  | missingFolder
  deriving DecidableEq, Repr

def SettingsError.message : SettingsError → String
  | invalidScale given => "invalid scale value: " ++ Text.quoted given
  | missingFolder => "invalid output folder"

/-- A scale as it was given. -/
inductive ScaleSetting
  | number (value : Float)
  | text (content : String)

namespace ScaleSetting

/-- Numbers inside messages: never with an exponent, and with a point only where it is needed. -/
def plainStyle : Decimal.Style where
  tie := .up
  positional _ := true
  afterWhole := ""
  infinity := "inf"
  nan := "NaN"

/-- Besides numerals, the words for infinity and NaN are numbers. -/
def number? (cs : List Char) : Option Float :=
  match Decimal.Numeral.scan? cs with
  | some n => some n.value
  | none =>
    let (sign, word) := Decimal.Sign.split cs
    let signed (x : Float) := if sign = .minus then -x else x
    if Text.sameIgnoringCase word "inf".toList || Text.sameIgnoringCase word "infinity".toList then
      some (signed (1.0 / 0.0))
    else if Text.sameIgnoringCase word "nan".toList then some (0.0 / 0.0)
    else none

/-- The scale must be a finite number above zero. -/
def check (x : Float) : Except SettingsError Float :=
  if x.isFinite && decide (0.0 < x) then .ok x
  else .error (.invalidScale (plainStyle.render x))

def resolve : ScaleSetting → Except SettingsError Float
  | number x => check x
  | text content =>
    match number? (Text.trimmed content.toList) with
    | some x => check x
    | none => .error (.invalidScale content)

end ScaleSetting

structure Settings where
  scale : ScaleSetting := .number 1.0
  folder : Option String := none
  options : Options := {}
  thresholds : Thresholds Float := .standard

/-- What one export reads. -/
structure Context (α : Type) where
  scale : α
  folder : String
  options : Options
  thresholds : Thresholds α

def Settings.context (s : Settings) : Except SettingsError (Context Float) := do
  let scale ← s.scale.resolve
  match s.folder with
  | none | some "" => .error .missingFolder
  | some folder => .ok { scale, folder, options := s.options, thresholds := s.thresholds }

end DesignLayout
