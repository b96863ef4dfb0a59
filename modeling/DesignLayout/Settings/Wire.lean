import DesignLayout.Json.Basic
import DesignLayout.Json.Record
import DesignLayout.Settings.Basic

/-!
Settings in JSON.

The switches stand among the fields of the settings object, which may not be written as a list;
switches alone and thresholds are records. A text of blanks stands for the standard settings where
a caller allows it.
-/
namespace DesignLayout

open Json (Reader readBool readText readReal readOptional)

namespace Options

def read : Reader Options :=
  Json.readRecord
    [["checkMarkedForExport"], ["enableExtended"], ["responsiveParameters"], ["enableSubPrefab"],
     ["textToTextMeshPro"], ["forceTextToImage"]]
    fun r => Options.mk
      <$> r.orElse "checkMarkedForExport" true readBool
      <*> r.orElse "enableExtended" true readBool
      <*> r.orElse "responsiveParameters" true readBool
      <*> r.orElse "enableSubPrefab" true readBool
      <*> r.orElse "textToTextMeshPro" true readBool
      <*> r.orElse "forceTextToImage" false readBool

def toFields (o : Options) : List (String × Json) :=
  [("checkMarkedForExport", .bool o.onlyMarked), ("enableExtended", .bool o.extended),
   ("responsiveParameters", .bool o.responsive), ("enableSubPrefab", .bool o.subPrefabs),
   ("textToTextMeshPro", .bool o.richText), ("forceTextToImage", .bool o.textAsImage)]

end Options

namespace Thresholds

def read : Reader (Thresholds Float) :=
  Json.readRecord [["deltaWidth"], ["deltaHeight"], ["anchorRatio"], ["stretchSlack"]]
    fun r => Thresholds.mk
      <$> r.orElse "deltaWidth" standard.growWidth readReal
      <*> r.orElse "deltaHeight" standard.growHeight readReal
      <*> r.orElse "anchorRatio" standard.anchorRatio readReal
      <*> r.orElse "stretchSlack" standard.stretchSlack readReal

def toJson (t : Thresholds Float) : Json :=
  .object [("deltaWidth", .real t.growWidth), ("deltaHeight", .real t.growHeight),
    ("anchorRatio", .real t.anchorRatio), ("stretchSlack", .real t.stretchSlack)]

end Thresholds

namespace ScaleSetting

/-- The value is read in full before it is looked at. -/
def read : Reader ScaleSetting := fun v =>
  if !v.isSound then .error .malformed
  else match v with
    | .text content => .ok (text content)
    | v => number <$> readReal v

def toJson : ScaleSetting → Json
  | number x => .real x
  | text content => .text content

end ScaleSetting

namespace Settings

def read : Reader Settings :=
  Json.readObject [["scale"], ["outputFolder"], ["thresholds"]]
    fun r => Settings.mk
      <$> r.orElse "scale" (.number 1.0) ScaleSetting.read
      <*> r.orElse "outputFolder" none (readOptional readText)
      <*> r.rest Options.read
      <*> r.orElse "thresholds" .standard Thresholds.read

def toJson (s : Settings) : Json :=
  .object ([("scale", s.scale.toJson), ("outputFolder", (s.folder.map Json.text).getD .null)] ++
    s.options.toFields ++ [("thresholds", s.thresholds.toJson)])

/-- Settings from a text that may be blank. -/
def ofText (s : String) : Except Refusal Settings :=
  if s.toList.all Text.isBlank then .ok {} else Json.decode read s

end Settings
end DesignLayout
