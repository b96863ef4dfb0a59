import DesignLayout.Json.Print
import DesignLayout.Json.Record
import DesignLayout.Layout.Document

/-!
Layouts in JSON.

An element is an object: its type, the fields of that type, its name, and then the fields that it
has. Absent values and flags that are off are left out. When an element is read, its type may also
be given by its place in the list of types. The other parts of a document are records.
-/
namespace DesignLayout

open Json (Reader Parts readBool readText readReal readCount readOptional readList
  readLooseChoice)

/-- A field that is left out when there is no value. -/
def Json.fieldOf {β : Type} (name : String) (toJson : β → Json) : Option β → List (String × Json)
  | none => []
  | some b => [(name, toJson b)]

/-- A flag that is left out when it is off. -/
def Json.flagOf (name : String) (on : Bool) : List (String × Json) :=
  if on then [(name, .bool true)] else []

/-- A double in JSON; one that is not finite has no number there. -/
def Json.ofReal (x : Float) : Json :=
  if x.isFinite then .real x else .null

namespace ScrollDirection

def name : ScrollDirection → String
  | vertical => "vertical"
  | horizontal => "horizontal"

def ofName? : String → Option ScrollDirection
  | "vertical" => some vertical
  | "horizontal" => some horizontal
  | _ => none

end ScrollDirection

namespace TextFlow

def name : TextFlow → String
  | point => "point"
  | paragraph => "paragraph"

def ofName? : String → Option TextFlow
  | "point" => some point
  | "paragraph" => some paragraph
  | _ => none

end TextFlow

namespace Pivot

def toJson (p : Pivot) : Json := .text p.render

def read : Reader Pivot := fun v => do
  match parse (← readText v) with
  | .ok p => return p
  | .error _ => throw .mismatch

end Pivot

namespace ScrollerLayout

def toFields (l : ScrollerLayout Float) : List (String × Json) :=
  [("scroll", .text l.scroll.name)] ++ Json.fieldOf "paddingLeft" Json.ofReal l.paddingLeft ++
    Json.fieldOf "paddingRight" Json.ofReal l.paddingRight ++
    Json.fieldOf "paddingTop" Json.ofReal l.paddingTop ++
    Json.fieldOf "spacing" Json.ofReal l.spacing

def read : Reader (ScrollerLayout Float) :=
  Json.readObject [["scroll"], ["paddingLeft"], ["paddingRight"], ["paddingTop"], ["spacing"]]
    fun r => ScrollerLayout.mk
      <$> r.required "scroll" (readLooseChoice ScrollDirection.ofName?)
      <*> r.orElse "paddingLeft" none (readOptional readReal)
      <*> r.orElse "paddingRight" none (readOptional readReal)
      <*> r.orElse "paddingTop" none (readOptional readReal)
      <*> r.orElse "spacing" none (readOptional readReal)

end ScrollerLayout

namespace TextContent

def toFields (c : TextContent Float) : List (String × Json) :=
  [("text", .text c.text), ("textType", .text c.flow.name), ("font", .text c.font),
   ("size", Json.ofReal c.size), ("color", .text c.color), ("align", .text c.align),
   ("vh", Json.ofReal c.visualHeight)]

def read : Reader (TextContent Float) :=
  Json.readObject [["text"], ["textType"], ["font"], ["size"], ["color"], ["align"], ["vh"]]
    fun r => TextContent.mk
      <$> r.required "text" readText
      <*> r.required "textType" (readLooseChoice TextFlow.ofName?)
      <*> r.required "font" readText
      <*> r.required "size" readReal
      <*> r.required "color" readText
      <*> r.required "align" readText
      <*> r.required "vh" readReal

end TextContent

namespace ElementKind

def typeNames : List String :=
  ["Root", "Group", "Button", "Slider", "Scrollbar", "Toggle", "List", "Scroller", "Image", "Text",
   "TextMeshPro", "Input"]

/-- The fields that only this type has. -/
def toFields : ElementKind Float → List (String × Json)
  | root artboard => [("artboard", .bool artboard)]
  | list scroll => [("scroll", .text scroll.name)]
  | scroller layout => layout.toFields
  | image file => [("image", .text file)]
  | text content | richText content | input content => content.toFields
  | group | button | slider | scrollbar | toggle => []

/-- A type is given by its name or by its place in the list. -/
def readType : Reader String
  | .text s => .ok s
  | .whole n => Json.named (fun n : Int => if n < 0 then none else typeNames[n.toNat]?) n
  | v => .error v.refusal

/-- Reads the fields of that type from among those of the element. -/
def readFields : String → Reader (ElementKind Float)
  | "Root" => Json.readObject [["artboard"]] fun r => root <$> r.orElse "artboard" false readBool
  | "Group" => fun _ => .ok group
  | "Button" => fun _ => .ok button
  | "Slider" => fun _ => .ok slider
  | "Scrollbar" => fun _ => .ok scrollbar
  | "Toggle" => fun _ => .ok toggle
  | "List" => Json.readObject [["scroll"]] fun r =>
    list <$> r.required "scroll" (readLooseChoice ScrollDirection.ofName?)
  | "Scroller" => fun v => scroller <$> ScrollerLayout.read v
  | "Image" => Json.readObject [["image"]] fun r => image <$> r.required "image" readText
  | "Text" => fun v => text <$> TextContent.read v
  | "TextMeshPro" => fun v => richText <$> TextContent.read v
  | "Input" => fun v => input <$> TextContent.read v
  | _ => fun _ => .error .mismatch

def read : Reader (ElementKind Float) := fun v => do
  let type ← Json.readObject [["type"]] (fun r => r.required "type" readType) v
  readFields type v

end ElementKind

namespace Attributes

def toFields (a : Attributes Float) : List (String × Json) :=
  [("type", .text a.kind.typeName)] ++ a.kind.toFields ++ [("name", .text a.name)] ++
    Json.fieldOf "x" Json.ofReal a.x ++ Json.fieldOf "y" Json.ofReal a.y ++
    Json.fieldOf "w" Json.ofReal a.w ++ Json.fieldOf "h" Json.ofReal a.h ++
    Json.fieldOf "opacity" (fun n : Nat => Json.whole n) a.opacity ++
    Json.fieldOf "pivot" Pivot.toJson a.pivot ++
    Json.flagOf "stretchx" a.stretchX ++ Json.flagOf "stretchy" a.stretchY

/-- The attributes from the fields of an element; its kind is found among the other fields. -/
def ofRecord (r : Json.Record) : Parts (Attributes Float) :=
  Attributes.mk
    <$> r.rest ElementKind.read
    <*> r.required "name" readText
    <*> r.orElse "x" none (readOptional readReal)
    <*> r.orElse "y" none (readOptional readReal)
    <*> r.orElse "w" none (readOptional readReal)
    <*> r.orElse "h" none (readOptional readReal)
    <*> r.orElse "opacity" none (readOptional readCount)
    <*> r.orElse "pivot" none (readOptional Pivot.read)
    <*> r.orElse "stretchx" false readBool
    <*> r.orElse "stretchy" false readBool

end Attributes

namespace Element

mutual

def toJson : Element Float → Json
  | mk own none => .object own.toFields
  | mk own (some elements) => .object (own.toFields ++ [("elements", .array (listToJson elements))])

def listToJson : List (Element Float) → List Json
  | [] => []
  | e :: rest => toJson e :: listToJson rest

end

/-- Reads an element of at most so many levels. -/
def readWithin : Nat → Reader (Element Float)
  | 0 => fun _ => .error .malformed
  | levels + 1 =>
    Json.readObject [["name"], ["x"], ["y"], ["w"], ["h"], ["opacity"], ["pivot"], ["stretchx"],
        ["stretchy"], ["elements"]]
      fun r => mk <$> Attributes.ofRecord r
        <*> r.orElse "elements" none (readOptional (readList (readWithin levels)))

/-- An element has no more levels than its text has nested objects, and at least its own. -/
def read : Reader (Element Float) := fun v =>
  readWithin (v.depth + 1) v

end Element

namespace CanvasRect

def toJson (r : CanvasRect Float) : Json :=
  .object (Json.fieldOf "x" Json.ofReal r.x ++ Json.fieldOf "y" Json.ofReal r.y ++
    [("w", Json.ofReal r.w), ("h", Json.ofReal r.h)])

def read : Reader (CanvasRect Float) :=
  Json.readRecord [["x"], ["y"], ["w"], ["h"]]
    fun r => CanvasRect.mk
      <$> r.orElse "x" none (readOptional readReal)
      <*> r.orElse "y" none (readOptional readReal)
      <*> r.required "w" readReal
      <*> r.required "h" readReal

end CanvasRect

namespace Canvas

def toJson (c : Canvas Float) : Json :=
  .object [("image", c.image.toJson), ("size", c.size.toJson), ("base", c.base.toJson)]

def read : Reader (Canvas Float) :=
  Json.readRecord [["image"], ["size"], ["base"]]
    fun r => Canvas.mk
      <$> r.required "image" CanvasRect.read
      <*> r.required "size" CanvasRect.read
      <*> r.required "base" CanvasRect.read

end Canvas

namespace Document

def toJson (d : Document Float) : Json :=
  .object
    [("info", .object [("version", .text d.version), ("canvas", d.canvas.toJson)]),
     ("root", d.root.toJson)]

def readInfo : Reader (String × Canvas Float) :=
  Json.readRecord [["version"], ["canvas"]]
    fun r => Prod.mk <$> r.required "version" readText <*> r.required "canvas" Canvas.read

def read : Reader (Document Float) :=
  Json.readRecord [["info"], ["root"]]
    fun r => (fun (version, canvas) root => Document.mk version canvas root)
      <$> r.required "info" readInfo
      <*> r.required "root" Element.read

/-- The document as it is written to its file. -/
def text (d : Document Float) : String :=
  d.toJson.pretty

end Document
end DesignLayout
