import DesignLayout.Label.Directive
import DesignLayout.Text.Blank

/-!
Layer labels.

A label is cut at every `@`. Its first piece, trimmed, is the surface name: one leading `#`
comments the layer out, one leading `*` makes it a picture, and one trailing `/` makes it a
sub-prefab, each stripped at most once and in this order. The other pieces are annotations, `key`
or `key=value`, of which the last for a key counts. At last the remaining name gives roles by its
ending or by a whole word, and these override the annotations. Inside a repeated grid every cell is
named alike, because the design tool gives the cells names that could match a role.
-/
namespace DesignLayout

/-- A label after reading: the name to display, and what it asks of the compiler. -/
structure Label where
  name : String
  directives : Directives

namespace Label

/-- The name of every cell of a repeated grid. -/
def gridCellName : String := "item0"

/-- The directive and value of one annotation, if it names a directive. -/
def annotated? (piece : List Char) : Option (Directive × Directive.Value) :=
  match Text.cutAt '=' (Text.trimmed piece) with
  | (key, none) => (Directive.ofSpelling? key).map (·, .flag true)
  | (key, some value) =>
    (Directive.ofSpelling? (Text.trimmed key)).map
      (·, .text (String.ofList (Text.trimmed value)))

def ofAnnotations (texts : List (List Char)) : Directives :=
  texts.foldl (fun ds piece =>
    match annotated? piece with
    | some (d, v) => ds.insert d v
    | none => ds) .empty

/-- The text without one leading `c`, and whether there was one. -/
def stripFirst (c : Char) : List Char → List Char × Bool
  | [] => ([], false)
  | d :: cs => if d = c then (cs, true) else (d :: cs, false)

/-- The text without one trailing `c`, and whether there was one. -/
def stripLast (c : Char) (cs : List Char) : List Char × Bool :=
  let (rest, found) := stripFirst c cs.reverse
  (rest.reverse, found)

/-- How a name takes a role: by one of these endings, or by being this word. -/
structure NameRule where
  role : Directive
  endings : List String
  word : Option String := none
  extendedOnly : Bool := false

def nameRules : List NameRule :=
  [{ role := .image, endings := ["Image", "_image"], word := some "image" },
   { role := .button, endings := ["Button", "_button"], word := some "button" },
   { role := .slider, endings := ["Slider"] },
   { role := .scrollbar, endings := ["Scrollbar"] },
   { role := .text, endings := ["Text", "_text"], word := some "text" },
   { role := .toggle, endings := ["Toggle"] },
   { role := .list, endings := ["List"] },
   { role := .input, endings := ["Input"], extendedOnly := true },
   { role := .scroller, endings := ["Scroller"], extendedOnly := true }]

def hasEnding (name : List Char) (ending : String) : Bool :=
  ending.toList.isSuffixOf name

def NameRule.accepts (rule : NameRule) (extended : Bool) (name : List Char) : Bool :=
  (extended || !rule.extendedOnly) &&
    (rule.endings.any (hasEnding name) || rule.word.any (·.toList == name))

/-- The roles that a name takes by itself. -/
def rolesOf (extended : Bool) (name : List Char) : List Directive :=
  (nameRules.filter (·.accepts extended name)).map (·.role)

def addAll (ds : Directives) (roles : List Directive) : Directives :=
  roles.foldl .add ds

def addIf (found : Bool) (d : Directive) (ds : Directives) : Directives :=
  if found then ds.add d else ds

/-- A surface name without its markers, and which of the markers it had. -/
structure Surface where
  name : List Char
  commentedOut : Bool
  picture : Bool
  subPrefab : Bool

def Surface.ofChars (cs : List Char) : Surface :=
  let (cs, commentedOut) := stripFirst '#' cs
  let (cs, picture) := stripFirst '*' cs
  let (cs, subPrefab) := stripLast '/' cs
  { name := cs, commentedOut, picture, subPrefab }

/-- Reads a label. `inGrid` says that the layer is a cell of a repeated grid, and `extended`
admits the roles of inputs and scrollers by name. -/
def parse (label : String) (inGrid extended : Bool) : Label :=
  let texts := Text.pieces '@' label.toList
  let surface := Surface.ofChars (Text.trimmed (texts.headD []))
  let name := if inGrid then gridCellName.toList else surface.name
  let marked := addIf surface.subPrefab .subPrefab
    (addIf surface.picture .image (addIf surface.commentedOut .commentOut
      (ofAnnotations (texts.drop 1))))
  { name := String.ofList name, directives := addAll marked (rolesOf extended name) }

end Label
end DesignLayout
