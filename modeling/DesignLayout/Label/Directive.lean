import DesignLayout.Text.Quoted
import DesignLayout.Text.Split

/-!
Directives: what a label asks of the compiler beyond a display name.

Each directive has one spelling, found without regard to the case of ASCII letters. The directives
of one label are a finite map from directives to values, listed in the fixed order of
`Directive.all`. A directive is in force when it is present with a value that does not deny it:
`false`, the empty text, `0`, and `false` or `null` in any case deny.
-/
namespace DesignLayout

inductive Directive
  | commentOut
  | subPrefab
  | button
  | slider
  | scrollbar
  | image
  | text
  | input
  | toggle
  | list
  | scroller
  deriving DecidableEq, Repr

namespace Directive

def all : List Directive :=
  [commentOut, subPrefab, button, slider, scrollbar, image, text, input, toggle, list, scroller]

theorem mem_all (d : Directive) : d ∈ all := by
  cases d <;> decide

def spelling : Directive → String
  | commentOut => "commentout"
  | subPrefab => "subPrefab"
  | button => "button"
  | slider => "slider"
  | scrollbar => "scrollbar"
  | image => "image"
  | text => "text"
  | input => "input"
  | toggle => "toggle"
  | list => "list"
  | scroller => "scroller"

def ofSpelling? (key : List Char) : Option Directive :=
  all.find? fun d => Text.sameIgnoringCase d.spelling.toList key

inductive Value
  | flag (on : Bool)
  | text (content : String)
  deriving DecidableEq, Repr

namespace Value

def holds : Value → Bool
  | flag on => on
  | text content =>
    let cs := content.toList
    !(cs.isEmpty || Text.sameIgnoringCase cs "false".toList || cs == ['0'] ||
      Text.sameIgnoringCase cs "null".toList)

def render : Value → String
  | flag true => "true"
  | flag false => "false"
  | text content => Text.quoted content

end Value
end Directive

/-- The directives of one label. -/
structure Directives where
  value : Directive → Option Directive.Value

namespace Directives

def empty : Directives := ⟨fun _ => none⟩

def insert (ds : Directives) (d : Directive) (v : Directive.Value) : Directives :=
  ⟨fun e => if e = d then some v else ds.value e⟩

/-- Puts the directive in force. -/
def add (ds : Directives) (d : Directive) : Directives :=
  ds.insert d (.flag true)

def erase (ds : Directives) (d : Directive) : Directives :=
  ⟨fun e => if e = d then none else ds.value e⟩

/-- Present, with a value that does not deny it. -/
def has (ds : Directives) (d : Directive) : Bool :=
  (ds.value d).any Directive.Value.holds

def entries (ds : Directives) : List (Directive × Directive.Value) :=
  Directive.all.filterMap fun d => (ds.value d).map (d, ·)

def size (ds : Directives) : Nat :=
  ds.entries.length

def isEmpty (ds : Directives) : Bool :=
  ds.entries.isEmpty

def renderEntry (entry : Directive × Directive.Value) : String :=
  entry.1.spelling ++ ": " ++ entry.2.render

def render (ds : Directives) : String :=
  "\x7b" ++ String.intercalate ", " (ds.entries.map renderEntry) ++ "\x7d"

@[ext]
theorem ext {a b : Directives} (h : ∀ d, a.value d = b.value d) : a = b := by
  cases a; cases b; simp only [mk.injEq]; exact funext h

@[simp]
theorem value_empty (d : Directive) : empty.value d = none := rfl

@[simp]
theorem value_insert (ds : Directives) (d e : Directive) (v : Directive.Value) :
    (ds.insert d v).value e = if e = d then some v else ds.value e := rfl

@[simp]
theorem value_add (ds : Directives) (d e : Directive) :
    (ds.add d).value e = if e = d then some (.flag true) else ds.value e := rfl

@[simp]
theorem value_erase (ds : Directives) (d e : Directive) :
    (ds.erase d).value e = if e = d then none else ds.value e := rfl

end Directives
end DesignLayout
