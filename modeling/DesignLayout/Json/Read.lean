import DesignLayout.Json.Token

/-!
Reading JSON.

The reader takes one token after the other and keeps the arrays and objects that are still open.
A text is one value. Arrays and objects that stand more than `maxDepth` deep within one another are
marked. When a token fits nowhere, or the text ends too early, all that is open is closed around
something broken.
-/
namespace DesignLayout.Json

def maxDepth : Nat := 127

/-- An array or object that is waiting for a value; what it holds so far stands latest first. -/
inductive Frame
  | item (items : List Source)
  | field (fields : List (Option String × Source)) (name : Option String)

/-- An array or object that stands within the open ones. -/
def limited (outer : List Frame) (value : Source) : Source :=
  if outer.length < maxDepth then value else .tooDeep value

/-- Closes all that is open around a value. -/
def closeAll (value : Source) : List Frame → Source
  | [] => value
  | .item items :: outer => closeAll (limited outer (.array (value :: items).reverse)) outer
  | .field fields name :: outer =>
    closeAll (limited outer (.object ((name, value) :: fields).reverse)) outer

/-- What may come next. -/
inductive Progress
  | awaitValue (outer : List Frame)
  | awaitFirstItem (outer : List Frame)
  | awaitItemEnd (items : List Source) (outer : List Frame)
  | awaitFirstName (outer : List Frame)
  | awaitName (fields : List (Option String × Source)) (outer : List Frame)
  | awaitColon (fields : List (Option String × Source)) (name : Option String) (outer : List Frame)
  | awaitFieldEnd (fields : List (Option String × Source)) (outer : List Frame)
  | done (value : Source)
  /-- The text is no JSON, be it that it breaks off or that more follows. -/
  | spoilt (value : Source)

namespace Progress

/-- What is open, with the place that is waiting for a value. -/
def frames : Progress → List Frame
  | awaitValue outer => outer
  | awaitFirstItem outer => .item [] :: outer
  | awaitItemEnd items outer => .item items :: outer
  | awaitFirstName outer => .field [] none :: outer
  | awaitName fields outer | awaitFieldEnd fields outer => .field fields none :: outer
  | awaitColon fields name outer => .field fields name :: outer
  | done _ | spoilt _ => []

/-- The value of the text, and whether the text is JSON. -/
def outcome : Progress → Source × Bool
  | done value => (value, true)
  | spoilt value => (value, false)
  | p => (closeAll .broken p.frames, false)

/-- Hands a complete value to the innermost open array or object. -/
def deliver (value : Source) : List Frame → Progress
  | [] => done value
  | .item items :: outer => awaitItemEnd (value :: items) outer
  | .field fields name :: outer => awaitFieldEnd ((name, value) :: fields) outer

/-- What follows a token at which a value may begin. -/
def begin? (outer : List Frame) : Token → Option Progress
  | .text (some s) => some (deliver (.text s) outer)
  | .text none => some (deliver .unreadable outer)
  | .scalar v => some (deliver v outer)
  | .openArray => some (awaitFirstItem outer)
  | .openObject => some (awaitFirstName outer)
  | _ => none

def next? : Progress → Token → Option Progress
  | awaitValue outer, t => begin? outer t
  | awaitFirstItem outer, .closeArray => some (deliver (limited outer (.array [])) outer)
  | awaitFirstItem outer, t => begin? (.item [] :: outer) t
  | awaitItemEnd items outer, .comma => some (awaitValue (.item items :: outer))
  | awaitItemEnd items outer, .closeArray =>
    some (deliver (limited outer (.array items.reverse)) outer)
  | awaitFirstName outer, .closeObject => some (deliver (limited outer (.object [])) outer)
  | awaitFirstName outer, .text s => some (awaitColon [] s outer)
  | awaitName fields outer, .text s => some (awaitColon fields s outer)
  | awaitColon fields s outer, .colon => some (awaitValue (.field fields s :: outer))
  | awaitFieldEnd fields outer, .comma => some (awaitName fields outer)
  | awaitFieldEnd fields outer, .closeObject =>
    some (deliver (limited outer (.object fields.reverse)) outer)
  | _, _ => none

def step (p : Progress) (t : Token) : Progress :=
  (next? p t).getD (spoilt p.outcome.1)

end Progress

/-- The value of a text, and whether the text is JSON. -/
def Source.ofText (s : String) : Source × Bool :=
  ((Token.scan s.toList).foldl Progress.step (.awaitValue [])).outcome

end DesignLayout.Json
