import DesignLayout.Json.Basic

/-!
JSON texts, as far as they are JSON.

A text is read from the front, and what its reader needs of it is looked at on the way. A `Source`
therefore keeps what is wrong with a text at the place where it is wrong: whatever stands before has
been read by then, and a value that nobody asks for is passed over whenever its shape is right.
Where a text stops being JSON its last array or object ends in something `broken`.
-/
namespace DesignLayout.Json

inductive Source
  | null
  | bool (value : Bool)
  | whole (value : Int)
  | real (value : Float)
  | text (value : String)
  | array (items : List Source)
  /-- Fields in the order of the text, repeated names included; a name may be unreadable. -/
  | object (fields : List (Option String × Source))
  /-- A number beyond all doubles, or a text with half of a surrogate pair: the right shape, but no
  value. -/
  | unreadable
  /-- An array or object that stands deeper than values are read. -/
  | tooDeep (value : Source)
  /-- What stands here is no JSON, and nothing after it is known. -/
  | broken

namespace Source

mutual

/-- Whether the value can be passed over. -/
def passes : Source → Bool
  | array items => itemsPass items
  | object fields => fieldsPass fields
  | tooDeep value => passes value
  | broken => false
  | _ => true

def itemsPass : List Source → Bool
  | [] => true
  | item :: rest => passes item && itemsPass rest

def fieldsPass : List (Option String × Source) → Bool
  | [] => true
  | (_, value) :: rest => passes value && fieldsPass rest

end

mutual

/-- Whether the value can be read in full. -/
def isSound : Source → Bool
  | array items => itemsSound items
  | object fields => fieldsSound fields
  | unreadable | tooDeep _ | broken => false
  | _ => true

def itemsSound : List Source → Bool
  | [] => true
  | item :: rest => isSound item && itemsSound rest

def fieldsSound : List (Option String × Source) → Bool
  | [] => true
  | (name, value) :: rest => name.isSome && isSound value && fieldsSound rest

end

mutual

/-- How many arrays and objects stand within one another. -/
def depth : Source → Nat
  | array items => depthOfItems items + 1
  | object fields => depthOfFields fields + 1
  | _ => 0

def depthOfItems : List Source → Nat
  | [] => 0
  | item :: rest => max (depth item) (depthOfItems rest)

def depthOfFields : List (Option String × Source) → Nat
  | [] => 0
  | (_, value) :: rest => max (depth value) (depthOfFields rest)

end

/-! ### Texts of values -/

mutual

/-- What the text of a value is read as, unless the value is nested too deeply. -/
def ofJson : Json → Source
  | .null => null
  | .bool value => bool value
  | .whole value => whole value
  | .real value => real value
  | .text value => text value
  | .array items => array (ofItems items)
  | .object fields => object (ofFields fields)

def ofItems : List Json → List Source
  | [] => []
  | item :: rest => ofJson item :: ofItems rest

def ofFields : List (String × Json) → List (Option String × Source)
  | [] => []
  | (name, value) :: rest => (some name, ofJson value) :: ofFields rest

end

mutual

@[simp] theorem isSound_ofJson : ∀ v : Json, (ofJson v).isSound = true
  | .null | .bool _ | .whole _ | .real _ | .text _ => rfl
  | .array items => itemsSound_ofItems items
  | .object fields => fieldsSound_ofFields fields

@[simp] theorem itemsSound_ofItems : ∀ items : List Json, itemsSound (ofItems items) = true
  | [] => rfl
  | item :: rest => by simp [ofItems, itemsSound, isSound_ofJson item, itemsSound_ofItems rest]

@[simp] theorem fieldsSound_ofFields :
    ∀ fields : List (String × Json), fieldsSound (ofFields fields) = true
  | [] => rfl
  | (_, value) :: rest => by
    simp [ofFields, fieldsSound, isSound_ofJson value, fieldsSound_ofFields rest]

end
end Source
end DesignLayout.Json
