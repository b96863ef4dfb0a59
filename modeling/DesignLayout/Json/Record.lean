import DesignLayout.Json.Read

/-!
Taking values out of JSON.

A `Reader` gives the value that it is looking for, or says why there is none: the text is no JSON,
or it holds something else. What a reader does not need is passed over. Of several faults the one
that comes first in the text counts; a missing field is noticed at the end.

A record is an object whose fields are found by name, or a list of its fields in the order of their
declaration from which the last ones may be missing. An object may hold other fields, but no field
of the record twice. A list that goes on after the last field counts as no JSON, and so does a
choice that is neither a text nor an object of one field.
-/
namespace DesignLayout

/-- Why a JSON text was refused: it is no JSON, or it does not fit the expected shape. -/
inductive Refusal
  | malformed
  | mismatch
  deriving DecidableEq, Repr

namespace Json

abbrev Reader (β : Type) := Source → Except Refusal β

/-- Reads a text. -/
def decode {β : Type} (read : Reader β) (s : String) : Except Refusal β := do
  let (value, complete) := Source.ofText s
  let b ← read value
  if complete then return b else throw .malformed

namespace Source

/-- Why a value is not the scalar that was expected. -/
def refusal : Source → Refusal
  | unreadable | broken => .malformed
  | _ => .mismatch

/-- Why a value is not the array that was expected. -/
def arrayRefusal : Source → Refusal
  | tooDeep (array _) => .malformed
  | v => v.refusal

/-- Why a value is not the object that was expected. -/
def objectRefusal : Source → Refusal
  | tooDeep (object _) => .malformed
  | v => v.refusal

/-- Why a value is neither the array nor the object that was expected. -/
def recordRefusal : Source → Refusal
  | tooDeep _ => .malformed
  | v => v.refusal

end Source

/-! ### Values -/

def readBool : Reader Bool
  | .bool b => .ok b
  | v => .error v.refusal

def readText : Reader String
  | .text s => .ok s
  | v => .error v.refusal

/-- Any number as a double. -/
def readReal : Reader Float
  | .whole n => .ok (Float.ofInt n)
  | .real x => .ok x
  | v => .error v.refusal

/-- A whole number of 32 bits without a sign. -/
def readCount : Reader Nat
  | .whole n => if 0 ≤ n ∧ n < 0x100000000 then .ok n.toNat else .error .mismatch
  | v => .error v.refusal

/-- `null` stands for an absent value. -/
def readOptional {β : Type} (read : Reader β) : Reader (Option β)
  | .null => .ok none
  | v => some <$> read v

def readList {β : Type} (read : Reader β) : Reader (List β)
  | .array items => items.mapM read
  | v => .error v.arrayRefusal

/-- The value of that name. -/
def named {ν β : Type} (ofName : ν → Option β) (name : ν) : Except Refusal β :=
  match ofName name with
  | some b => .ok b
  | none => .error .mismatch

/-- One of several names; it may also be written as an object with that name alone and `null`. -/
def readChoice {β : Type} (ofName : String → Option β) : Reader β
  | .text s => named ofName s
  | .object ((some s, v) :: rest) => do
    let b ← named ofName s
    match v, rest with
    | .null, [] => return b
    | .null, _ :: _ => throw .malformed
    | v, _ => throw v.refusal
  | _ => .error .malformed

/-- The same, for a value that is known to be sound: `null` may also be an empty object. -/
def readLooseChoice {β : Type} (ofName : String → Option β) : Reader β
  | .text s | .object [(some s, .null)] | .object [(some s, .object [])] => named ofName s
  | _ => .error .mismatch

/-! ### Records -/

/-- What came of reading several parts of a text: a value made of all, or the first fault with its
place. -/
inductive Parts (β : Type)
  | all (value : β)
  | fault (place : Nat) (why : Refusal)

namespace Parts

variable {β γ : Type}

/-- Puts the parts together. Of two faults at one place the former counts. -/
def combine : Parts (β → γ) → Parts β → Parts γ
  | all f, all b => all (f b)
  | all _, fault q w => fault q w
  | fault p v, all _ => fault p v
  | fault p v, fault q w => if q < p then fault q w else fault p v

instance : Applicative Parts where
  pure := all
  seq f b := combine f (b ())

/-- A part that stands at a place. -/
def placed (place : Nat) : Except Refusal β → Parts β
  | .ok b => all b
  | .error why => fault place why

def toExcept : Parts β → Except Refusal β
  | all b => .ok b
  | fault _ why => .error why

end Parts

/-- The fields of a record as they were found. -/
structure Record where
  /-- The fields by their first names, with their places and values. -/
  fields : List (String × Nat × Source)
  /-- The fields of the object that are none of the record's. -/
  others : List (Option String × Source)
  /-- The place behind all fields. -/
  finish : Nat

namespace Record

variable {β : Type}

/-- The field must be there. -/
def required (r : Record) (name : String) (read : Reader β) : Parts β :=
  match r.fields.lookup name with
  | some (place, v) => .placed place (read v)
  | none => .fault r.finish .mismatch

/-- The field may be left out and then has a default. -/
def orElse (r : Record) (name : String) (default : β) (read : Reader β) : Parts β :=
  match r.fields.lookup name with
  | some (place, v) => .placed place (read v)
  | none => .all default

/-- Reads the other fields, when all fields have been looked at. -/
def rest (r : Record) (read : Reader β) : Parts β :=
  .placed r.finish (read (.object r.others))

/-- Sorts out the fields that follow those of `r`; `keeps` tells which values other fields may
have. Gives the fields up to the first fault, and the fault. -/
def collect (names : List (List String)) (keeps : Source → Bool) (r : Record) :
    List (Option String × Source) → Record × Parts Unit
  | [] => (r, .all ())
  | (none, _) :: _ => (r, .fault r.finish .malformed)
  | (some name, v) :: rest =>
    match names.find? (·.contains name) with
    | some known =>
      let field := known.headD name
      if (r.fields.lookup field).isSome then (r, .fault r.finish .mismatch)
      else collect names keeps
        { r with fields := (field, r.finish, v) :: r.fields, finish := r.finish + 1 } rest
    | none =>
      if keeps v then
        collect names keeps
          { r with others := r.others ++ [(some name, v)], finish := r.finish + 1 } rest
      else (r, .fault r.finish .malformed)

/-- The record of a list, and the fault of a list that is too long. -/
def ofList (names : List (List String)) (items : List Source) : Record × Parts Unit :=
  let fields := (names.zip items).zipIdx.map fun ((names, v), place) => (names.headD "", place, v)
  ({ fields, others := [], finish := names.length },
    if items.length ≤ names.length then .all () else .fault names.length .malformed)

end Record

/-- Reads a record written as an object or as a list; each field comes with its possible names. -/
def readRecord {β : Type} (names : List (List String)) (body : Record → Parts β) : Reader β
  | .object fields =>
    let (r, fault) := Record.collect names Source.passes ⟨[], [], 0⟩ fields
    (fault *> body r).toExcept
  | .array items =>
    let (r, fault) := Record.ofList names items
    (fault *> body r).toExcept
  | v => .error v.recordRefusal

/-- Reads an object whose other fields are kept for other readers: their values must be sound. -/
def readObject {β : Type} (names : List (List String)) (body : Record → Parts β) : Reader β
  | .object fields =>
    let (r, fault) := Record.collect names Source.isSound ⟨[], [], 0⟩ fields
    (fault *> body r).toExcept
  | v => .error v.objectRefusal

end Json
end DesignLayout
