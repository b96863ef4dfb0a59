/-!
Command-line arguments.

A command has positional arguments, switches and options with a value. An option's value is the next
argument, unless that begins with a hyphen, or follows an equals sign; the value of a one-letter
option may also follow at once. After `--` every argument is positional, and a single hyphen always
is. Switches and options may be given once, except those that collect values, and paths may not
be empty.
-/
namespace DesignLayout.CommandLine

/-- What follows an option's name. -/
inductive Takes
  | nothing
  | text
  /-- A text that may not be empty. -/
  | path
  deriving DecidableEq, Repr

structure OptionRule where
  name : String
  letter : Option Char := none
  takes : Takes
  repeats : Bool := false

structure CommandRule where
  options : List OptionRule
  /-- The positional arguments, all of which must be given. -/
  positional : List Takes

/-- The arguments that were given. -/
structure Given where
  options : List (String × String)
  positional : List String

namespace Given

def value? (g : Given) (name : String) : Option String :=
  g.options.lookup name

def has (g : Given) (name : String) : Bool :=
  (g.value? name).isSome

def values (g : Given) (name : String) : List String :=
  (g.options.filter (·.1 == name)).map (·.2)

end Given

def Takes.admits : Takes → String → Bool
  | path, s => !s.isEmpty
  | _, _ => true

/-- An option as it was written: its rule, and a value written into the same argument. -/
abbrev Written := OptionRule × Option String

/-- The name and value of a long option. -/
def CommandRule.long? (c : CommandRule) (body : List Char) : Option Written :=
  let name := String.ofList (body.takeWhile (· != '='))
  let value := match body.dropWhile (· != '=') with
    | [] => none
    | _ :: value => some (String.ofList value)
  (c.options.find? (·.name == name)).map (·, value)

/-- A one-letter option and what follows the letter. -/
def CommandRule.short? (c : CommandRule) (letter : Char) (rest : List Char) : Option Written :=
  let value := match rest with
    | [] => none
    | '=' :: value => some (String.ofList value)
    | value => some (String.ofList value)
  (c.options.find? (·.letter == some letter)).map (·, value)

def CommandRule.option? (c : CommandRule) (arg : String) : Option Written :=
  match arg.toList with
  | '-' :: '-' :: body => c.long? body
  | '-' :: letter :: rest => c.short? letter rest
  | _ => none

/-- Whether an argument is written like an option. -/
def looksLikeOption (arg : String) : Bool :=
  match arg.toList with
  | '-' :: _ :: _ => true
  | _ => false

/-- The arguments sorted out, `none` when they break a rule. -/
def CommandRule.sort? (c : CommandRule) : List String → Option Given
  | [] => some ⟨[], []⟩
  | arg :: rest =>
    if arg = "--" then some ⟨[], rest⟩
    else if looksLikeOption arg then
      match c.option? arg with
      | none => none
      | some (rule, value) =>
        match rule.takes, value with
        | .nothing, none =>
          (c.sort? rest).map fun g => { g with options := (rule.name, "") :: g.options }
        | .nothing, some _ => none
        | _, some value =>
          (c.sort? rest).map fun g => { g with options := (rule.name, value) :: g.options }
        | _, none => match rest with
          | [] => none
          | value :: rest =>
            if looksLikeOption value then none
            else (c.sort? rest).map fun g => { g with options := (rule.name, value) :: g.options }
    else (c.sort? rest).map fun g => { g with positional := arg :: g.positional }

def CommandRule.accepts (c : CommandRule) (g : Given) : Bool :=
  (c.options.all fun rule =>
    let values := g.values rule.name
    (rule.repeats || values.length ≤ 1) && values.all rule.takes.admits) &&
    g.positional.length == c.positional.length &&
    (List.zip c.positional g.positional).all fun (takes, s) => takes.admits s

def CommandRule.read? (c : CommandRule) (args : List String) : Option Given :=
  (c.sort? args).filter c.accepts

end DesignLayout.CommandLine
