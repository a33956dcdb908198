/-!
# Arguments of a Command

How a list of arguments is read as options. An option has a name after two hyphens, and
may have a letter after one. A flag stands alone, and the values of other options follow:
attached to the name with an equals sign or to the letter, or as the next arguments.

The values of an option are read when it is settled: when the next option starts, or at
the end. So of two faults the first in the list counts, except that an argument no option
fits is found before the option in front of it is settled.

## Main definitions

* `UsageError`: Why arguments are not run.
* `CommandOption`: Options, for a request under construction.
* `Reading.step`: One argument.
* `readArguments`: The request that arguments make.
-/

namespace TypeSketch

/-- Why arguments make no request. Asking for help is a reason too. -/
inductive UsageError where
  | helpWanted
  | versionWanted
  | commandMissing
  | unknownCommand
  | unknownArgument
  | requiredMissing
  | valueMissing
  | valueNotAmong
  | valueRejected
  | givenTwice
  | valueUnwanted
deriving Repr, DecidableEq

/-- How many values an option takes. -/
inductive Arity where
  | none
  | one
  | many
deriving Repr, DecidableEq

/-- An option, with what its values change in a request. -/
structure CommandOption (σ : Type) where
  name : String
  letter : Option Char := none
  arity : Arity
  takesNegatives : Bool := false
  required : Bool := false
  set : σ → List String → Except UsageError σ

namespace CommandOption

variable {σ τ : Type}

/-- A flag. -/
def flag (name : String) (set : σ → σ) : CommandOption σ where
  name := name
  arity := .none
  set s _ := .ok (set s)

/-- An option with one value. -/
def valued {α : Type} (name : String) (read : String → Except UsageError α) (set : σ → α → σ) :
    CommandOption σ where
  name := name
  arity := .one
  set s values := (read (values.headD "")).map (set s)

/-- The option for a part of a request. -/
def lift (get : τ → σ) (put : τ → σ → τ) (o : CommandOption σ) : CommandOption τ where
  name := o.name
  letter := o.letter
  arity := o.arity
  takesNegatives := o.takesNegatives
  required := o.required
  set t values := (o.set (get t) values).map (put t)

/-- The option that asks for help. -/
def help : CommandOption σ where
  name := "help"
  letter := some 'h'
  arity := .none
  set _ _ := .error .helpWanted

end CommandOption

/-- The form of an argument. -/
inductive ArgumentForm where
  | separator
  | named (name : String) (value : Option String)
  | letters (letters : List Char)
  | plain
deriving Repr, DecidableEq

/-- The form that an argument has. A single hyphen is plain. -/
def ArgumentForm.of (argument : String) : ArgumentForm :=
  match argument.toList with
  | ['-', '-'] => .separator
  | '-' :: '-' :: rest =>
    let value := match rest.dropWhile (· ≠ '=') with
      | [] => none
      | _ :: value => some (String.ofList value)
    .named (String.ofList (rest.takeWhile (· ≠ '='))) value
  | '-' :: c :: rest => .letters (c :: rest)
  | _ => .plain

/-- Whether the characters after a hyphen look like a number: digits with at most one
    point, which is not first, and then at most one letter `e`, which is neither first
    nor last. -/
def looksLikeNumber (cs : List Char) : Bool :=
  let mantissa := cs.takeWhile (· ≠ 'e')
  let isMantissa := mantissa.all (fun c => c.isDigit || c = '.') && mantissa.count '.' ≤ 1 &&
    mantissa.head? ≠ some '.'
  isMantissa &&
    match cs.dropWhile (· ≠ 'e') with
    | [] => true
    | _ :: exponent => !mantissa.isEmpty && !exponent.isEmpty && exponent.all Char.isDigit

/-- What has been read so far: the request, the options that are settled, and the option
    whose values may go on. -/
structure Reading (σ : Type) where
  request : σ
  settled : List String := []
  current : Option (CommandOption σ × List String) := none

namespace Reading

variable {σ : Type}

/-- The reading with an option given. -/
def give (r : Reading σ) (o : CommandOption σ) (values : List String) :
    Except UsageError (Reading σ) :=
  if o.arity ≠ .none ∧ values = [] then .error .valueMissing
  else if o.arity ≠ .many ∧ o.name ∈ r.settled then .error .givenTwice
  else (o.set r.request values).map fun request =>
    { request, settled := o.name :: r.settled, current := none }

/-- The reading with the current option given. -/
def settle (r : Reading σ) : Except UsageError (Reading σ) :=
  match r.current with
  | none => .ok r
  | some (o, values) => r.give o values

/-- The reading at the start of an option, with a value that is attached to it. -/
def start (r : Reading σ) (o : CommandOption σ) (attached : Option String) :
    Except UsageError (Reading σ) :=
  match o.arity, attached with
  | .none, none => do (← r.settle).give o []
  | .none, some _ => .error .valueUnwanted
  | _, some value => do (← r.settle).give o [value]
  | _, none => do return { ← r.settle with current := some (o, []) }

/-- The current option, if it takes another value. -/
def open? (r : Reading σ) : Option (CommandOption σ × List String) :=
  r.current.filter fun (o, values) => o.arity = .many || values.isEmpty

/-- Reads letters, each of an option. What follows the letter of an option with values is
    the value, after an equals sign or directly. -/
def readLetters (options : List (CommandOption σ)) (r : Reading σ) :
    List Char → Except UsageError (Reading σ)
  | [] => .ok r
  | c :: rest =>
    match options.find? fun o => o.letter = some c with
    | none => .error .unknownArgument
    | some o =>
      if o.arity = .none then do readLetters options (← r.start o none) rest
      else
        match rest with
        | [] => r.start o none
        | '=' :: value => r.start o (some (String.ofList value))
        | value => r.start o (some (String.ofList value))

/-- Reads an argument as a value of the current option. -/
def readValue (r : Reading σ) (argument : String) : Except UsageError (Reading σ) :=
  match r.open? with
  | some (o, values) => .ok { r with current := some (o, values ++ [argument]) }
  | none => .error .unknownArgument

/-- Reads an argument that does not separate. -/
def step (options : List (CommandOption σ)) (r : Reading σ) (argument : String) :
    Except UsageError (Reading σ) :=
  match ArgumentForm.of argument with
  | .named name value =>
    match options.find? (·.name = name) with
    | some o => r.start o value
    | none => .error .unknownArgument
  | .letters cs =>
    if r.open?.any (·.1.takesNegatives) && looksLikeNumber cs then r.readValue argument
    else r.readLetters options cs
  | _ => r.readValue argument

/-- The request of a reading that has come to its end. -/
def finish (options : List (CommandOption σ)) (r : Reading σ) : Except UsageError σ := do
  let r ← r.settle
  if options.any fun o => o.required && !r.settled.contains o.name then .error .requiredMissing
  else return r.request

/-- Reads arguments. Nothing may follow a separator, which is two hyphens. -/
def run (options : List (CommandOption σ)) (r : Reading σ) : List String → Except UsageError σ
  | [] => r.finish options
  | argument :: rest =>
    if ArgumentForm.of argument = .separator then
      if rest.isEmpty then r.finish options else .error .unknownArgument
    else do (← r.step options argument).run options rest

end Reading

/-- The request that arguments make from the one without any. -/
def readArguments {σ : Type} (options : List (CommandOption σ)) (initial : σ)
    (arguments : List String) : Except UsageError σ :=
  Reading.run (.help :: options) { request := initial } arguments

end TypeSketch
