import TypeSketch.Command.Arguments
import TypeSketch.Store.Basic
import TypeSketch.Strategies.Format

/-!
# Requests

What a command line asks for: to render one value, to store the classes of many values,
or to remove a store. The first argument names the request and the others are its
options.

## Main definitions

* `InputOptions`, `StrategyOptions`: Parts that requests share.
* `Request`: Requests.
* `Request.parse`: The request of a command line.
-/

namespace TypeSketch

/-- Which values are read, and how. -/
structure InputOptions where
  byLine : Bool := false
  pointer : Option String := none
  arrays : SequenceKind := .list
  inputs : List String := []
deriving Repr, DecidableEq

/-- Strategies from a file, and choices that go before those of the file. -/
structure StrategyOptions where
  file : Option String := none
  listStyle : Option ListStyle := none
  tupleSize : Option TupleSize := none
  dictStyle : Option DictStyle := none
  aliasHeight : Option Int := none
  docKey : Option String := none
  similarity : Option Int := none
  readOnly : Bool := false
deriving Repr, DecidableEq

structure RenderRequest where
  input : InputOptions := {}
  strategies : StrategyOptions := {}
  className : String := "Root"
  out : Option String := none
  isIdle : Bool := false
deriving Repr, DecidableEq

structure StoreRequest where
  input : InputOptions := {}
  strategies : StrategyOptions := {}
  dir : String := ""
  className : Option String := none
  ifExists : IfExists := .validate
deriving Repr, DecidableEq

structure ResetRequest where
  dir : String := ""
deriving Repr, DecidableEq

/-- What a command line asks for. -/
inductive Request where
  | render (request : RenderRequest)
  | store (request : StoreRequest)
  | reset (request : ResetRequest)
deriving Repr, DecidableEq

namespace Request

/-! How the values of options are read. -/

def readText (s : String) : Except UsageError String := .ok s

/-- A path is never empty. -/
def readPath (s : String) : Except UsageError String :=
  if s.isEmpty then .error .valueMissing else .ok s

/-- One of the choices that a parser knows. -/
def readChoice {α : Type} (parse : String → Except InferenceError α) (s : String) :
    Except UsageError α :=
  (parse s).mapError fun _ => .valueRejected

/-- Decimal digits, possibly after a sign, of an integer that fits 64 bits. -/
def readInteger (s : String) : Except UsageError Int :=
  let (negative, digits) := match s.toList with
    | '-' :: digits => (true, digits)
    | '+' :: digits => (false, digits)
    | digits => (false, digits)
  if digits.isEmpty || !digits.all Char.isDigit then .error .valueRejected
  else
    let magnitude : Int := (digits.foldl (fun n c => n * 10 + (c.toNat - '0'.toNat)) 0 : Nat)
    let i := if negative then -magnitude else magnitude
    if i < Settings.minInteger ∨ Settings.maxInteger < i then .error .valueRejected else .ok i

def readArrays (s : String) : Except UsageError SequenceKind :=
  match [("list", SequenceKind.list), ("tuple", .tuple), ("set", .set)].lookup s with
  | some kind => .ok kind
  | none => .error .valueNotAmong

/-! The options of each request. -/

open CommandOption

def inputOptions : List (CommandOption InputOptions) := [
  flag "ndjson" fun o => { o with byLine := true },
  valued "json-pointer" readText fun o pointer => { o with pointer := some pointer },
  valued "arrays-as" readArrays fun o arrays => { o with arrays },
  { name := "input"
    letter := some 'i'
    arity := .many
    required := true
    set := fun o inputs => .ok { o with inputs := o.inputs ++ inputs } }]

def strategyOptions : List (CommandOption StrategyOptions) := [
  valued "strategies" readPath fun o file => { o with file := some file },
  valued "list-strategy" (readChoice ListStyle.parse) fun o x => { o with listStyle := some x },
  valued "tuple-size-strategy" (readChoice TupleSize.parse) fun o x =>
    { o with tupleSize := some x },
  valued "dict-strategy" (readChoice DictStyle.parse) fun o x => { o with dictStyle := some x },
  { valued "min-height" readInteger fun (o : StrategyOptions) i =>
      { o with aliasHeight := some i } with takesNegatives := true },
  valued "key-used-as-doc" readText fun o key => { o with docKey := some key },
  { valued "merge-similarity" readInteger fun (o : StrategyOptions) i =>
      { o with similarity := some i } with takesNegatives := true },
  flag "read-only" fun o => { o with readOnly := true }]

def renderOptions : List (CommandOption RenderRequest) :=
  inputOptions.map (lift (·.input) fun r input => { r with input }) ++
  strategyOptions.map (lift (·.strategies) fun r strategies => { r with strategies }) ++ [
    valued "class-name" readText fun r className => { r with className },
    { valued "out" readPath fun (r : RenderRequest) out =>
        { r with out := some out } with letter := some 'o' },
    flag "no-op" fun r => { r with isIdle := true }]

def storeOptions : List (CommandOption StoreRequest) :=
  inputOptions.map (lift (·.input) fun r input => { r with input }) ++
  strategyOptions.map (lift (·.strategies) fun r strategies => { r with strategies }) ++ [
    { valued "dir" readPath fun (r : StoreRequest) dir => { r with dir } with required := true },
    valued "class-name" readText fun r className => { r with className := some className },
    valued "if-exists" (readChoice IfExists.parse) fun r ifExists => { r with ifExists }]

def resetOptions : List (CommandOption ResetRequest) := [
  { valued "dir" readPath fun (_ : ResetRequest) dir => { dir } with required := true }]

/-- The commands by their names. -/
def commands : List (String × (List String → Except UsageError Request)) := [
  ("render", fun arguments => (readArguments renderOptions {} arguments).map render),
  ("store", fun arguments => (readArguments storeOptions {} arguments).map store),
  ("reset", fun arguments => (readArguments resetOptions {} arguments).map reset)]

/-- The names that may come first. -/
def names : List String := commands.map (·.1) ++ ["help"]

/-- Why the names after a request for help give no request: it can be about one of the
    commands. -/
def helpError : List String → UsageError
  | [] => .helpWanted
  | [name] => if name ∈ names then .helpWanted else .unknownCommand
  | _ => .unknownCommand

/-- Why a first argument that names no command gives no request. -/
def firstError (first : String) (rest : List String) : UsageError :=
  match ArgumentForm.of first with
  | .separator =>
    match rest with
    | [] => .commandMissing
    | next :: _ => if next ∈ names then .unknownArgument else .unknownCommand
  | .named name value =>
    if name = "help" then if value.isSome then .valueUnwanted else .helpWanted
    else if name = "version" then if value.isSome then .valueUnwanted else .versionWanted
    else .unknownArgument
  | .letters ('h' :: _) => .helpWanted
  | .letters ('V' :: _) => .versionWanted
  | .letters _ => .unknownArgument
  | .plain => .unknownCommand

/-- The request of a command line. -/
def parse : List String → Except UsageError Request
  | [] => .error .commandMissing
  | first :: rest =>
    match commands.lookup first with
    | some read => read rest
    | none => .error (if first = "help" then helpError rest else firstError first rest)

end Request

end TypeSketch
