import TypeSketch.Command.Inputs

/-!
# Carrying Out Requests

What each request does, as a script, and what it says. A module is rendered to a file or
said. Of the classes of a store each is told with its outcome, and one that fails does
not keep the others from being stored.

## Main definitions

* `Report`: The result of a request and what was said.
* `Request.run`: What a request does.
-/

namespace TypeSketch

/-- The result of a request, with what it wrote to its output and to its log. -/
structure Report where
  result : Except RequestError Unit
  output : String := ""
  log : String := ""

namespace Report

/-- The report of a request that failed before it said anything. -/
def failed (error : RequestError) : Report := { result := .error error }

end Report

namespace RenderRequest

/-- The module of the one document that was read. -/
def moduleOf (request : RenderRequest) (s : Strategies) (documents : List Document) :
    Except RequestError String := do
  match documents with
  | [d] =>
    let tree ← (Inference.infer { strategies := s } request.className d.value).mapError
      (.notInferred d.source)
    (tree.module s).mapError .notRendered
  | _ => .error (.notOneToRender documents.length)

/-- Writes a module to a file, in a directory that is created if it is missing. -/
def writeModule (path text : String) : Script (Except RequestError Unit) := do
  match Path.parent? path with
  | none => write
  | some parent =>
    match ← Script.createDirectories parent with
    | .error error => return .error (.directoryNotCreated parent error)
    | .ok () => write
where
  write : Script (Except RequestError Unit) := do
    return (← Script.writeText path text .done).mapError (.moduleNotWritten path)

/-- Renders the module of one value. An idle request does nothing. -/
def run (request : RenderRequest) : Script Report := do
  if request.isIdle then return { result := .ok () }
  else
    match ← request.strategies.resolve with
    | .error error => return .failed error
    | .ok s =>
      match ← request.input.load with
      | .error error => return .failed error
      | .ok documents =>
        match request.moduleOf s documents, request.out with
        | .error error, _ => return .failed error
        | .ok text, none => return { result := .ok (), output := text }
        | .ok text, some path => return { result := ← writeModule path text }

end RenderRequest

namespace StoreRequest

/-- A line of the log about a class. -/
def lineOf (className : String) (d : Document) : Except StoreError Outcome → String
  | .ok outcome => "✅ " ++ className ++ " " ++ outcome.text ++ "\n"
  | .error error => "❌ " ++ className ++ " (" ++ d.source ++ "): " ++ error.message ++ "\n"

/-- Commits classes one after another: the number of those that fail, and the log. -/
def commitAll (s : Strategies) (store : Store) (failures : Nat) (log : String) :
    List (String × Document) → Script (Nat × String)
  | [] => return (failures, log)
  | (className, d) :: rest => do
    let (outcome, store) ← store.commitValue s className d.value
    let failures := if outcome.toOption.isSome then failures else failures + 1
    commitAll s store failures (log ++ lineOf className d outcome) rest

/-- The documents with their class names, and the strategies to infer them with. -/
def prepare (request : StoreRequest) :
    Script (Except RequestError (Strategies × List (String × Document))) := do
  match ← request.strategies.resolve with
  | .error error => return .error error
  | .ok s =>
    match ← request.input.load with
    | .error error => return .error error
    | .ok documents =>
      return (Document.classNames documents request.className).map fun named => (s, named)

/-- Stores the class of each value. -/
def run (request : StoreRequest) : Script Report := do
  match ← request.prepare with
  | .error error => return .failed error
  | .ok (s, named) =>
    match ← Store.openAt request.dir request.ifExists with
    | .error error => return .failed (.storeNotOpened request.dir error)
    | .ok store =>
      let (failures, log) ← commitAll s store 0 "" named
      let result :=
        if failures = 0 then .ok () else .error (.someNotStored failures named.length)
      return { result, log }

end StoreRequest

/-- Removes a store. -/
def ResetRequest.run (request : ResetRequest) : Script Report := do
  match ← Store.openAt request.dir .validate with
  | .error error => return .failed (.storeNotOpened request.dir error)
  | .ok store =>
    match ← store.reset with
    | .error error => return .failed (.storeNotReset error)
    | .ok () =>
      let count := toString store.manifest.classes.length
      return { result := .ok (), log := "🧹 removed " ++ count ++ " classes from " ++
        request.dir ++ "\n" }

/-- What a request does. -/
def Request.run : Request → Script Report
  | render request => request.run
  | store request => request.run
  | reset request => request.run

end TypeSketch
