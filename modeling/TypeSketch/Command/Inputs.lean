import TypeSketch.Command.Error
import TypeSketch.Command.Request
import TypeSketch.Glob.Search
import TypeSketch.Json.Value

/-!
# Inputs of a Request

The values that a request reads: which files its inputs name, which documents the files
hold, and which part of a document is meant. A file holds one document, or one on each
line that is not blank.

Without a name for the class, a document is named after its file. Documents of one file
are told apart by their number, which is counted from one.

## Main definitions

* `Document`: A value and where it came from.
* `InputOptions.load`: The documents that a request reads.
* `Document.classNames`: A class name for each document.
* `StrategyOptions.resolve`: The strategies of a request.
-/

namespace TypeSketch

/-- A value, the path of its file and its number there, which is counted from zero. -/
structure Document where
  source : String
  index : Nat
  value : Value

/-- The paths that one input names: those it stands for as a pattern, or itself. -/
def inputPaths (input : String) : Script (Except RequestError (List String)) := do
  if !Glob.isPattern input then return .ok [input]
  else
    match Glob.PathPattern.parse input with
    | .error fault => return .error (.patternInvalid input fault)
    | .ok pattern => do
      let paths ← pattern.search
      return if paths.isEmpty then .error (.patternUnmatched input) else .ok paths

namespace InputOptions

/-- The document in a text that is one of those in a file. -/
def document (options : InputOptions) (source : String) (index : Nat) (text : String) :
    Except RequestError Document := do
  let json ← (Json.parse text).mapError (.sourceNotJson source index)
  match options.pointer with
  | none => return ⟨source, index, json.toValue options.arrays⟩
  | some pointer =>
    match json.pointer? pointer with
    | some part => return ⟨source, index, part.toValue options.arrays⟩
    | none => .error (.nothingSelected source pointer)

/-- The texts in a file that are documents. -/
def chunks (options : InputOptions) (text : String) : List String :=
  if options.byLine then (Text.lines text).filter fun line => !(Text.trim line).isEmpty
  else [text]

/-- The documents in the text of a file. -/
def documents (options : InputOptions) (source text : String) :
    Except RequestError (List Document) :=
  (options.chunks text).zipIdx.mapM fun (chunk, index) => options.document source index chunk

/-- The paths that inputs name, in their order. -/
def paths : List String → Script (Except RequestError (List String))
  | [] => return .ok []
  | input :: rest => do
    match ← inputPaths input with
    | .error error => return .error error
    | .ok found => return (← paths rest).map (found ++ ·)

/-- The documents in files, in their order. -/
def read (options : InputOptions) : List String → Script (Except RequestError (List Document))
  | [] => return .ok []
  | source :: rest => do
    match ← Script.readText source .done with
    | .error error => return .error (.sourceUnreadable source error)
    | .ok text =>
      match options.documents source text with
      | .error error => return .error error
      | .ok found => return (← options.read rest).map (found ++ ·)

/-- The documents that a request reads. All paths are found before a file is read. -/
def load (options : InputOptions) : Script (Except RequestError (List Document)) := do
  match ← paths options.inputs with
  | .error error => return .error error
  | .ok sources => options.read sources

end InputOptions

namespace Document

/-- Whether two documents came from one file, as far as the components of the paths
    tell. -/
def sharesSource (a b : Document) : Bool :=
  Path.components a.source = Path.components b.source

/-- The name of the class of a document among documents. -/
def className (documents : List Document) (d : Document) : String :=
  let name := Naming.upperCamel ((Path.stem? d.source).getD "")
  if 1 < documents.countP d.sharesSource then name ++ toString (d.index + 1) else name

/-- The documents with a class name each. A name that is given fits one document only. -/
def classNames (documents : List Document) :
    Option String → Except RequestError (List (String × Document))
  | none => .ok (documents.map fun d => (d.className documents, d))
  | some name =>
    match documents with
    | [d] => .ok [(name, d)]
    | _ => .error (.notOneToName documents.length)

end Document

namespace StrategyOptions

/-- The settings with the choices that are given on their own. -/
def override (options : StrategyOptions) (s : Settings) : Settings where
  listStyle := options.listStyle.getD s.listStyle
  tupleSize := options.tupleSize.getD s.tupleSize
  dictStyle := options.dictStyle.getD s.dictStyle
  aliasHeight := options.aliasHeight.getD s.aliasHeight
  docKey := options.docKey.getD s.docKey
  similarity := options.similarity.getD s.similarity
  readOnly := options.readOnly || s.readOnly

/-- The settings in the file, if there is one. -/
def fileSettings (options : StrategyOptions) : Script (Except RequestError Settings) := do
  match options.file with
  | none => return .ok {}
  | some path =>
    match ← Script.readText path .done with
    | .error error => return .error (.strategiesUnreadable path error)
    | .ok text => return (Json.decode Settings.decoder text).mapError (.strategiesInvalid path)

/-- The strategies of a request. -/
def resolve (options : StrategyOptions) : Script (Except RequestError Strategies) := do
  match ← options.fileSettings with
  | .error error => return .error error
  | .ok settings => return (options.override settings).validate.mapError .settingRefused

end StrategyOptions

end TypeSketch
