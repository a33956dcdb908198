import TypeSketch.Render.Spelling

/-!
# Rendering Sessions

Declaring the nodes of trees one after another. A session holds the table of the names
declared so far, each with the digest it is declared for, the declarations made so far,
and the symbols taken so far.

A node is declared after all nodes below it, so a declaration refers to earlier ones
only. A node whose name is taken is not declared again if its digest is the declared
one, and is in conflict otherwise. What has been declared before a conflict stays.

## Main definitions

* `Session`: Names and declarations made and the symbols they take.
* `Session.declare`: Declaring a node and all below it.
* `Session.use`, `Session.writeOut`, `Session.writeSelf`: Writing a node.
* `TypeTree.render`: The declarations of one tree.
-/

namespace TypeSketch

/-- The names declared so far with their digests, the declarations made so far and the
    symbols taken so far. -/
structure Session where
  declared : List (String × UInt64) := []
  blocks : List Declaration := []
  symbols : NameSet := ∅

instance : Inhabited Session := ⟨{}⟩

namespace Session

/-- The session with one more symbol. -/
def require (session : Session) (symbol : String) : Session :=
  { session with symbols := session.symbols.insert symbol }

/-- The digest that is declared under a name. -/
def digestOf? (session : Session) (name : String) : Option UInt64 :=
  session.declared.lookup name

/-- The session with the symbols of something written. -/
def take {α : Type} (session : Session) (spelling : Spelling α) : Session :=
  { session with symbols := session.symbols.insertAll spelling.symbols }

/-- Declares a node alone, if it gets a declaration or one is demanded. -/
def declareNode (s : Strategies) (demanded : Bool) (t : TypeTree) (session : Session) :
    Except InferenceError Unit × Session :=
  if !demanded && !t.isAliased s then (.ok (), session)
  else
    match session.digestOf? t.name with
    | some digest =>
      if digest = t.digest then (.ok (), session) else (.error (.nameConflict t.name), session)
    | none =>
      let spelling := t.spellDeclaration s
      let session := session.take spelling
      (.ok (), { session with
        declared := session.declared ++ [(t.name, t.digest)]
        blocks := session.blocks ++ [spelling.written] })

/-- One step after another, unless the first one fails. -/
def andThen (first : Except InferenceError Unit × Session)
    (next : Session → Except InferenceError Unit × Session) : Except InferenceError Unit × Session :=
  match first with
  | (.ok (), session) => next session
  | (.error e, session) => (.error e, session)

mutual

/-- Declares all nodes below a node that get a declaration, and then the node itself if
    it gets one or one is demanded. -/
def declare (s : Strategies) (demanded : Bool) (t : TypeTree) (session : Session) :
    Except InferenceError Unit × Session :=
  match t with
  | .scalar name v type => declareNode s demanded (.scalar name v type) session
  | .mapping name v form height shape fields =>
    andThen (declareFields s fields session)
      (declareNode s demanded (.mapping name v form height shape fields))
  | .sequence name v kind height shape elements =>
    andThen (declareElements s elements session)
      (declareNode s demanded (.sequence name v kind height shape elements))

def declareFields (s : Strategies) (fields : List (Value × TypeTree)) (session : Session) :
    Except InferenceError Unit × Session :=
  match fields with
  | [] => (.ok (), session)
  | (_, child) :: rest => andThen (declare s false child session) (declareFields s rest)

def declareElements (s : Strategies) (elements : List TypeTree) (session : Session) :
    Except InferenceError Unit × Session :=
  match elements with
  | [] => (.ok (), session)
  | child :: rest => andThen (declare s false child session) (declareElements s rest)

end

/-- What stands where a node is used. -/
def use (s : Strategies) (t : TypeTree) (session : Session) : TypeExpr × Session :=
  let spelling := t.spellUse s
  (spelling.written, session.take spelling)

/-- The type of a node, written out. -/
def writeOut (s : Strategies) (t : TypeTree) (session : Session) : TypeExpr × Session :=
  let spelling := t.spell s
  (spelling.written, session.take spelling)

/-- The declaration of a node, without declaring it. -/
def writeSelf (s : Strategies) (t : TypeTree) (session : Session) : Declaration × Session :=
  let spelling := t.spellDeclaration s
  (spelling.written, session.take spelling)

/-- The text of all declarations, separated by empty lines. -/
def declarationsText (session : Session) : String :=
  "\n\n".intercalate (session.blocks.map (·.text))

end Session

/-- The session of one tree, which is declared in every case. -/
def TypeTree.render (s : Strategies) (t : TypeTree) : Except InferenceError Session :=
  match Session.declare s true t {} with
  | (.ok (), session) => .ok session
  | (.error e, _) => .error e

end TypeSketch
