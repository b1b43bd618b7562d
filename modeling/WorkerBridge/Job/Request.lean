/-
  WorkerBridge.Job.Request

  What a job asks of the worker, and the JSON object that carries it.
-/
import WorkerBridge.Job.Kind
import WorkerBridge.Position
import WorkerBridge.Text.Blank

namespace WorkerBridge

/-- What a job asks of the worker. -/
inductive Request where
  | addUri (uri source : String)
  | remUri (uri : String)
  | check (uri : Option String)
  | goto (uri : String) (position : Position)
  | hover (uri : String) (position : Position)
  | uses (uri : String) (position : Position)
  | codelens (uri : String)
  | runMain (entryPoint arguments : Option String)
  | runTests (filter : Option String)
  | runBenchmarks
  | version
  | shutdown
deriving DecidableEq, Repr, Inhabited

namespace Request

/-! ## Views -/

/-- The kind of the job. -/
def kind : Request → JobKind
  | .addUri .. => .addUri
  | .remUri .. => .remUri
  | .check .. => .check
  | .goto .. => .goto
  | .hover .. => .hover
  | .uses .. => .uses
  | .codelens .. => .codelens
  | .runMain .. => .runMain
  | .runTests .. => .runTests
  | .runBenchmarks => .runBenchmarks
  | .version => .version
  | .shutdown => .shutdown

/-- The document the job is about, if it is about one. -/
def uri? : Request → Option String
  | .addUri uri _ | .remUri uri | .goto uri _ | .hover uri _ | .uses uri _ | .codelens uri =>
    some uri
  | .check uri => uri
  | .runMain .. | .runTests .. | .runBenchmarks | .version | .shutdown => none

/-! ## Building -/

/-- A request to run the program. Blank entry points and arguments are left out, and an entry point
is trimmed. -/
def runMainOf (entryPoint arguments : Option String) : Request :=
  .runMain ((entryPoint.map Text.trim).filter (· ≠ ""))
    (arguments.filter fun a => !Text.isBlankText a)

/-- A request to run the named tests, or all tests when no name is left after trimming. -/
def runTestsOf (names : List String) : Request :=
  let filter := Text.join " " ((names.map Text.trim).filter (· ≠ ""))
  .runTests (if filter = "" then none else some filter)

/-! ## Wire form -/

/-- The tag under which a request is written. The kinds have a table of their own for it. -/
def tag : Request → String
  | .addUri .. => "api/addUri"
  | .remUri .. => "api/remUri"
  | .check .. => "lsp/check"
  | .goto .. => "lsp/goto"
  | .hover .. => "lsp/hover"
  | .uses .. => "lsp/uses"
  | .codelens .. => "lsp/codelens"
  | .runMain .. => "cmd/runMain"
  | .runTests .. => "cmd/runTests"
  | .runBenchmarks => "cmd/runBenchmarks"
  | .version => "api/version"
  | .shutdown => "api/shutdown"

/-- A field that is left out when it has no value. -/
def optionalField (name : String) : Option String → List (String × Json)
  | some s => [(name, .str s)]
  | none => []

/-- The fields beside the tag. -/
def fields : Request → List (String × Json)
  | .addUri uri source => [("uri", .str uri), ("src", .str source)]
  | .remUri uri => [("uri", .str uri)]
  | .check uri => optionalField "uri" uri
  | .goto uri position | .hover uri position | .uses uri position =>
    [("uri", .str uri), ("position", position.toJson)]
  | .codelens uri => [("uri", .str uri)]
  | .runMain entryPoint arguments =>
    optionalField "entryPoint" entryPoint ++ optionalField "args" arguments
  | .runTests filter => optionalField "filter" filter
  | .runBenchmarks | .version | .shutdown => []

/-- The request as JSON, without an identity. -/
def toJson (r : Request) : Json :=
  Json.ofFields (("request", .str r.tag) :: r.fields)

/-- The message that asks for a job under the given identity. -/
def message (id : JobId) (r : Request) : Json :=
  Json.ofFields (("id", Json.ofNat id.number) :: ("request", .str r.tag) :: r.fields)

end Request

end WorkerBridge
