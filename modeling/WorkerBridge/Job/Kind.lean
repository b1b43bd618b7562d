/-
  WorkerBridge.Job.Kind

  Identities and kinds of jobs.
-/
import WorkerBridge.Decimal.Natural

namespace WorkerBridge

/-- The number under which a job and its response are correlated. A word of 64 bits holds it on the
wire, and statements about messages ask for that bound (`Json.maxUnsigned`). The type has none:
numbers are given out one by one from 1, and do not wrap around. -/
structure JobId where
  number : Nat
deriving DecidableEq, Repr, Inhabited

namespace JobId

/-- Reserved for the readiness probe of a starting worker; no job has it. -/
def probe : JobId := ⟨0⟩

/-- The identity in words. -/
def text (id : JobId) : String :=
  "#" ++ Decimal.text id.number

end JobId

/-- The kinds of work a worker does. -/
inductive JobKind where
  | addUri
  | remUri
  | check
  | goto
  | hover
  | uses
  | codelens
  | runMain
  | runTests
  | runBenchmarks
  | version
  | shutdown
deriving DecidableEq, Repr, Inhabited

namespace JobKind

/-- The tag of a kind on the wire. -/
def wireName : JobKind → String
  | .addUri => "api/addUri"
  | .remUri => "api/remUri"
  | .check => "lsp/check"
  | .goto => "lsp/goto"
  | .hover => "lsp/hover"
  | .uses => "lsp/uses"
  | .codelens => "lsp/codelens"
  | .runMain => "cmd/runMain"
  | .runTests => "cmd/runTests"
  | .runBenchmarks => "cmd/runBenchmarks"
  | .version => "api/version"
  | .shutdown => "api/shutdown"

/-- Read-only lookups. They carry the time limit for queries. -/
def isQuery : JobKind → Bool
  | .goto | .hover | .uses | .codelens | .version => true
  | _ => false

/-- Kinds whose failures are shown to the user. -/
def reportsFailures : JobKind → Bool
  | .runMain | .runTests | .runBenchmarks | .version => true
  | _ => false

end JobKind

end WorkerBridge
