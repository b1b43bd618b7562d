/-
  WorkerBridge.Settings.Expansion

  References to variables in settings. A reference is replaced by the value of its
  variable, in one pass from left to right; values are not scanned again.
-/
import WorkerBridge.Settings

namespace WorkerBridge

/-- The values of variables. -/
abbrev Environment := String → Option String

namespace Expansion

/-- The name of a reference after its opening mark, and what follows its closing mark. -/
def closing? (cs : List Char) : Option (List Char × List Char) :=
  match cs.dropWhile (· ≠ '\x7d') with
  | [] => none
  | _ :: rest => some (cs.takeWhile (· ≠ '\x7d'), rest)

/-- What follows a reference is shorter than what it stands in. -/
theorem length_lt_of_closing? {cs name rest : List Char} (h : closing? cs = some (name, rest)) :
    rest.length < cs.length := by
  unfold closing? at h
  split at h
  · cases h
  · rename_i mark tail heq
    cases h
    have hle := (List.dropWhile_suffix (l := cs) (· ≠ '\x7d')).length_le
    rw [heq, List.length_cons] at hle
    omega

/-- The value of a variable. One that is not set, or has no name, is empty. -/
def valueOf (env : Environment) (name : List Char) : List Char :=
  if name = [] then [] else ((env (String.ofList name)).getD "").toList

/-- The characters with every reference replaced. From a reference that is not closed on they stay
as they are. -/
def expandChars (env : Environment) : List Char → List Char
  | [] => []
  | '$' :: '\x7b' :: rest =>
    match _h : closing? rest with
    | some (name, after) => valueOf env name ++ expandChars env after
    | none => '$' :: '\x7b' :: rest
  | c :: rest => c :: expandChars env rest
termination_by cs => cs.length
decreasing_by
  · have := length_lt_of_closing? _h
    simp only [List.length_cons]
    omega
  · simp

/-- The text with every reference replaced. -/
def expand (env : Environment) (s : String) : String :=
  String.ofList (expandChars env s.toList)

/-- The names that references name. -/
def names : List Char → List String
  | [] => []
  | '$' :: '\x7b' :: rest =>
    match _h : closing? rest with
    | some (name, after) => String.ofList name :: names after
    | none => []
  | _ :: rest => names rest
termination_by cs => cs.length
decreasing_by
  · have := length_lt_of_closing? _h
    simp only [List.length_cons]
    omega
  · simp

end Expansion

/-- The texts of the settings of the worker in which references are replaced. -/
def WorkerSettings.texts (s : WorkerSettings) : List String :=
  s.program :: s.jar.toList ++ s.jvmArgs ++ s.serverArgs ++ s.extraArgs

/-- The settings of the worker with every reference replaced. -/
def WorkerSettings.expand (env : Environment) (s : WorkerSettings) : WorkerSettings :=
  let one := Expansion.expand env
  { s with
    program := one s.program
    jar := s.jar.map one
    jvmArgs := s.jvmArgs.map one
    serverArgs := s.serverArgs.map one
    extraArgs := s.extraArgs.map one }

end WorkerBridge
