/-
  WorkerBridge.Toml.Table

  Tables under construction. A table may be opened by a header once, and by dotted
  keys only where no header has opened it; what is written as a value is closed.
-/
import WorkerBridge.Json.Basic

namespace WorkerBridge.Toml

/-- How a table came into being: only as a part of a longer header or key, and by a key. -/
structure Origin where
  isImplicit : Bool
  isDotted : Bool
deriving DecidableEq, Repr

/-- What stands under a key. -/
inductive Node where
  /-- A value, closed. -/
  | value (v : Json)
  | table (origin : Origin) (entries : List (String × Node))
  /-- The tables of an array, the last one first. -/
  | tables (items : List Node)

/-- What stands under the keys of a table. -/
abbrev Entries := List (String × Node)

mutual

/-- The value that a node has come to. -/
def Node.toJson : Node → Json
  | .value v => v
  | .table _ entries => .obj (entriesToJson entries)
  | .tables items => .arr (itemsToJson items).reverse

/-- The values under the keys of a table. -/
def entriesToJson : List (String × Node) → List (String × Json)
  | [] => []
  | (key, node) :: rest => TextMap.insert key node.toJson (entriesToJson rest)

/-- The values of the tables of an array. -/
def itemsToJson : List Node → List Json
  | [] => []
  | node :: rest => node.toJson :: itemsToJson rest

end

namespace Entries

/-- Changes the table under a path. Tables on the way that do not exist are opened; the last table
of an array stands for the array. `none` when there is no table to change, or the change fails. A
path of keys does not lead through a table that a header has opened. -/
def descend (isDotted : Bool) (change : Origin → Entries → Option (Origin × Entries)) :
    List String → Origin → Entries → Option (Origin × Entries)
  | [], origin, entries => change origin entries
  | key :: path, origin, entries =>
    match TextMap.find? key entries with
    | none =>
      (descend isDotted change path { isImplicit := true, isDotted } []).map fun (o, es) =>
        (origin, TextMap.insert key (.table o es) entries)
    | some (.table o es) =>
      if isDotted && !o.isImplicit then none
      else
        (descend isDotted change path o es).map fun (o, es) =>
          (origin, TextMap.insert key (.table o es) entries)
    | some (.tables (.table o es :: before)) =>
      (descend isDotted change path o es).map fun (o, es) =>
        (origin, TextMap.insert key (.tables (.table o es :: before)) entries)
    | some _ => none

/-- Gives a key its value. No key has two. -/
def assign (path : List String) (key : String) (v : Json) (origin : Origin) (entries : Entries) :
    Option (Origin × Entries) :=
  descend true (fun o es =>
    if o.isDotted = path.isEmpty then none
    else
      match TextMap.find? key es with
      | some _ => none
      | none => some (o, TextMap.insert key (.value v) es)) path origin entries

/-- The origin of a table that a header opens. -/
def opened : Origin := { isImplicit := false, isDotted := false }

/-- Opens a table by its header. -/
def openTable (key : String) (origin : Origin) (entries : Entries) : Option (Origin × Entries) :=
  match TextMap.find? key entries with
  | none => some (origin, TextMap.insert key (.table opened []) entries)
  | some (.table o es) =>
    if o.isImplicit && !o.isDotted then some (origin, TextMap.insert key (.table opened es) entries)
    else none
  | some _ => none

/-- Opens the next table of an array by its header. -/
def openItem (key : String) (origin : Origin) (entries : Entries) : Option (Origin × Entries) :=
  match TextMap.find? key entries with
  | none => some (origin, TextMap.insert key (.tables [.table opened []]) entries)
  | some (.tables items) =>
    some (origin, TextMap.insert key (.tables (.table opened [] :: items)) entries)
  | some _ => none

end Entries

end WorkerBridge.Toml
