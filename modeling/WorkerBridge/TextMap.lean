/-
  WorkerBridge.TextMap

  Maps from texts to values, held as lists in ascending order of their keys. The
  order is that of code points, so two maps with the same entries are the same
  list.
-/
namespace WorkerBridge

/-- A map from texts, as the list of its entries in ascending order of their keys. -/
abbrev TextMap (β : Type) := List (String × β)

namespace TextMap

variable {β : Type}

/-- The map in which `key` has the value `v`. An earlier value is replaced. -/
def insert (key : String) (v : β) : TextMap β → TextMap β
  | [] => [(key, v)]
  | (k, w) :: rest =>
    if key < k then (key, v) :: (k, w) :: rest
    else if key = k then (key, v) :: rest
    else (k, w) :: insert key v rest

/-- The map without an entry for `key`. -/
def erase (key : String) (m : TextMap β) : TextMap β :=
  m.filter (·.1 ≠ key)

/-- The value of `key`. -/
def find? (key : String) (m : TextMap β) : Option β :=
  (List.find? (·.1 = key) m).map (·.2)

/-- The keys, in ascending order. -/
def keys (m : TextMap β) : List String :=
  m.map (·.1)

/-- The map with the given entries. Of two entries with one key the later counts. -/
def ofList (entries : List (String × β)) : TextMap β :=
  entries.foldl (fun m e => insert e.1 e.2 m) []

end TextMap

end WorkerBridge
