/-!
Dictionaries in the order in which their keys were first put: lists of entries whose keys are
pairwise different as long as they are built by `put`.
-/

namespace DesignLink.Dictionary

def keys {α : Type} (entries : List (String × α)) : List String := entries.map (·.1)

def contains {α : Type} (entries : List (String × α)) (key : String) : Bool :=
  entries.any fun entry => entry.1 = key

def get? {α : Type} (entries : List (String × α)) (key : String) : Option α :=
  (entries.find? fun entry => entry.1 = key).map (·.2)

/-- Puts a value under a key; a key that is there keeps its place. -/
def put {α : Type} (entries : List (String × α)) (key : String) (value : α) : List (String × α) :=
  match entries with
  | [] => [(key, value)]
  | (k, v) :: rest => if k = key then (k, value) :: rest else (k, v) :: put rest key value

end DesignLink.Dictionary
