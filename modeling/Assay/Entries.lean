/-!
# Entries sorted by key

An object is a list of key and value pairs in ascending order of keys, keys compared by code point.
`Entries.insert` puts a pair at its place and replaces the value of a key that is already there, so
`Entries.ofList` keeps the last of equal keys; looking a key up is `List.lookup`. The order is a
predicate, `Entries.Sorted`, which every entry list built here has.
-/
namespace Assay

namespace Entries

variable {α : Type}

/-- The keys ascend, so no key occurs twice. -/
def Sorted (entries : List (String × α)) : Prop :=
  entries.Pairwise fun first second => first.1 < second.1

/-- Put a value under a key, replacing the value that the key had. -/
def insert (key : String) (value : α) : List (String × α) → List (String × α)
  | [] => [(key, value)]
  | (other, held) :: rest =>
    if key < other then (key, value) :: (other, held) :: rest
    else if key = other then (key, value) :: rest
    else (other, held) :: insert key value rest

/-- The entries of a list of pairs; of equal keys the last one counts. -/
def ofList (pairs : List (String × α)) : List (String × α) :=
  pairs.foldl (fun entries pair => insert pair.1 pair.2 entries) []

/-- The keys in order. -/
def keys (entries : List (String × α)) : List String := entries.map Prod.fst

/-- The entries of the second list take the place of what the first has under their keys. -/
def overlay (entries : List (String × α)) (later : List (String × α)) : List (String × α) :=
  later.foldr (fun pair built => insert pair.1 pair.2 built) entries

end Entries

end Assay
