import SimpleLedger.Settings.Path

namespace SimpleLedger.Settings.Toml

/-- A file that has been read in part: its values, the table that keys go to, the tables that have a
header, those that a key with several parts has made, those that are values, and the arrays whose
tables have headers. -/
structure Draft where
  root : Value
  here : List Step
  opened : List (List Step)
  dotted : List (List Step)
  fixed : List (List Step)
  arrays : List (List Step)

namespace Draft

/-- A file of which nothing has been read. -/
def empty : Draft :=
  { root := .table [], here := [], opened := [], dotted := [], fixed := [], arrays := [] }

/-- The path to the table under a key, which may still be missing. In an array of tables that is the
last one. Tables that are values take no more keys. -/
def enter? (draft : Draft) (path : List Step) (key : String) : Option (List Step) :=
  let path := path ++ [.key key]
  match draft.root.at? path with
  | none => some path
  | some (.table _) => if draft.fixed.contains path then none else some path
  | some (.array items) =>
    if draft.arrays.contains path then some (path ++ [.place (items.length - 1)]) else none
  | some _ => none

/-- The values of a file with one more. -/
def insert (draft : Draft) (path : List Step) (value : Value) : Value :=
  Value.setAt value path draft.root

/-- Goes on with the table that a header names. It becomes the last one in its table. -/
def openTable? (draft : Draft) (keys : List String) : Option Draft := do
  let parent ← keys.dropLast.foldlM draft.enter? []
  let path ← (keys.getLast?.map fun key => parent ++ [.key key])
  let known := draft.opened ++ draft.dotted ++ draft.fixed
  let table ← match draft.root.at? path with
    | none => some (.table [])
    | some value => if value.isTable && !known.contains path then some value else none
  let draft := { draft with root := draft.root.removeAt path }
  some { draft with root := draft.insert path table, here := path, opened := path :: draft.opened }

/-- Goes on with a new table at the end of the array of tables that a header names. -/
def addTable? (draft : Draft) (keys : List String) : Option Draft := do
  let parent ← keys.dropLast.foldlM draft.enter? []
  let path ← (keys.getLast?.map fun key => parent ++ [.key key])
  let count ← match draft.root.at? path with
    | none => some 0
    | some value => if draft.arrays.contains path then some value.items.length else none
  let table := path ++ [.place count]
  some { draft with
    root := draft.insert table (.table [])
    here := table
    arrays := path :: draft.arrays }

/-- Goes on to the table under one part of a key, which is made if it is missing. -/
def through? (place : Draft × List Step) (key : String) : Option (Draft × List Step) := do
  let (draft, path) := place
  let path ← draft.enter? path key
  if draft.opened.contains path then none
  else if (draft.root.at? path).isSome then some (draft, path)
  else
    some ({ draft with root := draft.insert path (.table []), dotted := path :: draft.dotted }, path)

/-- Sets a key of the current table. The last table that a key with several parts goes through must be
one that such keys have made. -/
def set? (draft : Draft) (keys : List String) (value : Value) : Option Draft := do
  let (draft, parent) ← keys.dropLast.foldlM through? (draft, draft.here)
  let path ← (keys.getLast?.map fun key => parent ++ [.key key])
  if 1 < keys.length ∧ !draft.dotted.contains parent ∨ (draft.root.at? path).isSome then none
  else
    some { draft with
      root := draft.insert path value
      fixed := if value.isTable then path :: draft.fixed else draft.fixed }

end Draft

end SimpleLedger.Settings.Toml
