import VarBlock.Config.KeyPath
import VarBlock.Config.Value
import VarBlock.Text.Lowercase

/-!
# Merging configurations

A later layer is laid over what there is: its tables are merged entry by entry, any other value
takes the place of what was there. Names are compared in lower case.

Entries are laid in the order in which they are listed. This matters only where two of them are for
the same thing, such as names that are equal up to case (see `VarBlock.Config.Arrangement`).
-/

namespace VarBlock.Config

namespace Value

mutual

/-- Lay a value over the entry of a name; a target that is no table becomes one. -/
def assign (target : Value) (name : String) : Value → Value
  | table incoming =>
    let key := Text.lowercase name
    let old := (target.entries.lookup key).getD (table [])
    table (put key (old.assignAll incoming) target.entries)
  | v => table (put (Text.lowercase name) v target.entries)

/-- Lay entries over a value one after the other. -/
def assignAll (target : Value) : List (String × Value) → Value
  | [] => target
  | (name, v) :: rest => (target.assign name v).assignAll rest

end

/-- Give an element of an array a value. An array that is too short is filled up with `nil`. -/
def putElement (i : Nat) (v : Value) (elements : List Value) : List Value :=
  (elements ++ List.replicate (i + 1 - elements.length) nil).set i v

/-- Lay a value over what the steps lead to. What is no table or array on the way gives way to
one. -/
def assignAt (target : Value) (v : Value) : List KeyStep → Value
  | [] => v
  | [.child name] => target.assign name v
  | .child name :: steps =>
    let key := Text.lowercase name
    let inner := (target.entries.lookup key).getD nil
    table (put key (inner.assignAt v steps) target.entries)
  | .index i :: steps =>
    let inner := (target.elements[i]?).getD nil
    array (putElement i (inner.assignAt v steps) target.elements)

/-- Lay a value over what a path leads to. -/
def set (root : Value) (p : KeyPath) (v : Value) : Value :=
  root.assignAt v (.child p.root :: p.steps)

/-- A configuration in which values have been set, one after the other. -/
def setAll (root : Value) (overrides : List (KeyPath × Value)) : Value :=
  overrides.foldl (fun acc (p, v) => acc.set p v) root

/-- Lay the entries of a file over a configuration. The name of a top-level entry, in lower case,
may be a path; one that is not spelled like a path is a plain name. -/
def overlay (root : Value) (entries : List (String × Value)) : Value :=
  entries.foldl (fun acc (name, v) =>
    match KeyPath.ofString? (Text.lowercase name) with
    | some p => acc.set p v
    | none => acc.assign name v) root

end Value

end VarBlock.Config
