import VarBlock.Config.Value
import VarBlock.Toml.DateTime

/-!
# TOML: tables under construction

    nodes, one by one ──insert, openTable, openElement──▶ Entries ──toTable?──▶ table

The entries of a document arrive one by one, and a table may be spread over several places. A
`Node` remembers how a table came about, which decides what may still be added to it. Only when all
of them are there do the nodes become values.
-/

namespace VarBlock.Toml

open Config (Value)

/-- What a key has been given so far. -/
inductive Node
  /-- A value that holds no others and is no date or time. -/
  | scalar (v : Value)
  /-- A date or time in its normal form. -/
  | dateTime (text : String)
  /-- An array that was written as such, and cannot be added to. -/
  | array (elements : List Node)
  /-- A table on one line, which cannot be added to. -/
  | inlineTable (entries : List (String × Node))
  /-- A table. It is implicit until a header names it, and dotted if dotted keys made it. -/
  | table (isImplicit isDotted : Bool) (entries : List (String × Node))
  /-- An array of tables, the last of which can be added to. -/
  | tables (elements : List (List (String × Node)))

abbrev Entries := List (String × Node)

/-- The key that marks a table: one that has it first is no table, but the date or time that the
text under this key spells. -/
def dateTimeKey : String := "$__toml_private_datetime"

namespace Node

/-- The date or time that a text spells. -/
def spelledDateTime? : Node → Option Value
  | scalar (.string s) => .string <$> Toml.dateTime.all? s
  | _ => none

mutual

/-- The value of what has been put together, unless a date or time in it is misspelled. -/
def toValue? : Node → Option Value
  | scalar v => some v
  | dateTime text => some (.string text)
  | array elements => .array <$> elementValues? elements
  | inlineTable entries => tableValue? entries
  | table _ _ entries => tableValue? entries
  | tables elements => .array <$> tableValues? elements

/-- The value of a table, of which the first key decides whether it is one. -/
def tableValue? : List (String × Node) → Option Value
  | [] => some (.table [])
  | (k, n) :: rest =>
    if k = dateTimeKey then n.spelledDateTime?
    else do
      let v ← n.toValue?
      let entries ← entryValues? rest
      return .table ((k, v) :: entries)

def entryValues? : List (String × Node) → Option (List (String × Value))
  | [] => some []
  | (k, n) :: rest => do
    let v ← n.toValue?
    let entries ← entryValues? rest
    return (k, v) :: entries

def elementValues? : List Node → Option (List Value)
  | [] => some []
  | n :: rest => do
    let v ← n.toValue?
    let elements ← elementValues? rest
    return v :: elements

def tableValues? : List (List (String × Node)) → Option (List Value)
  | [] => some []
  | entries :: rest => do
    let v ← tableValue? entries
    let elements ← tableValues? rest
    return v :: elements

end

end Node

namespace Entries

/-- Change what a key has been given, or give it something; refused where `f` refuses. -/
def alter (key : String) (f : Option Node → Option Node) : Entries → Option Entries
  | [] => (f none).map fun n => [(key, n)]
  | (k, n) :: rest =>
    if k = key then (f (some n)).map fun n' => (k, n') :: rest
    else (alter key f rest).map ((k, n) :: ·)

/-- Change the table that a path leads to, of which `f` also learns whether dotted keys made it.
Tables that are missing on the way are made. The path of a header goes through any table, that of a
dotted key only through implicit ones; both go to the last table of an array. -/
def within (dotted : Bool) (f : Bool → Entries → Option Entries) :
    List String → Bool → Entries → Option Entries
  | [], isDotted, entries => f isDotted entries
  | key :: path, _, entries =>
    entries.alter key fun
      | none => (within dotted f path dotted []).map (.table true dotted)
      | some (.table isImplicit isDotted inner) =>
        if dotted && !isImplicit then none
        else (within dotted f path isDotted inner).map (.table isImplicit isDotted)
      | some (.tables elements) =>
        match elements.getLast? with
        | none => none
        | some last =>
          (within dotted f path false last).map fun last' => .tables (elements.dropLast ++ [last'])
      | some _ => none

/-- Enter a value under a dotted key. A key is given a value once, and a table takes plain keys
only if no dotted key made it, dotted ones only if one did. -/
def insert (path : List String) (key : String) (n : Node) (isDotted : Bool) (entries : Entries) :
    Option Entries :=
  within true (fun isDotted entries =>
    if isDotted = path.isEmpty then none
    else entries.alter key fun
      | none => some n
      | some _ => none) path isDotted entries

/-- Open the table of a header at the end of the entries: a new one, or one that exists only
implicitly, which moves there. -/
def openTable (path : List String) (key : String) (entries : Entries) : Option Entries :=
  within false (fun _ entries =>
    match entries.lookup key with
    | none => some (entries ++ [(key, .table false false [])])
    | some (.table true false inner) =>
      some (entries.eraseP (·.1 = key) ++ [(key, .table false false inner)])
    | some _ => none) path false entries

/-- Open a new table at the end of an array of tables. -/
def openElement (path : List String) (key : String) (entries : Entries) : Option Entries :=
  within false (fun _ entries => entries.alter key fun
    | none => some (.tables [[]])
    | some (.tables elements) => some (.tables (elements ++ [[]]))
    | some _ => none) path false entries

/-- The entries as values. A document is a table, and not a date or time, whatever its first key. -/
def toTable? (entries : Entries) : Option (List (String × Value)) :=
  match Node.tableValue? entries with
  | some (.table values) => some values
  | _ => none

end Entries

end VarBlock.Toml
