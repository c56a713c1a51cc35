import VarBlock.Decimal
import VarBlock.Text.Quoted

/-!
# Configuration values

What a configuration says: a tree of tables, arrays and scalars. A table is a list of entries with
distinct keys, read by `List.lookup` and written by `put`.
-/

namespace VarBlock.Config

/-- What a configuration assigns to a key. -/
inductive Value
  | nil
  | boolean (b : Bool)
  | integer (n : Int)
  | float (x : Float)
  | string (s : String)
  | array (elements : List Value)
  | table (entries : List (String × Value))

/-- Give a key a value: in the place of the old one, or at the end. -/
def put (key : String) (v : Value) : List (String × Value) → List (String × Value)
  | [] => [(key, v)]
  | (k, w) :: rest => if k = key then (k, v) :: rest else (k, w) :: put key v rest

/-- A key reads back what was put, and no other key changes. -/
theorem lookup_put (key k : String) (v : Value) (entries : List (String × Value)) :
    (put key v entries).lookup k = if k = key then some v else entries.lookup k := by
  induction entries with
  | nil =>
    by_cases h : k = key
    · simp [put, h]
    · simp [put, List.lookup_cons, h, beq_eq_false_iff_ne.mpr h]
  | cons entry rest ih =>
    obtain ⟨k', w⟩ := entry
    by_cases hk' : k' = key
    · subst hk'
      by_cases h : k = k'
      · simp [put, h]
      · simp [put, List.lookup_cons, h, beq_eq_false_iff_ne.mpr h]
    · by_cases h : k = k'
      · subst h
        simp [put, hk']
      · simp [put, hk', List.lookup_cons, ih, beq_eq_false_iff_ne.mpr h]

namespace Value

/-- The entries of a table; any other value has none. -/
def entries : Value → List (String × Value)
  | table es => es
  | _ => []

/-- The elements of an array; any other value has none. -/
def elements : Value → List Value
  | array vs => vs
  | _ => []

/-- A float that is named as such: one without a fraction shows a zero after its point. -/
def floatWithPoint (x : Float) : String :=
  let text := floatText x
  if x.isNaN || x.isInf || text.contains '.' then text else text ++ ".0"

/-- A value as messages name it. -/
def description : Value → String
  | nil => "unit value"
  | boolean b => "boolean `" ++ toString b ++ "`"
  | integer n => "integer `" ++ toString n ++ "`"
  | float x => "floating point `" ++ floatWithPoint x ++ "`"
  | string s => "string " ++ Text.quoted s
  | array _ => "sequence"
  | table _ => "map"

end Value

end VarBlock.Config
