import Mathlib
import VarBlock.Proofs.Reading

/-!
# The grammar of JSON

What a JSON text is and what it stands for, in full: white space anywhere between the parts,
numbers with fractions and exponents, every kind of escape. Each relation holds between something
and the texts that stand for it, with one constructor for each way to write it; `Document` is the
relation for whole texts.

Two escapes that are halves of one character beyond U+FFFF stand for that character, and a half
alone stands for nothing.

The grammar is that of RFC 8259 and knows nothing of the printer. What it adds to the text of the
standard is what a text stands for, and that the keys of one object are different
(`Value.KeysUnique`), which the standard only asks for.
-/

namespace VarBlock.Json

open Text

/-- What a JSON text stands for: the members of an object stand in order, as they are written. -/
inductive Value
  | null
  | bool (b : Bool)
  | number (q : ℚ)
  | string (s : String)
  | array (elements : List Value)
  | object (members : List (String × Value))

/-- No object in the value has two members of one name. -/
inductive Value.KeysUnique : Value → Prop
  | null : KeysUnique .null
  | bool (b : Bool) : KeysUnique (.bool b)
  | number (q : ℚ) : KeysUnique (.number q)
  | string (s : String) : KeysUnique (.string s)
  | array {vs : List Value} : (∀ v ∈ vs, KeysUnique v) → KeysUnique (.array vs)
  | object {ms : List (String × Value)} :
      (ms.map Prod.fst).Nodup → (∀ m ∈ ms, KeysUnique m.2) → KeysUnique (.object ms)

/-! ## White space -/

def isBlank (c : Char) : Bool := c ∈ [' ', '\t', '\n', '\r']

def Blank (g : List Char) : Prop := ∀ c ∈ g, isBlank c = true

theorem blank_nil : Blank [] := by
  intro c hc
  cases hc

/-! ## Numbers -/

/-- The number that decimal digits stand for. -/
def natural (ds : List Char) : ℕ := Nat.ofDigitChars 10 ds 0

def Digits (ds : List Char) : Prop := ds ≠ [] ∧ ∀ c ∈ ds, c.isDigit = true

/-- Digits in front of the point: a zero comes first only where it is the only one. -/
inductive Whole : List Char → Prop
  | zero : Whole ['0']
  | digits {c : Char} {ds : List Char} : c ≠ '0' → Digits (c :: ds) → Whole (c :: ds)

/-- The factor that a sign in front of a number stands for. -/
inductive Sign : ℤ → List Char → Prop
  | none : Sign 1 []
  | minus : Sign (-1) ['-']

/-- The digits behind the point. -/
inductive Fraction : List Char → List Char → Prop
  | none : Fraction [] []
  | digits {ds : List Char} : Digits ds → Fraction ds ('.' :: ds)

inductive ExponentSign : ℤ → List Char → Prop
  | none : ExponentSign 1 []
  | plus : ExponentSign 1 ['+']
  | minus : ExponentSign (-1) ['-']

inductive Exponent : ℤ → List Char → Prop
  | none : Exponent 0 []
  | digits {e : Char} {s : ℤ} {x ds : List Char} : e ∈ ['e', 'E'] → ExponentSign s x → Digits ds →
      Exponent (s * natural ds) (e :: x ++ ds)

inductive Number : ℚ → List Char → Prop
  | mk {s e : ℤ} {ws fs x y z : List Char} : Sign s x → Whole ws → Fraction fs y → Exponent e z →
      Number (s * natural (ws ++ fs) * 10 ^ (e - fs.length)) (x ++ ws ++ y ++ z)

/-! ## Strings -/

/-- The letters that stand for a character after a backslash. -/
def escapes : List (Char × Char) :=
  [('"', '"'), ('\\', '\\'), ('/', '/'), ('b', '\x08'), ('f', '\x0c'), ('n', '\n'), ('r', '\r'),
    ('t', '\t')]

def hexDigit? (c : Char) : Option ℕ :=
  if '0' ≤ c ∧ c ≤ '9' then some (c.toNat - '0'.toNat)
  else if 'a' ≤ c ∧ c ≤ 'f' then some (c.toNat - 'a'.toNat + 10)
  else if 'A' ≤ c ∧ c ≤ 'F' then some (c.toNat - 'A'.toNat + 10)
  else none

/-- The number that four hexadecimal digits stand for. -/
def codeUnit? : List Char → Option ℕ
  | [a, b, c, d] => do
    return (((← hexDigit? a) * 16 + (← hexDigit? b)) * 16 + (← hexDigit? c)) * 16 + (← hexDigit? d)
  | _ => none

inductive Character : Char → List Char → Prop
  | plain {c : Char} : 0x20 ≤ c.toNat → c ≠ '"' → c ≠ '\\' → Character c [c]
  | letter {c e : Char} : (e, c) ∈ escapes → Character c ['\\', e]
  | unit {c : Char} {ds : List Char} : codeUnit? ds = some c.toNat →
      Character c ('\\' :: 'u' :: ds)
  | halves {c : Char} {high low : ℕ} {ds es : List Char} : high < 0x400 → low < 0x400 →
      codeUnit? ds = some (0xd800 + high) → codeUnit? es = some (0xdc00 + low) →
      c.toNat = 0x10000 + 0x400 * high + low → Character c ('\\' :: 'u' :: ds ++ '\\' :: 'u' :: es)

inductive Quoted : String → List Char → Prop
  | mk {cs x : List Char} : Series Character cs x → Quoted (String.ofList cs) ('"' :: x ++ ['"'])

/-! ## Values -/

section Items

variable {α : Type}

/-- Further items of a list, each after a comma. -/
inductive Further (Item : α → List Char → Prop) : List α → List Char → Prop
  | nil : Further Item [] []
  | cons {a : α} {as : List α} {g g' x y : List Char} : Blank g → Blank g' → Item a x →
      Further Item as y → Further Item (a :: as) (g ++ ',' :: g' ++ x ++ y)

/-- Items between the characters `o` and `c`, with commas between them. -/
inductive Enclosed (Item : α → List Char → Prop) (o c : Char) : List α → List Char → Prop
  | empty {g : List Char} : Blank g → Enclosed Item o c [] (o :: g ++ [c])
  | items {a : α} {as : List α} {g g' x y : List Char} : Blank g → Item a x → Further Item as y →
      Blank g' → Enclosed Item o c (a :: as) (o :: g ++ x ++ y ++ g' ++ [c])

/-- A name and what it names. -/
inductive Member (Item : α → List Char → Prop) : String × α → List Char → Prop
  | mk {k : String} {a : α} {g g' x y : List Char} : Quoted k x → Blank g → Blank g' → Item a y →
      Member Item (k, a) (x ++ g ++ ':' :: g' ++ y)

end Items

/-- How a value is written, without blanks around it. -/
inductive Value.Written : Value → List Char → Prop
  | null : Written .null "null".toList
  | yes : Written (.bool true) "true".toList
  | no : Written (.bool false) "false".toList
  | number {q : ℚ} {x : List Char} : Number q x → Written (.number q) x
  | string {s : String} {x : List Char} : Quoted s x → Written (.string s) x
  | array {vs : List Value} {x : List Char} : Enclosed Written '[' ']' vs x → Written (.array vs) x
  | object {ms : List (String × Value)} {x : List Char} :
      Enclosed (Member Written) '\x7b' '\x7d' ms x → Written (.object ms) x

/-- A whole text: a value with blanks around it. -/
inductive Document : Value → List Char → Prop
  | mk {v : Value} {g g' x : List Char} : Blank g → Value.Written v x → Blank g' →
      Document v (g ++ x ++ g')

end VarBlock.Json
