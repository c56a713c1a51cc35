import Mathlib
import VarBlock.Json
import VarBlock.Proofs.JsonReader

/-!
# Printed JSON

What `Json.pretty` prints is a JSON text, whatever value it prints, and stands for that value. Each
part of the printer is matched with the relation of the grammar for it: digits, escapes, and the
lines of a list, where the line feed and the indentation are blanks.

The proof is one recursion over the value that is printed, along the mutual recursion of the printer
(`written_render`, `further_renderElements`, `further_renderFields`). Keys are another matter: the
printer prints what it is given, so that they are unique has to be known of the value.
-/

namespace VarBlock.Json

open Text

/-! ## What a report value stands for -/

mutual

def toValue : Json → Value
  | bool b => .bool b
  | number n => .number n
  | string s => .string s
  | array es => .array (toValues es)
  | object fs => .object (toMembers fs)

def toValues : List Json → List Value
  | [] => []
  | e :: es => toValue e :: toValues es

def toMembers : List (String × Json) → List (String × Value)
  | [] => []
  | (k, v) :: fs => (k, toValue v) :: toMembers fs

end

theorem toValues_eq_map (es : List Json) : toValues es = es.map toValue := by
  induction es with
  | nil => rfl
  | cons e es ih => rw [toValues, ih, List.map_cons]

theorem toMembers_eq_map (fs : List (String × Json)) :
    toMembers fs = fs.map fun f => (f.1, f.2.toValue) := by
  induction fs with
  | nil => rfl
  | cons f fs ih => rw [toMembers, ih, List.map_cons]

/-- An array has keys of its own only in its elements. -/
theorem keysUnique_array {es : List Json} (h : ∀ e ∈ es, e.toValue.KeysUnique) :
    (array es).toValue.KeysUnique := by
  rw [toValue, toValues_eq_map]
  exact .array (List.forall_mem_map.mpr h)

/-- The keys of an object are unique if its names are, and those of its fields. -/
theorem keysUnique_object {fs : List (String × Json)} (hnames : (fs.map Prod.fst).Nodup)
    (h : ∀ f ∈ fs, f.2.toValue.KeysUnique) : (object fs).toValue.KeysUnique := by
  rw [toValue, toMembers_eq_map]
  apply Value.KeysUnique.object
  · rwa [List.map_map]
  · exact List.forall_mem_map.mpr h

/-! ## Numbers -/

/-- The digits of a number other than zero begin with one other than zero. -/
theorem exists_toDigits_eq_cons {n : ℕ} (hn : n ≠ 0) :
    ∃ c ds, Nat.toDigits 10 n = c :: ds ∧ c ≠ '0' := by
  -- A number of more than one digit begins as its tenth part does.
  induction n using Nat.strongRecOn with
  | _ n ih =>
    rcases Nat.lt_or_ge n 10 with hlt | hge
    · exact ⟨n.digitChar, [], Nat.toDigits_of_lt_base hlt, by rwa [ne_eq, Nat.digitChar_eq_zero]⟩
    · obtain ⟨c, ds, hds, hc⟩ := ih (n / 10) (by omega) (by omega)
      rw [Nat.toDigits_of_base_le (by decide) hge, hds]
      exact ⟨c, _, rfl, hc⟩

/-- The digits of a number begin with a zero only where it is zero. -/
theorem whole_toDigits (n : ℕ) : Whole (Nat.toDigits 10 n) := by
  by_cases hn : n = 0
  · rw [hn, Nat.toDigits_zero]
    exact .zero
  · have hdigits : Digits (Nat.toDigits 10 n) :=
      ⟨Nat.toDigits_ne_nil, fun c hc => Nat.isDigit_of_mem_toDigits (by decide) (by decide) hc⟩
    obtain ⟨c, ds, hds, hc⟩ := exists_toDigits_eq_cons hn
    rw [hds] at hdigits ⊢
    exact .digits hc hdigits

/-- A natural number is written by its digits, with neither a fraction nor an exponent. -/
theorem number_toDigits (n : ℕ) : Number n (Nat.toDigits 10 n) := by
  have h := Number.mk .none (whole_toDigits n) .none .none
  simpa [natural, Nat.ofDigitChars_ten_toDigits] using h

/-! ## Strings -/

theorem hexDigit?_digitChar : ∀ d < 16, hexDigit? (Nat.digitChar d) = some d := by
  decide

/-- Four hexadecimal digits are read as the number they are written for. -/
theorem codeUnit?_fourHexDigits {n : ℕ} (h : n < 0x10000) :
    codeUnit? (fourHexDigits n) = some n := by
  have hmod : ∀ m, hexDigit? (Nat.digitChar (m % 16)) = some (m % 16) :=
    fun m => hexDigit?_digitChar _ (Nat.mod_lt _ (by decide))
  have hsum : ((n / 4096 % 16 * 16 + n / 256 % 16) * 16 + n / 16 % 16) * 16 + n % 16 = n := by
    omega
  simp only [fourHexDigits, List.map_cons, List.map_nil, codeUnit?, hmod]
  exact congrArg some hsum

/-- However a character is printed, as it is or escaped, the grammar has it stand for this
character. -/
theorem character_escapeChar (c : Char) : Character c (escapeChar c) := by
  rw [escapeChar]
  split_ifs with hquote hslash hb hf hn hr ht hlow
  · exact .letter (by simp [escapes, hquote])
  · exact .letter (by simp [escapes, hslash])
  · exact .letter (by simp [escapes, hb])
  · exact .letter (by simp [escapes, hf])
  · exact .letter (by simp [escapes, hn])
  · exact .letter (by simp [escapes, hr])
  · exact .letter (by simp [escapes, ht])
  · -- The other controls are written by their code, and what is neither of these as it is.
    exact .unit (codeUnit?_fourHexDigits (Nat.lt_trans hlow (by decide)))
  · exact .plain (Nat.le_of_not_lt hlow) hquote hslash

/-- A printed string stands for the string. -/
theorem quoted_quoteChars (s : String) : Quoted s (quoteChars s) := by
  have h := Quoted.mk (series_flatMap character_escapeChar s.toList)
  rwa [String.ofList_toList] at h

/-! ## Values -/

theorem blank_newline (level : ℕ) : Blank (newline level) := by
  intro c hc
  rcases List.mem_cons.mp hc with rfl | hc
  · rfl
  · rw [List.eq_of_mem_replicate hc]
    rfl

/-- A name and a value with a colon and one blank between them are a member. -/
theorem member_render {v : Value} {x : List Char} (k : String) (hv : v.Written x) :
    Member Value.Written (k, v) (quoteChars k ++ [':', ' '] ++ x) := by
  have hspace : Blank [' '] := by
    intro c hc
    rw [List.mem_singleton.mp hc]
    rfl
  have h := Member.mk (quoted_quoteChars k) blank_nil hspace hv
  rwa [List.append_nil] at h

mutual

/-- What is printed for a value stands for this value, at every level of indentation. The recursion
is that of the printer. -/
theorem written_render (level : ℕ) : ∀ j : Json, Value.Written j.toValue (render level j)
  | bool true => .yes
  | bool false => .no
  | number n => .number (number_toDigits n)
  | string s => .string (quoted_quoteChars s)
  | array [] => .array (.empty blank_nil)
  | array (e :: es) =>
    .array (.items (blank_newline _) (written_render _ e) (further_renderElements _ es)
      (blank_newline _))
  | object [] => .object (.empty blank_nil)
  | object ((k, v) :: fs) => by
    have h := Enclosed.items (o := '\x7b') (c := '\x7d') (blank_newline (level + 1))
      (member_render k (written_render (level + 1) v)) (further_renderFields (level + 1) fs)
      (blank_newline level)
    rw [← List.append_assoc, ← List.append_assoc] at h
    exact .object h

/-- The elements after the first, each behind a comma and on a line of its own. -/
theorem further_renderElements (level : ℕ) :
    ∀ es : List Json, Further Value.Written (toValues es) (renderElements level es)
  | [] => .nil
  | e :: es =>
    .cons blank_nil (blank_newline _) (written_render _ e) (further_renderElements _ es)

/-- The fields after the first, in the same way. -/
theorem further_renderFields (level : ℕ) :
    ∀ fs : List (String × Json),
      Further (Member Value.Written) (toMembers fs) (renderFields level fs)
  | [] => .nil
  | (k, v) :: fs => by
    have h := Further.cons blank_nil (blank_newline level)
      (member_render k (written_render level v)) (further_renderFields level fs)
    rw [← List.append_assoc, ← List.append_assoc] at h
    exact h

end

/-- The whole print is a document that stands for the value printed. -/
theorem document_pretty (j : Json) : Document j.toValue j.pretty.toList := by
  have h := Document.mk blank_nil (written_render 0 j) blank_nil
  rwa [List.nil_append, List.append_nil, ← String.toList_ofList (l := render 0 j)] at h

/-- The text is JSON and stands for the value, which is read from it, and for no other one. No
object in it has two members of one name. -/
structure IsTextOf (text : String) (v : Value) : Prop where
  document : Document v text.toList
  unique : ∀ w, Document w text.toList → w = v
  read : read? text = some v
  keysUnique : v.KeysUnique

/-- If no object has one key twice, the print is a text of the value in the strict sense. -/
theorem isTextOf_pretty {j : Json} (h : j.toValue.KeysUnique) : IsTextOf j.pretty j.toValue where
  document := document_pretty j
  unique _ hw := document_unique hw (document_pretty j)
  read := read?_of_document (document_pretty j)
  keysUnique := h

end VarBlock.Json
