import Mathlib.Data.List.Basic
import Mathlib.Tactic.SplitIfs
import VarBlock.Text.Quoted

/-!
# Quoted texts can be taken off the front

Whatever follows a quoted text, it is clear where the text ends and which text it is. Such a code is
called *prefix-free*: a word of it at the front of other characters is not the word of anything else
and tells what the rest is.

How a character is written between quotes is one of three ways (`Escape`), told apart by the first
two characters. So the escapes are prefix-free, and as none of them begins with a quote, the quote
that ends a text is the first that stands where an escape would begin:

    prefixFree_quoted : PrefixFree fun s => (quoted s).toList
-/

namespace VarBlock.Text

variable {α : Type}

/-- A word of the code at the front of a text tells what it stands for and what follows it. -/
def PrefixFree (f : α → List Char) : Prop :=
  ∀ a b x y, f a ++ x = f b ++ y → a = b ∧ x = y

/-- A prefix-free code is one for each thing. -/
theorem PrefixFree.injective {f : α → List Char} (hf : PrefixFree f) : Function.Injective f := by
  intro a b h
  exact (hf a b [] [] (by rw [h])).1

/-- Words without a character end where it stands first. -/
theorem prefixFree_concat {f : α → List Char} {stop : Char} (hf : Function.Injective f)
    (hstop : ∀ a, stop ∉ f a) : PrefixFree fun a => f a ++ [stop] := by
  -- The word can be read off the front, up to the character that it does not have.
  have hword : ∀ a x, ((f a ++ [stop]) ++ x).takeWhile (· ≠ stop) = f a := by
    intro a x
    have hne : ∀ c ∈ f a, decide (c ≠ stop) = true := by
      intro c hc
      exact decide_eq_true (ne_of_mem_of_not_mem hc (hstop a))
    rw [List.append_assoc, List.takeWhile_append_of_pos hne]
    simp
  intro a b x y h
  obtain rfl : a = b := hf (by rw [← hword a x, h, hword b y])
  exact ⟨rfl, List.append_cancel_left h⟩

/-- Words of a prefix-free code one after the other, up to a character that begins none of them. -/
theorem PrefixFree.flatMap_concat {f : α → List Char} {stop : Char} (hf : PrefixFree f)
    (hstop : ∀ a x y, f a ++ x ≠ stop :: y) :
    PrefixFree fun as : List α => as.flatMap f ++ [stop] := by
  intro as
  -- Word by word from the front. Where one side has ended and the other has not, `stop` would have
  -- to stand where a word does.
  induction as with
  | nil =>
    intro bs x y h
    cases bs with
    | nil => exact ⟨rfl, List.append_cancel_left h⟩
    | cons b bs =>
      simp only [List.flatMap_nil, List.flatMap_cons, List.append_assoc] at h
      exact absurd h.symm (hstop b _ x)
  | cons a as ih =>
    intro bs x y h
    cases bs with
    | nil =>
      simp only [List.flatMap_nil, List.flatMap_cons, List.append_assoc] at h
      exact absurd h (hstop a _ y)
    | cons b bs =>
      simp only [List.flatMap_cons, List.append_assoc] at h
      obtain ⟨rfl, h⟩ := hf a b _ _ h
      obtain ⟨rfl, hrest⟩ := ih bs x y (by simpa using h)
      exact ⟨rfl, hrest⟩

/-! ## Digits -/

theorem digitChar_inj : ∀ m < 16, ∀ n < 16, Nat.digitChar m = Nat.digitChar n → m = n := by decide

/-- What holds of every digit of a base holds of the digits of a number in that base. -/
theorem all_toDigits {p : Char → Bool} {b : Nat} (hb : 1 < b)
    (hp : ∀ d < b, p (Nat.digitChar d) = true) (n : Nat) : (Nat.toDigits b n).all p = true := by
  induction n using Nat.strongRecOn with
  | ind n ih =>
    rw [Nat.toDigits_eq_if hb]
    split
    · next hlt => rw [List.all_cons, hp n hlt, List.all_nil, Bool.and_self]
    · next hge =>
      have hpos : 0 < b := Nat.lt_of_succ_lt hb
      -- All digits but the last are those of the quotient, which is smaller.
      have hlt : n / b < n := Nat.div_lt_self (by omega) hb
      rw [List.all_append, ih _ hlt, List.all_cons, hp _ (Nat.mod_lt n hpos)]
      rfl

/-- The digits of a number are those of its quotient by the base and one more. -/
theorem toDigits_eq_concat {b : Nat} (hb : 1 < b) (n : Nat) : Nat.toDigits b n =
    (if n < b then [] else Nat.toDigits b (n / b)) ++ [Nat.digitChar (n % b)] := by
  rw [Nat.toDigits_eq_if hb]
  split
  · next hlt => rw [Nat.mod_eq_of_lt hlt, List.nil_append]
  · rfl

/-- Numbers are told apart by their digits. -/
theorem toDigits_injective {b : Nat} (hb : 1 < b) (hb' : b ≤ 16) :
    Function.Injective (Nat.toDigits b) := by
  intro m
  induction m using Nat.strongRecOn with
  | ind m ih =>
    intro n h
    rw [toDigits_eq_concat hb m, toDigits_eq_concat hb n] at h
    -- The last digits are those of the remainders, and what is in front of them those of the
    -- quotients.
    obtain ⟨hinit, hlast⟩ := List.append_inj' h rfl
    have hmod : m % b = n % b := by
      have hlt : ∀ k, k % b < 16 := fun k =>
        Nat.lt_of_lt_of_le (Nat.mod_lt k (Nat.lt_of_succ_lt hb)) hb'
      exact digitChar_inj _ (hlt m) _ (hlt n) (List.cons.inj hlast).1
    have hdiv : m / b = n / b := by
      -- If there is just one digit the quotient is zero. One digit is never as many as two.
      split_ifs at hinit with hm hn hn
      · rw [Nat.div_eq_of_lt hm, Nat.div_eq_of_lt hn]
      · exact absurd hinit.symm Nat.toDigits_ne_nil
      · exact absurd hinit Nat.toDigits_ne_nil
      · exact ih (m / b) (Nat.div_lt_self (by omega) hb) hinit
    rw [← Nat.div_add_mod m b, hdiv, hmod, Nat.div_add_mod]

/-! ## Escapes -/

/-- The characters that have a letter of their own behind the backslash, by these letters. -/
def escapeLetters : List (Char × Char) :=
  [('0', '\x00'), ('t', '\t'), ('r', '\r'), ('n', '\n'), ('"', '"'), ('\\', '\\')]

/-- How a character is written between quotes: by a letter, by its code point, or as it is. -/
inductive Escape (c : Char) : List Char → Prop
  | letter {e : Char} : escapeLetters.lookup e = some c → Escape c ['\\', e]
  | codePoint : Escape c ('\\' :: 'u' :: '\x7b' :: (hexDigits c.toNat ++ ['\x7d']))
  | plain : c ≠ '\\' → c ≠ '"' → Escape c [c]

/-- A character is written in one of the three ways. -/
theorem escape_escapeChar (c : Char) : Escape c (escapeChar c) := by
  rw [escapeChar]
  -- The six characters with a letter, then those written by their code, and last all others.
  split_ifs with h0 ht hr hn hq hb hcode
  · rw [h0]; exact .letter rfl
  · rw [ht]; exact .letter rfl
  · rw [hr]; exact .letter rfl
  · rw [hn]; exact .letter rfl
  · rw [hq]; exact .letter rfl
  · rw [hb]; exact .letter rfl
  · exact .codePoint
  · exact .plain hb hq

/-- The code point of a character ends at the closing brace. -/
theorem prefixFree_hexDigits : PrefixFree fun n => hexDigits n ++ ['\x7d'] := by
  apply prefixFree_concat (toDigits_injective (by decide) (by decide))
  intro n hmem
  have hall := all_toDigits (p := fun c => c ≠ '\x7d') (b := 16) (by decide) (by decide) n
  simpa using List.all_eq_true.mp hall _ hmem

/-- Two ways to write a character begin differently, and one way tells the character. -/
theorem Escape.eq_of_append_eq {c d : Char} {v w x y : List Char} (hc : Escape c v)
    (hd : Escape d w) (h : v ++ x = w ++ y) : c = d ∧ x = y := by
  -- Two escapes of different ways differ in the first or in the second character, and two of the
  -- same way are told apart by what comes after.
  cases hc with
  | @letter e hc =>
    cases hd with
    | @letter e' hd =>
      simp only [List.cons_append, List.nil_append, List.cons.injEq, true_and] at h
      obtain ⟨rfl, hrest⟩ := h
      exact ⟨Option.some.inj (hc.symm.trans hd), hrest⟩
    | codePoint =>
      simp only [List.cons_append, List.nil_append, List.cons.injEq, true_and] at h
      rw [h.1] at hc
      cases hc
    | plain hbackslash hquote => exact absurd (List.cons.inj h).1.symm hbackslash
  | codePoint =>
    cases hd with
    | @letter e hd =>
      simp only [List.cons_append, List.nil_append, List.cons.injEq, true_and] at h
      rw [← h.1] at hd
      cases hd
    | codePoint =>
      simp only [List.cons_append, List.cons.injEq, true_and] at h
      obtain ⟨hcode, hrest⟩ := prefixFree_hexDigits c.toNat d.toNat x y h
      exact ⟨Char.toNat_inj.mp hcode, hrest⟩
    | plain hbackslash hquote => exact absurd (List.cons.inj h).1.symm hbackslash
  | plain hbackslash hquote =>
    cases hd with
    | letter hd => exact absurd (List.cons.inj h).1 hbackslash
    | codePoint => exact absurd (List.cons.inj h).1 hbackslash
    | plain hbackslash' hquote' => exact List.cons.inj h

/-- Where an escape stands, the quote that ends a text does not. -/
theorem Escape.append_ne {c : Char} {w : List Char} (h : Escape c w) (x y : List Char) :
    w ++ x ≠ '"' :: y := by
  intro heq
  cases h with
  | letter h => cases heq
  | codePoint => cases heq
  | plain hbackslash hquote => exact hquote (List.cons.inj heq).1

/-- How a character is written tells where it ends and which one it is. -/
theorem prefixFree_escapeChar : PrefixFree escapeChar := fun c d _ _ h =>
  (escape_escapeChar c).eq_of_append_eq (escape_escapeChar d) h

/-- **A quoted text is known from its front**, whatever follows it. -/
theorem prefixFree_quoted : PrefixFree fun s => (quoted s).toList := by
  intro s t x y h
  have htexts := prefixFree_escapeChar.flatMap_concat
    (fun c x y => (escape_escapeChar c).append_ne x y) s.toList t.toList x y
  simp only [quoted, String.toList_ofList, List.cons_append, List.cons.injEq, true_and] at h
  obtain ⟨hlist, hrest⟩ := htexts h
  exact ⟨String.toList_inj.mp hlist, hrest⟩

end VarBlock.Text
