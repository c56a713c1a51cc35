import Mathlib
import VarBlock.Proofs.JsonGrammar

/-!
# Reading JSON

A reader for the grammar. Where a value begins, its first character says what it is, and where a
list may go on, the next character says whether it does, so the reader never goes back further than
over blanks. It takes a text of any value from the front of a longer one, if the longer one does
not go on like a number (`takes_value`): hence it reads every JSON text, and

    document_unique : a JSON text stands for one value only

`Takes p Item stop n` says what a reader does: of every text of an item that is not longer than `n`,
if what follows satisfies `stop`, it takes just this text and gives the item. There is one lemma of
this form for each rule of the grammar, and the one for a rule uses those for its parts. The bound
is there for the recursion alone, since the parts of a value are shorter than the value.
-/

namespace VarBlock.Json

open Text Text.Reading

namespace Reader

/-! ## Readings -/

def sign : Reading ℤ := (do char '-'; return -1) <|> return 1

def whole : Reading (List Char) := (do char '0'; return ['0']) <|> run1 Char.isDigit

def fraction : Reading (List Char) := (do char '.'; run1 Char.isDigit) <|> return []

def exponentSign : Reading ℤ := (do char '+'; return 1) <|> sign

def exponent : Reading ℤ :=
  (do
    let _ ← satisfy (· ∈ ['e', 'E'])
    let s ← exponentSign
    let ds ← run1 Char.isDigit
    return s * natural ds) <|> return 0

def number : Reading ℚ := do
  let s ← sign
  let ws ← whole
  let fs ← fraction
  let e ← exponent
  return s * natural (ws ++ fs) * 10 ^ (e - fs.length)

def codeUnit : Reading ℕ := fun cs => (codeUnit? (cs.take 4)).map fun u => (u, cs.drop 4)

/-- A character given by its number, or by two halves. -/
def numbered : Reading Char := do
  let u ← codeUnit
  if u < 0xd800 ∨ 0xe000 ≤ u then return Char.ofNat u
  else
    literal "\\u"
    let l ← codeUnit
    if u < 0xdc00 ∧ 0xdc00 ≤ l ∧ l < 0xe000 then
      return Char.ofNat (0x10000 + 0x400 * (u - 0xd800) + (l - 0xdc00))
    else failure

def escape : Reading Char := do
  let e ← satisfy fun _ => true
  if e = 'u' then numbered
  else
    match escapes.lookup e with
    | some c => return c
    | none => failure

def character : Reading Char := do
  let c ← satisfy fun c => 0x20 ≤ c.toNat && c ≠ '"'
  if c = '\\' then escape else return c

def string : Reading String := do
  char '"'
  let cs ← many character
  char '"'
  return String.ofList cs

def blanks : Reading Unit := do let _ ← run isBlank

def comma : Reading Unit := do
  blanks
  char ','
  blanks

def enclosed {α : Type} (item : Reading α) (o c : Char) : Reading (List α) := do
  char o
  blanks
  let as ← separated item comma <|> return []
  blanks
  char c
  return as

def member {α : Type} (item : Reading α) : Reading (String × α) := do
  let k ← string
  blanks
  char ':'
  blanks
  let a ← item
  return (k, a)

/-- A value in which fewer than `n` arrays and objects lie in one another. -/
def value : ℕ → Reading Value
  | 0 => failure
  | n + 1 => fun cs =>
    match cs.head? with
    | some 'n' => (do literal "null"; return .null : Reading Value) cs
    | some 't' => (do literal "true"; return .bool true : Reading Value) cs
    | some 'f' => (do literal "false"; return .bool false : Reading Value) cs
    | some '"' => (.string <$> string) cs
    | some '[' => (.array <$> enclosed (value n) '[' ']') cs
    | some '\x7b' => (.object <$> enclosed (member (value n)) '\x7b' '\x7d') cs
    | _ => (.number <$> number) cs

def document (n : ℕ) : Reading Value := do
  blanks
  let v ← value n
  blanks
  return v

end Reader

/-- The value that a whole text stands for. -/
def read? (s : String) : Option Value := Reading.all? (Reader.document s.length) s

/-! ## What comes first -/

/-- The characters with which a number may go on. -/
def isNumeric (c : Char) : Bool := c.isDigit || c ∈ ['.', 'e', 'E', '+', '-']

/-- White space ends a number. -/
theorem isNumeric_of_isBlank {c : Char} (h : isBlank c = true) : isNumeric c = false := by
  have hall : ∀ d ∈ [' ', '\t', '\n', '\r'], isNumeric d = false := by simp [isNumeric]
  exact hall c (of_decide_eq_true h)

/-- What ends a number does so with white space before it. -/
theorem Blank.stops_append {g rest : List Char} (h : Blank g) (hrest : Stops isNumeric rest) :
    Stops isNumeric (g ++ rest) :=
  Text.stops_append (fun c hc => isNumeric_of_isBlank (h c hc)) hrest

theorem ne_of_isDigit {c d : Char} (hc : c.isDigit = true) (hd : d.isDigit = false) : c ≠ d := by
  rintro rfl
  cases hc.symm.trans hd

/-- What is no digit does not come where digits come next. -/
theorem Digits.stops_append {p : Char → Bool} {ds : List Char} (h : Digits ds)
    (hp : ∀ c, c.isDigit = true → p c = false) (rest : List Char) : Stops p (ds ++ rest) := by
  obtain ⟨c, ds, rfl⟩ := List.exists_cons_of_ne_nil h.1
  exact stops_cons (hp c (h.2 c (List.mem_cons_self ..))) _

theorem Whole.isDigits {ws : List Char} (h : Whole ws) : Digits ws := by
  cases h with
  | zero => exact ⟨List.cons_ne_nil _ _, by simp⟩
  | digits _ hds => exact hds

/-- A number begins with a minus or a digit. -/
theorem Number.exists_cons {q : ℚ} {t : List Char} (h : Number q t) :
    ∃ c cs, t = c :: cs ∧ (c = '-' ∨ c.isDigit = true) := by
  obtain @⟨s, e, ws, fs, x, y, z, hs, hws, -, -⟩ := h
  cases hs with
  | minus => exact ⟨'-', ws ++ y ++ z, rfl, .inl rfl⟩
  | none =>
    obtain ⟨hne, hdigits⟩ := hws.isDigits
    obtain ⟨c, ws, rfl⟩ := List.exists_cons_of_ne_nil hne
    exact ⟨c, ws ++ y ++ z, rfl, .inr (hdigits c (List.mem_cons_self ..))⟩

/-- A list begins with its opening bracket. -/
theorem Enclosed.exists_cons {α : Type} {Item : α → List Char → Prop} {o c : Char} {as : List α}
    {x : List Char} (h : Enclosed Item o c as x) : ∃ cs, x = o :: cs := by
  cases h with
  | empty _ => exact ⟨_, rfl⟩
  | items _ _ _ _ => exact ⟨_, rfl⟩

/-- A value does not begin with white space. -/
theorem Value.Written.exists_cons {v : Value} {x : List Char} (h : v.Written x) :
    ∃ c cs, x = c :: cs ∧ isBlank c = false := by
  cases h with
  | null => exact ⟨_, _, rfl, rfl⟩
  | yes => exact ⟨_, _, rfl, rfl⟩
  | no => exact ⟨_, _, rfl, rfl⟩
  | number hq =>
    -- A blank would end a number, but a number goes on with its first character.
    obtain ⟨c, cs, rfl, hc⟩ := hq.exists_cons
    refine ⟨c, cs, rfl, Bool.eq_false_of_not_eq_true ?_⟩
    intro hblank
    have hnumeric := isNumeric_of_isBlank hblank
    rcases hc with rfl | hc
    · cases hnumeric
    · rw [isNumeric, hc] at hnumeric
      cases hnumeric
  | string hs =>
    cases hs
    exact ⟨_, _, rfl, rfl⟩
  | array hvs =>
    obtain ⟨cs, rfl⟩ := hvs.exists_cons
    exact ⟨_, _, rfl, rfl⟩
  | object hms =>
    obtain ⟨cs, rfl⟩ := hms.exists_cons
    exact ⟨_, _, rfl, rfl⟩

/-- So the blanks before a value end where it begins. -/
theorem Value.Written.stops {v : Value} {x : List Char} (h : v.Written x) (rest : List Char) :
    Stops isBlank (x ++ rest) := by
  obtain ⟨c, cs, rfl, hc⟩ := h.exists_cons
  exact stops_cons hc _

/-- The blanks before a member end where its name begins. -/
theorem Member.stops {α : Type} {Item : α → List Char → Prop} {m : String × α} {x : List Char}
    (h : Member Item m x) (rest : List Char) : Stops isBlank (x ++ rest) := by
  cases h with
  | mk hk _ _ _ =>
    cases hk
    exact stops_cons rfl _

namespace Reader

/-! ## Numbers -/

section Numbers

variable {n : ℕ}

theorem takes_sign : Takes sign Sign (Stops (· = '-')) n := by
  intro s x rest h _ hrest
  cases h with
  | none => exact orElse_refused _ (bind_refused _ (char_refused hrest))
  | minus => exact orElse_taken _ (bind_eq (char_cons '-' rest))

/-- The whole part of a number is read up to its last digit. -/
theorem whole_append {ws rest : List Char} (h : Whole ws) (hrest : Stops Char.isDigit rest) :
    whole (ws ++ rest) = some (ws, rest) := by
  cases h with
  | zero => exact orElse_taken _ (bind_eq (char_cons '0' rest))
  | @digits c ds hc hds =>
    have hzero : Stops (· = '0') (c :: ds ++ rest) := stops_cons (decide_eq_false hc) _
    rw [whole, orElse_refused _ (bind_refused _ (char_refused hzero))]
    exact run1_append hds.1 hds.2 hrest

/-- A fraction is read, or nothing where no point follows. -/
theorem takes_fraction : Takes fraction Fraction (Stops fun c => c.isDigit || c = '.') n := by
  intro fs x rest h _ hrest
  cases h with
  | none => exact orElse_refused _ (bind_refused _ (char_refused hrest.or.2))
  | digits hds =>
    exact orElse_taken _ ((bind_eq (char_cons '.' _)).trans (run1_append hds.1 hds.2 hrest.or.1))

/-- The sign of an exponent is read, be it a plus, a minus or none. -/
theorem takes_exponentSign :
    Takes exponentSign ExponentSign (Stops fun c => c = '+' || c = '-') n := by
  intro s x rest h _ hrest
  obtain ⟨hplus, hminus⟩ := hrest.or
  cases h with
  | none =>
    exact (orElse_refused _ (bind_refused _ (char_refused hplus))).trans
      (takes_sign 1 [] rest .none (Nat.le_refl _) hminus)
  | plus => exact orElse_taken _ (bind_eq (char_cons '+' rest))
  | minus =>
    -- A minus is not a plus, so the first reading refuses and the second is tried.
    have hsign : Stops (· = '+') ('-' :: rest) := stops_cons rfl _
    exact (orElse_refused _ (bind_refused _ (char_refused hsign))).trans
      (takes_sign (-1) ['-'] rest .minus (Nat.le_refl _) hminus)

/-- An exponent is read, or nothing where no `e` follows. -/
theorem takes_exponent : Takes exponent Exponent (Stops isNumeric) n := by
  intro s x rest h _ hrest
  cases h with
  | none =>
    have hmark : Stops (· ∈ ['e', 'E']) rest := hrest.imp (by simp [isNumeric])
    exact orElse_refused _ (bind_refused _ (satisfy_refused hmark))
  | @digits e s x ds he hs hds =>
    have hdigit : Stops Char.isDigit rest := hrest.or.1
    -- A sign or digits follow the mark. The reader of the sign stops because digits are neither
    -- sign.
    have hsign : Stops (fun c => c = '+' || c = '-') (ds ++ rest) := by
      apply hds.stops_append
      intro c hc
      rw [decide_eq_false (ne_of_isDigit hc rfl), decide_eq_false (ne_of_isDigit hc rfl)]
      rfl
    apply orElse_taken
    rw [List.cons_append, List.cons_append, List.append_assoc,
      bind_eq (satisfy_cons (decide_eq_true he) _),
      bind_eq (takes_exponentSign s x _ hs (Nat.le_refl _) hsign),
      bind_eq (run1_append hds.1 hds.2 hdigit)]
    rfl

/-- A number is read from the front of a text that does not go on like one. -/
theorem takes_number : Takes number Number (Stops isNumeric) n := by
  intro q t rest h _ hrest
  obtain @⟨s, e, ws, fs, x, y, z, hs, hws, hfs, he⟩ := h
  -- Each part is read up to where the next begins, so it has to be seen that the next does not go
  -- on with it: a mark is no digit, a point is none, and a digit is no sign.
  have hexponent : Stops (fun c => c.isDigit || c = '.') (z ++ rest) := by
    cases he with
    | none => exact hrest.imp (by simp +contextual [isNumeric, or_imp])
    | digits he _ _ => exact stops_cons (by rcases List.mem_pair.mp he with rfl | rfl <;> rfl) _
  have hfraction : Stops Char.isDigit (y ++ (z ++ rest)) := by
    cases hfs with
    | none => exact hexponent.or.1
    | digits _ => exact stops_cons rfl _
  have hsign : Stops (· = '-') (ws ++ (y ++ (z ++ rest))) :=
    hws.isDigits.stops_append (fun c hc => decide_eq_false (ne_of_isDigit hc rfl)) _
  rw [number, List.append_assoc, List.append_assoc, List.append_assoc,
    bind_eq (takes_sign s x _ hs (Nat.le_refl _) hsign), bind_eq (whole_append hws hfraction),
    bind_eq (takes_fraction fs y _ hfs (Nat.le_refl _) hexponent),
    bind_eq (takes_exponent e z rest he (Nat.le_refl _) hrest)]
  rfl

end Numbers

/-! ## Strings -/

section Strings

variable {n : ℕ}

/-- Four hexadecimal digits are read as a code unit. -/
theorem codeUnit_append {ds : List Char} {u : ℕ} (h : codeUnit? ds = some u) (rest : List Char) :
    codeUnit (ds ++ rest) = some (u, rest) := by
  match ds, h with
  | [a, b, c, d], h =>
    show (codeUnit? [a, b, c, d]).map _ = _
    rw [h]
    rfl

/-- No character has the number of a half. -/
theorem toNat_no_half (c : Char) : c.toNat < 0xd800 ∨ 0xe000 ≤ c.toNat :=
  c.valid.imp_right fun h => h.1

theorem character_backslash (cs : List Char) : character ('\\' :: cs) = escape cs :=
  bind_eq (satisfy_cons rfl cs)

theorem escape_letter {c e : Char} (h : (e, c) ∈ escapes) (cs : List Char) :
    escape (e :: cs) = some (c, cs) := by
  simp only [escapes, List.mem_cons, Prod.mk.injEq, List.not_mem_nil, or_false] at h
  rcases h with ⟨rfl, rfl⟩ | ⟨rfl, rfl⟩ | ⟨rfl, rfl⟩ | ⟨rfl, rfl⟩ | ⟨rfl, rfl⟩ | ⟨rfl, rfl⟩ |
    ⟨rfl, rfl⟩ | ⟨rfl, rfl⟩ <;> rfl

theorem escape_u (cs : List Char) : escape ('u' :: cs) = numbered cs :=
  bind_eq (satisfy_cons rfl cs)

/-- A character of a string is read in each of the ways to write it. -/
theorem takes_character : Takes character Character (fun _ => True) n := by
  intro c x rest h _ _
  -- The four ways: as it is, by a letter, by one code unit, and by two halves.
  cases h with
  | plain hlow hquote hslash =>
    have hc : (0x20 ≤ c.toNat && c ≠ '"') = true := by simp [hlow, hquote]
    rw [character, List.singleton_append, bind_eq (satisfy_cons hc _), if_neg hslash]
    rfl
  | letter he => exact (character_backslash _).trans (escape_letter he rest)
  | unit hu =>
    rw [List.cons_append, List.cons_append, character_backslash, escape_u, numbered,
      bind_eq (codeUnit_append hu rest), if_pos (toNat_no_half c), Char.ofNat_toNat]
    rfl
  | @halves high low ds es hhigh hlow hu hl hc =>
    -- The two halves make up the code of the character, as the grammar computes it.
    have hsum : 0x10000 + 0x400 * (0xd800 + high - 0xd800) + (0xdc00 + low - 0xdc00) = c.toNat := by
      omega
    rw [List.append_assoc, List.cons_append, List.cons_append, character_backslash, escape_u,
      numbered, bind_eq (codeUnit_append hu _), if_neg (by omega)]
    have hmark : literal "\\u" ('\\' :: 'u' :: es ++ rest) = some ((), es ++ rest) :=
      literal_append "\\u" (es ++ rest)
    rw [bind_eq hmark, bind_eq (codeUnit_append hl rest), if_pos (by omega), hsum, Char.ofNat_toNat]
    rfl

theorem takes_string : Takes string Quoted (fun _ => True) n := by
  intro s t rest h _ _
  obtain @⟨cs, x, hx⟩ := h
  -- The closing quote is no character, so the repetition stops at it.
  have hcharacters : many character (x ++ '"' :: rest) = some (cs, '"' :: rest) := by
    refine many_append takes_character hx (Nat.le_refl _) ?_ trivial rfl
    intro c y rest hc
    cases hc <;> exact ⟨List.cons_ne_nil _ _, trivial⟩
  rw [string, List.append_assoc, List.cons_append, bind_eq (char_cons _ _), List.singleton_append,
    bind_eq hcharacters, bind_eq (char_cons _ _)]
  rfl

end Strings

/-! ## Lists -/

section Lists

variable {α : Type} {item : Reading α} {Item : α → List Char → Prop} {n : ℕ}

/-- A further item with the comma before it. -/
def AfterComma (Item : α → List Char → Prop) (a : α) (x : List Char) : Prop :=
  ∃ g g' y, Blank g ∧ Blank g' ∧ Item a y ∧ x = g ++ ',' :: g' ++ y

/-- The further items of a list are a series of items with a comma before each. -/
theorem series_of_further {as : List α} {x : List Char} (h : Further Item as x) :
    Series (AfterComma Item) as x := by
  induction h with
  | nil => exact .nil
  | cons hg hg' ha _ ih => exact .cons ⟨_, _, _, hg, hg', ha, rfl⟩ ih

/-- Blanks are read up to the first character that is none. -/
theorem blanks_append {g rest : List Char} (h : Blank g) (hrest : Stops isBlank rest) :
    blanks (g ++ rest) = some ((), rest) :=
  bind_eq (run_append h hrest)

/-- A comma is read with the blanks around it. -/
theorem comma_append {g g' rest : List Char} (hg : Blank g) (hg' : Blank g')
    (hrest : Stops isBlank rest) : comma (g ++ ',' :: g' ++ rest) = some ((), rest) := by
  rw [comma, List.append_assoc, List.cons_append, bind_eq (blanks_append hg (stops_cons rfl _)),
    bind_eq (char_cons _ _)]
  exact blanks_append hg' hrest

/-- No comma is read where, after blanks, something else follows. -/
theorem comma_refused {g rest : List Char} {c : Char} (hg : Blank g) (hc : isBlank c = false)
    (hcomma : c ≠ ',') : comma (g ++ c :: rest) = none := by
  rw [comma, bind_eq (blanks_append hg (stops_cons hc _))]
  exact bind_refused _ (char_refused (stops_cons (decide_eq_false hcomma) _))

variable (hitem : Takes item Item (Stops isNumeric) n)
  (hfirst : ∀ a x rest, Item a x → Stops isBlank (x ++ rest))

include hitem hfirst in
/-- An item is read with the comma before it. -/
theorem takes_afterComma :
    Takes (do let _ ← comma; item) (AfterComma Item) (Stops isNumeric) n := by
  rintro a _ rest ⟨g, g', y, hg, hg', ha, rfl⟩ hn hrest
  rw [List.length_append] at hn
  rw [List.append_assoc, bind_eq (comma_append hg hg' (hfirst a y rest ha))]
  exact hitem a y rest ha (by omega) hrest

/-- A further item is not empty, and its comma ends the number that may stand before it. -/
theorem AfterComma.stops {a : α} {x : List Char} (h : AfterComma Item a x) (rest : List Char) :
    x ≠ [] ∧ Stops isNumeric (x ++ rest) := by
  obtain ⟨g, g', y, hg, -, -, rfl⟩ := h
  constructor
  · simp
  · rw [List.append_assoc, List.append_assoc]
    exact hg.stops_append (stops_cons rfl _)

include hitem hfirst in
/-- The items of a list that is not empty are read up to the last, if no comma follows. -/
theorem separated_append {a : α} {as : List α} {x y rest : List Char} (ha : Item a x)
    (has : Further Item as y) (hx : x.length ≤ n) (hy : y.length ≤ n)
    (hrest : Stops isNumeric rest) (hnone : comma rest = none) :
    separated item comma (x ++ (y ++ rest)) = some (a :: as, rest) := by
  -- Behind the first item comes a comma or what follows the list, and neither goes on with a
  -- number.
  have hnext : Stops isNumeric (y ++ rest) := by
    cases series_of_further has with
    | nil => exact hrest
    | cons hb _ =>
      rw [List.append_assoc]
      exact (hb.stops _).2
  have hmany := many_append (takes_afterComma hitem hfirst) (series_of_further has) hy
    (fun b y rest hb => hb.stops rest) hrest (bind_refused _ hnone)
  rw [separated, bind_eq (hitem a x _ ha hx hnext), bind_eq hmany]
  rfl

include hitem hfirst in
/-- A list is taken whatever comes after it. What closes it is no item and no part of one. -/
theorem takes_enclosed {o c : Char} (hc : c ∈ [']', '\x7d'])
    (hnone : ∀ rest, item (c :: rest) = none) :
    Takes (enclosed item o c) (Enclosed Item o c) (fun _ => True) (n + 1) := by
  have hblank : isBlank c = false := by rcases List.mem_pair.mp hc with rfl | rfl <;> rfl
  have hnumeric : isNumeric c = false := by rcases List.mem_pair.mp hc with rfl | rfl <;> rfl
  have hcomma : c ≠ ',' := by rcases List.mem_pair.mp hc with rfl | rfl <;> decide
  intro as t rest h hn _
  -- Behind the last item, or the blanks of an empty list, the bracket closes it.
  have hclose : ∀ g, Blank g →
      (do blanks; char c; return as : Reading (List α)) (g ++ c :: rest) = some (as, rest) := by
    intro g hg
    rw [bind_eq (blanks_append hg (stops_cons hblank rest)), bind_eq (char_cons c rest)]
    rfl
  cases h with
  | @empty g hg =>
    have hitems : (separated item comma <|> pure [] : Reading (List α)) (c :: rest) =
        some ([], c :: rest) :=
      orElse_refused _ (bind_refused _ (hnone rest))
    rw [enclosed, List.cons_append, List.cons_append, List.append_assoc, List.singleton_append,
      bind_eq (char_cons _ _), bind_eq (blanks_append hg (stops_cons hblank rest)), bind_eq hitems]
    exact hclose [] blank_nil
  | @items a as g g' x y hg ha has hg' =>
    simp only [List.length_append, List.length_cons, List.length_nil] at hn
    have hitems : (separated item comma <|> pure [] : Reading (List α))
        (x ++ (y ++ (g' ++ c :: rest))) = some (a :: as, g' ++ c :: rest) :=
      orElse_taken _ (separated_append hitem hfirst ha has (by omega) (by omega)
        (hg'.stops_append (stops_cons hnumeric rest)) (comma_refused hg' hblank hcomma))
    simp only [enclosed, List.cons_append, List.append_assoc, List.nil_append]
    rw [bind_eq (char_cons _ _), bind_eq (blanks_append hg (hfirst a x _ ha)), bind_eq hitems]
    exact hclose g' hg'

include hitem hfirst in
theorem takes_member : Takes (member item) (Member Item) (Stops isNumeric) n := by
  intro m t rest h hn hrest
  obtain @⟨k, a, g, g', x, y, hk, hg, hg', ha⟩ := h
  simp only [List.length_append, List.length_cons] at hn
  simp only [member, List.cons_append, List.append_assoc]
  rw [bind_eq (takes_string k x _ hk (Nat.le_refl _) trivial),
    bind_eq (blanks_append hg (stops_cons rfl _)), bind_eq (char_cons _ _),
    bind_eq (blanks_append hg' (hfirst a y rest ha)), bind_eq (hitem a y rest ha (by omega) hrest)]
  rfl

end Lists

/-! ## Values -/

/-- What closes a list begins no value. -/
theorem value_closed {c : Char} (hc : c ∈ [']', '\x7d']) (n : ℕ) (rest : List Char) :
    value n (c :: rest) = none := by
  cases n with
  | zero => rfl
  | succ n => rcases List.mem_pair.mp hc with rfl | rfl <;> rfl

/-- Where a number begins, `value` tries a number. The first character tells. -/
theorem value_number {q : ℚ} {x : List Char} (h : Number q x) (n : ℕ) (rest : List Char) :
    value (n + 1) (x ++ rest) = (Value.number <$> number) (x ++ rest) := by
  obtain ⟨c, cs, rfl, hc⟩ := h.exists_cons
  simp only [List.cons_append, value, List.head?_cons]
  -- none of the characters that begin another value begins a number
  split
  case h_7 => rfl
  all_goals
    rename_i heq
    cases heq
    simp at hc

/-- **The reader takes every text of a value.** What lies in a list is shorter than the list, so the
bound on the depth is met too. -/
theorem takes_value (n : ℕ) : Takes (value n) Value.Written (Stops isNumeric) n := by
  -- The induction is on the bound of the length. The items of a list are shorter than the list, so
  -- `ih` reads them.
  induction n with
  | zero =>
    intro v x rest h hn _
    obtain ⟨c, cs, rfl, -⟩ := h.exists_cons
    cases hn
  | succ n ih =>
    have hfirst : ∀ v x rest, Value.Written v x → Stops isBlank (x ++ rest) :=
      fun _ _ rest h => h.stops rest
    intro v x rest h hn hrest
    cases h with
    | null => exact bind_eq (literal_append "null" rest)
    | yes => exact bind_eq (literal_append "true" rest)
    | no => exact bind_eq (literal_append "false" rest)
    | number hq =>
      rw [value_number hq]
      exact map_eq _ (takes_number _ _ rest hq hn hrest)
    | string hs =>
      have hstring := map_eq Value.string (takes_string _ _ rest hs hn trivial)
      cases hs
      exact hstring
    | array hvs =>
      have hlist := takes_enclosed ih hfirst (o := '[') (c := ']') (by simp)
        (value_closed (by simp) n)
      have harray := map_eq Value.array (hlist _ _ rest hvs hn trivial)
      obtain ⟨cs, rfl⟩ := hvs.exists_cons
      exact harray
    | object hms =>
      have hlist := takes_enclosed (takes_member ih hfirst) (fun _ _ rest h => h.stops rest)
        (o := '\x7b') (c := '\x7d') (by simp) (fun _ => rfl)
      have hobject := map_eq Value.object (hlist _ _ rest hms hn trivial)
      obtain ⟨cs, rfl⟩ := hms.exists_cons
      exact hobject

end Reader

/-- Whatever stands for a value is read as that value. -/
theorem document_append {v : Value} {cs : List Char} (h : Document v cs) :
    Reader.document cs.length cs = some (v, []) := by
  obtain @⟨g, g', x, hg, hx, hg'⟩ := h
  have hv : Reader.value (g ++ x ++ g').length (x ++ g') = some (v, g') := by
    apply Reader.takes_value _ v x g' hx
    · simp only [List.length_append]
      omega
    · rw [← List.append_nil g']
      exact hg'.stops_append (stops_nil _)
  -- At the end of the text the blanks are read to the last.
  have hend : Reader.blanks g' = some ((), []) := by
    rw [← List.append_nil g']
    exact Reader.blanks_append hg' (stops_nil _)
  rw [Reader.document, List.append_assoc, bind_eq (Reader.blanks_append hg (hx.stops g')),
    ← List.append_assoc, bind_eq hv, bind_eq hend]
  rfl

/-- Every JSON text is read, as the value that it stands for. -/
theorem read?_of_document {v : Value} {s : String} (h : Document v s.toList) :
    read? s = some v := by
  rw [read?, Reading.all?, ← String.length_toList, document_append h]

example : read? " [-1.50e2, \"\\n\\u0041\\ud83d\\ude00\"]" =
    some (.array [.number (-150), .string "\nA😀"]) := by cbv

/-- **A JSON text stands for one value only.** -/
theorem document_unique {v w : Value} {cs : List Char} (hv : Document v cs) (hw : Document w cs) :
    v = w := by
  have h := (document_append hv).symm.trans (document_append hw)
  cases h
  rfl

end VarBlock.Json
