import VarBlock.Text.Reading

/-!
# What readings take

One lemma for each way to put readings together: what it takes from the front of a text, given
what its parts take (`Takes`). A run of characters stops at the first one that is not in the class,
so the lemmas about runs ask what comes next (`Stops`); a repetition stops where its part refuses
the text.

The lemmas are equations, so a reader is followed by rewriting: each step of a `do` block is one
`bind_eq`. A choice is settled by `orElse_taken` or `orElse_refused`.
-/

namespace VarBlock.Text

/-- No character of the class comes first. -/
def Stops (p : Char → Bool) (cs : List Char) : Prop := ∀ c ∈ cs.head?, p c = false

/-- Texts of items one after the other. -/
inductive Series {α : Type} (Item : α → List Char → Prop) : List α → List Char → Prop
  | nil : Series Item [] []
  | cons {a : α} {as : List α} {x y : List Char} :
      Item a x → Series Item as y → Series Item (a :: as) (x ++ y)

/-- What the reading does on the texts of items of up to `n` characters, as long as the text after
the item is as `Next` says: it takes the item and leaves that text. -/
def Takes {α : Type} (p : Reading α) (Item : α → List Char → Prop) (Next : List Char → Prop)
    (n : Nat) : Prop :=
  ∀ a x rest, Item a x → x.length ≤ n → Next rest → p (x ++ rest) = some (a, rest)

/-- What is written item by item is a series of the items. -/
theorem series_flatMap {α : Type} {Item : α → List Char → Prop} {f : α → List Char}
    (h : ∀ a, Item a (f a)) (as : List α) : Series Item as (as.flatMap f) := by
  induction as with
  | nil => exact .nil
  | cons a as ih => exact .cons (h a) ih

theorem stops_nil (p : Char → Bool) : Stops p [] := by
  intro c hc
  cases hc

theorem stops_cons {p : Char → Bool} {c : Char} (h : p c = false) (cs : List Char) :
    Stops p (c :: cs) := by
  intro d hd
  rwa [← Option.some.inj hd]

/-- A run stops in front of characters that are not in the class, or behind them if there are
none. -/
theorem stops_append {p : Char → Bool} {x cs : List Char} (hx : ∀ c ∈ x, p c = false)
    (hcs : Stops p cs) : Stops p (x ++ cs) := by
  cases x with
  | nil => exact hcs
  | cons c x => exact stops_cons (hx c (List.mem_cons_self ..)) _

/-- Where a run of a wide class stops, one of a narrower class does. -/
theorem Stops.imp {p q : Char → Bool} {cs : List Char} (h : Stops p cs)
    (hpq : ∀ c, q c = true → p c = true) : Stops q cs := by
  intro c hc
  have hp := h c hc
  cases hq : q c with
  | false => rfl
  | true => exact (hpq c hq).symm.trans hp

/-- Where a run of either class stops, one of each does. -/
theorem Stops.or {p q : Char → Bool} {cs : List Char} (h : Stops (fun c => p c || q c) cs) :
    Stops p cs ∧ Stops q cs :=
  ⟨h.imp fun c hc => by rw [hc, Bool.true_or], h.imp fun c hc => by rw [hc, Bool.or_true]⟩

namespace Reading

variable {α β : Type}

/-! ## One after the other -/

/-- After one reading the next goes on where it has stopped. -/
theorem bind_eq {p : Reading α} {f : α → Reading β} {cs rest : List Char} {a : α}
    (h : p cs = some (a, rest)) : (p >>= f) cs = f a rest := by
  show (p cs).bind _ = _
  rw [h]
  rfl

theorem map_eq {p : Reading α} {cs rest : List Char} {a : α} (f : α → β)
    (h : p cs = some (a, rest)) : (f <$> p) cs = some (f a, rest) := by
  show (p cs).bind _ = _
  rw [h]
  rfl

theorem bind_refused {p : Reading α} {cs : List Char} (f : α → Reading β) (h : p cs = none) :
    (p >>= f) cs = none := by
  show (p cs).bind _ = _
  rw [h]
  rfl

theorem map_refused {p : Reading α} {cs : List Char} (f : α → β) (h : p cs = none) :
    (f <$> p) cs = none := by
  show (p cs).bind _ = _
  rw [h]
  rfl

/-! ## One or the other -/

/-- The first of two readings counts where it takes something. -/
theorem orElse_taken {p : Reading α} {cs : List Char} {r : α × List Char} (q : Reading α)
    (h : p cs = some r) : (p <|> q) cs = some r := by
  show (p cs <|> q cs) = _
  rw [h]
  rfl

/-- The second of two readings counts where the first refuses. -/
theorem orElse_refused {p : Reading α} {cs : List Char} (q : Reading α) (h : p cs = none) :
    (p <|> q) cs = q cs := by
  show (p cs <|> q cs) = _
  rw [h]
  rfl

/-! ## Characters -/

theorem satisfy_cons {p : Char → Bool} {c : Char} (h : p c = true) (cs : List Char) :
    satisfy p (c :: cs) = some (c, cs) := by
  rw [satisfy, if_pos h]

theorem char_cons (c : Char) (cs : List Char) : char c (c :: cs) = some ((), cs) :=
  bind_eq (satisfy_cons (decide_eq_true rfl) cs)

/-- A character outside the class is refused, and the end of the text is too. -/
theorem satisfy_refused {p : Char → Bool} {cs : List Char} (h : Stops p cs) :
    satisfy p cs = none := by
  cases cs with
  | nil => rfl
  | cons c cs =>
    have hc : p c = false := h c rfl
    rw [satisfy, hc]
    rfl

theorem char_refused {c : Char} {cs : List Char} (h : Stops (· = c) cs) : char c cs = none :=
  bind_refused _ (satisfy_refused h)

/-- A given text is taken from the front of any that begins with it. -/
theorem literal_append (s : String) (cs : List Char) :
    literal s (s.toList ++ cs) = some ((), cs) := by
  rw [literal]
  induction s.toList with
  | nil => rfl
  | cons c ds ih => exact (bind_eq (char_cons c (ds ++ cs))).trans ih

/-- A run takes all characters of the class up to one that is not. -/
theorem run_append {p : Char → Bool} {x cs : List Char} (hx : ∀ c ∈ x, p c = true)
    (hcs : Stops p cs) : run p (x ++ cs) = some (x, cs) := by
  -- Nothing of what follows is in the class, at least not at its front.
  have htake : cs.takeWhile p = [] ∧ cs.dropWhile p = cs := by
    cases cs with
    | nil => exact ⟨rfl, rfl⟩
    | cons c cs =>
      have hc : p c = false := hcs c rfl
      rw [List.takeWhile_cons, List.dropWhile_cons, hc]
      exact ⟨rfl, rfl⟩
  rw [run, List.takeWhile_append_of_pos hx, List.dropWhile_append_of_pos hx, htake.1, htake.2,
    List.append_nil]

/-- A run of at least one character takes as much, if there is one. -/
theorem run1_append {p : Char → Bool} {x cs : List Char} (hne : x ≠ [])
    (hx : ∀ c ∈ x, p c = true) (hcs : Stops p cs) : run1 p (x ++ cs) = some (x, cs) := by
  obtain ⟨c, x, rfl⟩ := List.exists_cons_of_ne_nil hne
  obtain ⟨hc, hx⟩ := List.forall_mem_cons.mp hx
  rw [run1, List.cons_append, bind_eq (satisfy_cons hc _), bind_eq (run_append hx hcs)]
  rfl

/-! ## Again and again -/

/-- Where the part is refused, the repetition takes nothing more. -/
theorem upTo_of_refused {p : Reading α} {cs : List Char} (h : p cs = none) (n : Nat) :
    upTo n p cs = some ([], cs) := by
  cases n with
  | zero => rfl
  | succ n => exact orElse_refused _ (bind_refused _ h)

/-- Where the part takes something, the repetition goes on behind it. -/
theorem upTo_succ {p : Reading α} {cs mid rest : List Char} {a : α} {as : List α} {n : Nat}
    (h : p cs = some (a, mid)) (hrest : upTo n p mid = some (as, rest)) :
    upTo (n + 1) p cs = some (a :: as, rest) := by
  apply orElse_taken
  rw [bind_eq h, bind_eq hrest]
  rfl

/-- A repetition takes a series of items up to where the next one is refused. -/
theorem many_append {p : Reading α} {Item : α → List Char → Prop} {Next : List Char → Prop}
    {as : List α} {x cs : List Char} {n : Nat} (hp : Takes p Item Next n) (h : Series Item as x)
    (hn : x.length ≤ n) (hitem : ∀ a y rest, Item a y → y ≠ [] ∧ Next (y ++ rest))
    (hcs : Next cs) (hnone : p cs = none) : many p (x ++ cs) = some (as, cs) := by
  -- the bound on the repetitions is only there to end them: each takes a character
  have hupTo : ∀ m, x.length ≤ m → upTo m p (x ++ cs) = some (as, cs) := by
    induction h with
    | nil => exact fun m _ => upTo_of_refused hnone m
    | @cons a as x y ha has ih =>
      rw [List.length_append] at hn
      intro m hm
      rw [List.length_append] at hm
      have hpos := List.length_pos_iff.mpr (hitem a x [] ha).1
      obtain ⟨m, rfl⟩ := Nat.exists_eq_add_one.mpr (show 0 < m by omega)
      have hnext : Next (y ++ cs) := by
        cases has with
        | nil => exact hcs
        | cons hb _ =>
          rw [List.append_assoc]
          exact (hitem _ _ _ hb).2
      rw [List.append_assoc]
      exact upTo_succ (hp a x _ ha (by omega) hnext) (ih (by omega) m (by omega))
  apply hupTo
  rw [List.length_append]
  exact Nat.le_add_right _ _

end Reading

end VarBlock.Text
