import VarBlock.Proofs.TokenListing

/-!
# Messages can be told apart

A message on a token that does not fit has five parts: words that only one language begins with,
what was expected, words of the language again, the kind of the token and its quoted text. What was
expected has no comma in it and the name of a kind is all letters, so the parts are known from the
front, whatever the text has in it. The other messages are fixed, and begin otherwise.

What a message tells is thus its language and all of the problem but the state (`Problem.told`).

The parts are taken off one after the other, each by the lemma that its code is prefix-free
(`Quoting`). Words of a language are the only constants among them. That a fixed message is never
one of these is seen from its first words.
-/

namespace VarBlock

open Text

namespace Language

/-- The words before what was expected. -/
def lead : Language → String
  | english => "expected "
  | russian => "Ожидал: "

/-- The words between what was expected, with a comma behind it, and the kind of the token. -/
def joint : Language → String
  | english => " got <"
  | russian => " получил: <"

/-- The five parts of a message, with the mark that ends each. -/
theorem toList_unexpectedToken (l : Language) (m : Mismatch) (text : String) :
    (l.unexpectedToken m text).toList = l.lead.toList ++
      (((l.expectation m.expected).toList ++ [',']) ++
        (l.joint.toList ++ ((m.found.name.toList ++ ['>']) ++ (' ' :: (quoted text).toList)))) := by
  cases l <;> simp [unexpectedToken, lead, joint]

/-- The languages begin their messages differently, and neither beginning begins the other. -/
theorem prefixFree_lead : PrefixFree fun l : Language => l.lead.toList := by
  intro l l' x y h
  cases l <;> cases l'
  · exact ⟨rfl, List.append_cancel_left h⟩
  · simp [lead] at h
  · simp [lead] at h
  · exact ⟨rfl, List.append_cancel_left h⟩

theorem expectation_injective (l : Language) : Function.Injective l.expectation := by
  intro e e' h
  cases l <;> cases e <;> cases e' <;> simp [expectation] at h ⊢

/-- With the comma behind them, the words of no expectation begin those of another. -/
theorem prefixFree_expectation (l : Language) :
    PrefixFree fun e => (l.expectation e).toList ++ [','] := by
  apply prefixFree_concat
  · intro e e' h
    exact l.expectation_injective (String.toList_inj.mp h)
  · intro e
    cases l <;> cases e <;> decide

/-- From a message on an unexpected token, everything in it is known. -/
theorem unexpectedToken_inj {l l' : Language} {m m' : Mismatch} {text text' : String}
    (h : l.unexpectedToken m text = l'.unexpectedToken m' text') :
    l = l' ∧ m = m' ∧ text = text' := by
  have hchars := congrArg String.toList h
  rw [toList_unexpectedToken, toList_unexpectedToken] at hchars
  -- The language is known first, and then what its words are. The texts at the end need not be
  -- looked into.
  obtain ⟨rfl, hchars⟩ := prefixFree_lead l l' _ _ hchars
  obtain ⟨hexpected, hchars⟩ := l.prefixFree_expectation m.expected m'.expected _ _ hchars
  have hchars := List.append_cancel_left hchars
  obtain ⟨hfound, hchars⟩ := TokenKind.prefixFree_name rfl m.found m'.found _ _ hchars
  have htext : text = text' := prefixFree_quoted.injective (List.cons.inj hchars).2
  refine ⟨rfl, ?_, htext⟩
  calc
    m = ⟨m.expected, m.found⟩ := rfl
    _ = ⟨m'.expected, m'.found⟩ := by rw [hexpected, hfound]

/-- A message on an unexpected token begins with the words of its language. -/
theorem lead_prefix_unexpectedToken (l : Language) (m : Mismatch) (text : String) :
    l.lead.toList <+: (l.unexpectedToken m text).toList := by
  rw [toList_unexpectedToken]
  exact List.prefix_append _ _

/-- No other message begins like one on a token that does not fit. -/
theorem not_lead_prefix (l l' : Language) :
    ¬ l.lead.toList <+: l'.unterminated.toList ∧ ¬ l.lead.toList <+: l'.success.toList := by
  cases l <;> cases l' <;> decide

/-- A message on an unexpected token is none of the fixed messages, of either language. -/
theorem unexpectedToken_ne (l l' : Language) (m : Mismatch) (text : String) :
    l.unexpectedToken m text ≠ l'.unterminated ∧ l.unexpectedToken m text ≠ l'.success := by
  have hlead := l.lead_prefix_unexpectedToken m text
  obtain ⟨hunterminated, hsuccess⟩ := l.not_lead_prefix l'
  constructor
  · intro h
    exact hunterminated (h ▸ hlead)
  · intro h
    exact hsuccess (h ▸ hlead)

theorem unterminated_injective : Function.Injective unterminated := by
  intro l l' h
  cases l <;> cases l' <;> simp [unterminated] at h ⊢

end Language

/-- What a message tells of a problem: all but the state in which it was met. -/
def Problem.told : Problem → Option (Mismatch × String)
  | unexpectedToken _ m text => some (m, text)
  | unterminated _ => none

/-- Two messages are the same if and only if their languages are and what they tell is. -/
theorem Problem.message_eq_iff {p p' : Problem} {l l' : Language} :
    p.message l = p'.message l' ↔ l = l' ∧ p.told = p'.told := by
  constructor
  · intro h
    cases p with
    | unexpectedToken s m text =>
      cases p' with
      | unexpectedToken s' m' text' =>
        obtain ⟨rfl, rfl, rfl⟩ := Language.unexpectedToken_inj h
        exact ⟨rfl, rfl⟩
      | unterminated s' => exact absurd h (l.unexpectedToken_ne l' m text).1
    | unterminated s =>
      cases p' with
      | unexpectedToken s' m' text' => exact absurd h.symm (l'.unexpectedToken_ne l m' text').1
      | unterminated s' => exact ⟨Language.unterminated_injective h, rfl⟩
  · rintro ⟨rfl, h⟩
    cases p with
    | unexpectedToken s m text =>
      cases p' with
      | unexpectedToken s' m' text' =>
        obtain ⟨rfl, rfl⟩ := Prod.mk.inj (Option.some.inj h)
        rfl
      | unterminated s' => cases h
    | unterminated s =>
      cases p' with
      | unexpectedToken s' m' text' => cases h
      | unterminated s' => rfl

/-- **A message tells what it is about**: one on a token that does not fit names its language, what
was expected, the kind and the text of the token, and is no message of another kind. So two messages
are the same exactly if they are in one language and tell the same. -/
theorem messages_unambiguous :
    (∀ (l l' : Language) (e e' : Expectation) (k k' : TokenKind) (text text' : String),
      l.unexpectedToken ⟨e, k⟩ text = l'.unexpectedToken ⟨e', k'⟩ text' →
        l = l' ∧ e = e' ∧ k = k' ∧ text = text') ∧
      (∀ (l l' : Language) (m : Mismatch) (text : String),
        l.unexpectedToken m text ≠ l'.unterminated ∧ l.unexpectedToken m text ≠ l'.success) ∧
      ∀ (d d' : Diagnostic) (l l' : Language),
        d.message l = d'.message l' ↔ l = l' ∧ d.problem.told = d'.problem.told := by
  refine ⟨fun l l' e e' k k' text text' h => ?_, Language.unexpectedToken_ne,
    fun d d' l l' => Problem.message_eq_iff⟩
  obtain ⟨hl, hm, htext⟩ := Language.unexpectedToken_inj h
  obtain ⟨he, hk⟩ := Mismatch.mk.inj hm
  exact ⟨hl, he, hk, htext⟩

end VarBlock
