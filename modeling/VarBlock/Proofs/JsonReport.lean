import Mathlib
import VarBlock.Proofs.JsonPrinting
import VarBlock.Rendering

/-!
# Reports read back from JSON

Tokens and reports are read back from their JSON outputs by the names of the members:

    output (String) ──Json.read?──▶ Json.Value ──ofValue?──▶ tokens (List Token), ReportView

Each `ofValue?` gives back what the object was made of. What depends on the settings in a report,
its messages and positions, stands beside the diagnostics in a `ReportView`, so the diagnostics
themselves are read back in the same way whatever the settings are.

The reader is there for the sake of the statement. It is written from the names in the output, and
does not share a definition with what writes them, apart from the names of the constructors.
-/

namespace VarBlock

open Analysis Json

/-! ## Members of a value -/

namespace Json.Value

@[simp] def field? (v : Value) (name : String) : Option Value :=
  match v with
  | .object ms => ms.lookup name
  | _ => none

@[simp] def bool? : Value → Option Bool
  | .bool b => some b
  | _ => none

def nat? : Value → Option ℕ
  | .number q => if q.den = 1 ∧ 0 ≤ q.num then some q.num.toNat else none
  | _ => none

@[simp] def text? : Value → Option String
  | .string s => some s
  | _ => none

@[simp] def elements? : Value → Option (List Value)
  | .array vs => some vs
  | _ => none

@[simp] def natAt? (v : Value) (name : String) : Option ℕ := (v.field? name).bind nat?

@[simp] def textAt? (v : Value) (name : String) : Option String := (v.field? name).bind text?

@[simp] theorem nat?_natCast (n : ℕ) : nat? (.number n) = some n := by
  simp [nat?]

end Json.Value

/-- Reading what each element was made into gives the elements back. -/
theorem mapM_toValues {α β : Type} {read? : Value → Option β} {write : α → Json} {f : α → β}
    (h : ∀ a, read? (write a).toValue = some (f a)) (as : List α) :
    (toValues (as.map write)).mapM read? = some (as.map f) := by
  induction as with
  | nil => rfl
  | cons a as ih =>
    rw [List.map_cons, toValues, List.mapM_cons, h, ih]
    rfl

/-! ## Names -/

def TokenKind.ofName? (s : String) : Option TokenKind :=
  [keyword, type, identifier, delimiter, colon, semicolon, digit, unknown].find? (·.name = s)

def State.ofName? (s : String) : Option State :=
  [start, var, identifier, type, delimiter, colon, semicolon].find? (·.name = s)

def Expectation.ofName? (s : String) : Option Expectation :=
  [varKeyword, identifier, colonOrDelimiter, type, semicolon].find? (·.name = s)

@[simp] theorem TokenKind.ofName?_name (k : TokenKind) : ofName? k.name = some k := by
  cases k <;> rfl

@[simp] theorem State.ofName?_name (s : State) : ofName? s.name = some s := by
  cases s <;> rfl

@[simp] theorem Expectation.ofName?_name (e : Expectation) : ofName? e.name = some e := by
  cases e <;> rfl

/-! ## Tokens -/

def Token.ofValue? (v : Value) : Option Token := do
  let kind ← TokenKind.ofName? (← v.textAt? "kind")
  let text ← v.textAt? "text"
  let offset ← v.natAt? "offset"
  return ⟨kind, text, offset⟩

/-- A token is read back from its object. -/
theorem Token.ofValue?_tokenJson (t : Token) : ofValue? (tokenJson t).toValue = some t := by
  simp [ofValue?, tokenJson, toValue, toMembers, List.lookup]

theorem keysUnique_tokenJson (t : Token) : (tokenJson t).toValue.KeysUnique := by
  apply keysUnique_object
  · simp
  · simp only [List.forall_mem_cons]
    exact ⟨.string _, .string _, .number _, List.forall_mem_nil _⟩

def Token.listOfValue? (v : Value) : Option (List Token) := do
  (← v.elements?).mapM Token.ofValue?

/-- A list of tokens is read back from its array, in order. -/
theorem Token.listOfValue?_array (ts : List Token) :
    listOfValue? (Json.array (ts.map tokenJson)).toValue = some ts := by
  have h := mapM_toValues Token.ofValue?_tokenJson ts
  rwa [List.map_id'] at h

/-! ## Diagnostics -/

def Span.ofValue? (v : Value) : Option Span := do
  return ⟨← v.natAt? "start", ← v.natAt? "end"⟩

def Position.ofValue? (v : Value) : Option Position := do
  return ⟨← v.natAt? "line", ← v.natAt? "column"⟩

@[simp] theorem Span.ofValue?_rangeJson (r : Span) : ofValue? (rangeJson r).toValue = some r := by
  simp [ofValue?, rangeJson, toValue, toMembers, List.lookup]

@[simp] theorem Position.ofValue?_positionJson (p : Position) :
    ofValue? (positionJson p).toValue = some p := by
  simp [ofValue?, positionJson, toValue, toMembers, List.lookup]

def Problem.ofValue? (v : Value) : Option Problem := do
  let kind ← v.textAt? "kind"
  let state ← State.ofName? (← v.textAt? "state")
  if kind = "unexpected_token" then
    let expected ← Expectation.ofName? (← v.textAt? "expected")
    let found ← TokenKind.ofName? (← v.textAt? "found")
    let text ← v.textAt? "found_text"
    return .unexpectedToken state ⟨expected, found⟩ text
  else if kind = "unterminated_declaration" then return .unterminated state
  else none

/-- A problem is told by the first members of an object, whatever members come after them. -/
theorem Problem.ofValue?_problemFields (p : Problem) (fs : List (String × Json)) :
    ofValue? (Json.object (problemFields p ++ fs)).toValue = some p := by
  cases p with
  | unexpectedToken state mismatch text =>
    simp [ofValue?, problemFields, toValue, toMembers, List.lookup]
  | unterminated state => simp [ofValue?, problemFields, toValue, toMembers, List.lookup]

/-- A diagnostic as it is shown: with a message, and at a place if the settings ask for places. -/
structure DiagnosticView where
  diagnostic : Diagnostic
  message : String
  position? : Option Position

def Diagnostic.view (d : Diagnostic) (s : DiagnosticsSettings) (lines : LineTable) :
    DiagnosticView where
  diagnostic := d
  message := d.message s.language
  position? := if s.showPositions then some (lines.position d.range.start) else none

def DiagnosticView.ofValue? (v : Value) : Option DiagnosticView := do
  let problem ← Problem.ofValue? v
  let range ← Span.ofValue? (← v.field? "range")
  let message ← v.textAt? "message"
  let position? ← (v.field? "position").mapM Position.ofValue?
  return ⟨⟨problem, range⟩, message, position?⟩

/-- A diagnostic is read back from its object, with the message and the positions that the settings
have given it. -/
theorem DiagnosticView.ofValue?_diagnosticJson (a : Analysis) (s : DiagnosticsSettings)
    (d : Diagnostic) : ofValue? (a.diagnosticJson s d).toValue = some (d.view s a.lines) := by
  have hproblem : Problem.ofValue? (a.diagnosticJson s d).toValue = some d.problem := by
    rw [diagnosticJson, List.append_assoc, Problem.ofValue?_problemFields]
  rw [ofValue?, hproblem, diagnosticJson]
  -- the other members come after those of the problem, and the last one may be missing
  obtain ⟨p, range⟩ := d
  cases p <;> cases hs : s.showPositions <;>
    simp [problemFields, toValue, toMembers, List.lookup, Diagnostic.view, hs]

/-- An object of numbers has no key twice if its names are different. -/
theorem keysUnique_numbers (fs : List (String × ℕ)) (h : (fs.map Prod.fst).Nodup) :
    (Json.object (fs.map fun f => (f.1, .number f.2))).toValue.KeysUnique := by
  apply keysUnique_object
  · rwa [List.map_map]
  · exact List.forall_mem_map.mpr fun f _ => .number f.2

theorem keysUnique_problemFields (p : Problem) :
    ∀ f ∈ problemFields p, f.2.toValue.KeysUnique := by
  cases p <;> simp [problemFields, toValue, Value.KeysUnique.string]

theorem keysUnique_diagnosticJson (a : Analysis) (s : DiagnosticsSettings) (d : Diagnostic) :
    (a.diagnosticJson s d).toValue.KeysUnique := by
  apply keysUnique_object
  · -- The names are few and known: those of the problem, and two or three more.
    cases d.problem <;> cases s.showPositions <;> simp [problemFields]
  · have hrange : (rangeJson d.range).toValue.KeysUnique :=
      keysUnique_numbers [("start", d.range.start), ("end", d.range.stop)] (by simp)
    have hposition : ∀ p : Position, (positionJson p).toValue.KeysUnique := fun p =>
      keysUnique_numbers [("line", p.line), ("column", p.column)] (by simp)
    simp only [List.forall_mem_append, List.forall_mem_cons]
    refine ⟨⟨keysUnique_problemFields d.problem, hrange, .string _, List.forall_mem_nil _⟩, ?_⟩
    cases s.showPositions with
    | false => exact List.forall_mem_nil _
    | true => exact List.forall_mem_singleton.mpr (hposition _)

/-! ## Reports -/

/-- A report as it is shown, without its trace. -/
structure ReportView where
  valid : Bool
  finalState : State
  diagnostics : List DiagnosticView

/-- What a report says apart from words and places. -/
def ReportView.findings (r : ReportView) : Bool × State × List Diagnostic :=
  (r.valid, r.finalState, r.diagnostics.map DiagnosticView.diagnostic)

def ReportView.ofValue? (v : Value) : Option ReportView := do
  let valid ← (← v.field? "valid").bool?
  let finalState ← State.ofName? (← v.textAt? "final_state")
  let vs ← (← v.field? "diagnostics").elements?
  return ⟨valid, finalState, ← vs.mapM DiagnosticView.ofValue?⟩

/-- A report is read back from its object. -/
theorem ReportView.ofValue?_reportJson (a : Analysis) (s : DiagnosticsSettings) :
    ofValue? (a.reportJson s).toValue = some ⟨a.report.isValid, a.report.finalState,
      a.report.diagnostics.map fun d => d.view s a.lines⟩ := by
  have h := mapM_toValues (DiagnosticView.ofValue?_diagnosticJson a s) a.report.diagnostics
  simp [ofValue?, reportJson, toValue, toMembers, List.lookup, h]

theorem keysUnique_reportJson (a : Analysis) (s : DiagnosticsSettings) :
    (a.reportJson s).toValue.KeysUnique := by
  apply keysUnique_object
  · simp
  · simp only [List.forall_mem_cons]
    refine ⟨.bool _, .string _, keysUnique_array ?_, List.forall_mem_nil _⟩
    exact List.forall_mem_map.mpr fun d _ => keysUnique_diagnosticJson a s d

/-! ## Outputs -/

/-- **The JSON output of the tokens reads back as the tokens.** It is a JSON text, and the tokens it
shows are the tokens of the source, so that two outputs are the same just if the tokens are. -/
theorem process_tokens_json (source source' : String) (s s' : DiagnosticsSettings) :
    ∃ output output' v, process ⟨.tokens, .json⟩ s source = .ok ⟨output, .ofSource source⟩ ∧
      process ⟨.tokens, .json⟩ s' source' = .ok ⟨output', .ofSource source'⟩ ∧
      Json.IsTextOf output v ∧ Token.listOfValue? v = some (tokenize source) ∧
      (output = output' ↔ tokenize source = tokenize source') := by
  have htext : ∀ ts : List Token, Json.IsTextOf (Json.array (ts.map tokenJson)).pretty
      (Json.array (ts.map tokenJson)).toValue :=
    fun ts => isTextOf_pretty (keysUnique_array
      (List.forall_mem_map.mpr fun t _ => keysUnique_tokenJson t))
  refine ⟨_, _, _, rfl, rfl, htext _, Token.listOfValue?_array _, ?_⟩
  constructor
  · intro h
    -- one text stands for one value, and the tokens are read from the value
    have hvalue := (htext (tokenize source')).unique _ (h ▸ (htext (tokenize source)).document)
    have htokens := congrArg Token.listOfValue? hvalue
    rwa [Token.listOfValue?_array, Token.listOfValue?_array, Option.some_inj] at htokens
  · intro h
    exact congrArg (fun ts => (Json.array (ts.map tokenJson)).pretty) h

/-- **The JSON output of the diagnostics reads back as the report.** It is a JSON text and shows
whether the block is valid, the final state, and every diagnostic in order, with its message in the
language of the settings and, if they ask for positions, its position. The findings alone are read
back whatever the settings are. -/
theorem process_diagnostics_json (source : String) (s : DiagnosticsSettings) :
    ∃ output v, process ⟨.diagnostics, .json⟩ s source = .ok ⟨output, .ofSource source⟩ ∧
      Json.IsTextOf output v ∧
      ReportView.ofValue? v = some ⟨(check source).isValid, (check source).finalState,
        (check source).diagnostics.map fun d => d.view s (.ofString source)⟩ ∧
      (ReportView.ofValue? v).map ReportView.findings =
        some ((check source).isValid, (check source).finalState, (check source).diagnostics) := by
  have hread := ReportView.ofValue?_reportJson (ofSource source) s
  refine ⟨_, _, rfl, isTextOf_pretty (keysUnique_reportJson _ s), hread, ?_⟩
  rw [hread, Option.map_some, ReportView.findings, List.map_map]
  exact congrArg (fun ds => some ((check source).isValid, (check source).finalState, ds))
    (List.map_id (check source).diagnostics)

end VarBlock
