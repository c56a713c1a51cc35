import VarBlock.Proofs.JsonReport
import VarBlock.Proofs.OneLine

/-!
# One report in two layouts

The simple layout of a report can be had from the JSON one alone. Each element of the JSON list of
diagnostics has a line (`Json.Value.line?`): its place, which is its position or else the start of
its range, and its message. These lines are the first lines of the simple output, in order, and what
comes after them depends on whether the report is valid.

    line?_diagnosticJson :
      (a.diagnosticJson s d).toValue.line? s.showPositions = some (a.diagnosticLine s d)

Only names of members are used, so the lines can be made by a reader that knows the format and
nothing of the source.
-/

namespace VarBlock

open Analysis Json

/-! ## Lines of elements -/

namespace Json.Value

/-- Where an element says that something is wrong: at a line and a column, or at the offset where
its range starts. -/
def place? (v : Value) (showPositions : Bool) : Option String :=
  if showPositions then do
    let position ← Position.ofValue? (← v.field? "position")
    return position.text
  else do
    let start ← (← v.field? "range").natAt? "start"
    return toString start

/-- The line that says the same as an element. -/
def line? (v : Value) (showPositions : Bool) : Option String := do
  return (← v.place? showPositions) ++ ": " ++ (← v.textAt? "message")

end Json.Value

/-- The names of the members that say what is wrong. -/
def problemNames : List String := ["kind", "state", "expected", "found", "found_text"]

/-- Other members than those of the problem are looked for behind them. -/
theorem field?_problemFields (p : Problem) {name : String} (h : name ∉ problemNames)
    (fs : List (String × Json)) : (Json.object (problemFields p ++ fs)).toValue.field? name =
      (Json.object fs).toValue.field? name := by
  have hnames : ∀ f ∈ problemFields p, f.1 ∈ problemNames := by
    cases p <;> simp [problemFields, problemNames]
  -- No field of a problem has the name in question, so the search goes on behind them.
  have hnone : ((problemFields p).map fun f => (f.1, f.2.toValue)).lookup name = none := by
    rw [List.lookup_eq_none_iff, List.forall_mem_map]
    intro f hf
    rw [bne_iff_ne]
    rintro rfl
    exact h (hnames f hf)
  show (toMembers (problemFields p ++ fs)).lookup name = (toMembers fs).lookup name
  rw [toMembers_eq_map, toMembers_eq_map, List.map_append, List.lookup_append, hnone,
    Option.none_or]

section Members

variable (a : Analysis) (s : DiagnosticsSettings) (d : Diagnostic)

/-- A field that is not one of the problem is looked up behind those of the problem. -/
theorem field?_diagnosticJson {name : String} (h : name ∉ problemNames) :
    (a.diagnosticJson s d).toValue.field? name = (Json.object
      ([("range", rangeJson d.range), ("message", .string (d.message s.language))] ++
        if s.showPositions then [("position", positionJson (a.lines.position d.range.start))]
        else [])).toValue.field? name := by
  rw [diagnosticJson, List.append_assoc, field?_problemFields d.problem h]

/-- The place of an element is the one that the simple layout shows. -/
theorem place?_diagnosticJson :
    (a.diagnosticJson s d).toValue.place? s.showPositions = some (a.place s d.range.start) := by
  -- With positions the element has a field for its place. Without, the place is the start of its
  -- range.
  cases hs : s.showPositions with
  | true =>
    have hposition : (a.diagnosticJson s d).toValue.field? "position" =
        some (positionJson (a.lines.position d.range.start)).toValue := by
      rw [field?_diagnosticJson a s d (by decide), hs]
      rfl
    rw [Value.place?, if_pos rfl, hposition, place, if_pos hs]
    simp
  | false =>
    have hrange : (a.diagnosticJson s d).toValue.field? "range" =
        some (rangeJson d.range).toValue :=
      field?_diagnosticJson a s d (by decide)
    have hstart : (rangeJson d.range).toValue.natAt? "start" = some d.range.start :=
      Value.nat?_natCast d.range.start
    rw [Value.place?, if_neg Bool.false_ne_true, hrange, place, if_neg (by simp [hs])]
    show (do return toString (← (rangeJson d.range).toValue.natAt? "start")) = _
    rw [hstart]
    rfl

/-- The line that is made from an element is the one that the simple layout prints. -/
theorem line?_diagnosticJson :
    (a.diagnosticJson s d).toValue.line? s.showPositions = some (a.diagnosticLine s d) := by
  have hmessage : (a.diagnosticJson s d).toValue.textAt? "message" =
      some (d.message s.language) := by
    rw [Value.textAt?, field?_diagnosticJson a s d (by decide)]
    rfl
  rw [Value.line?, place?_diagnosticJson, hmessage]
  rfl

end Members

/-! ## Outputs -/

/-- **The two layouts say the same.** Every element of the list in the JSON output has one line in
the simple output, in the same order, and the line is the place and the message of the element.
After them there is only the line for a valid block, if the JSON output says that the block is valid
and the settings ask for it. -/
theorem process_layouts_agree (source : String) (s : DiagnosticsSettings) :
    ∃ simple json v elements valid ls,
      process ⟨.diagnostics, .simple⟩ s source = .ok ⟨simple, .ofSource source⟩ ∧
      process ⟨.diagnostics, .json⟩ s source = .ok ⟨json, .ofSource source⟩ ∧
      Json.IsTextOf json v ∧ (v.field? "diagnostics").bind Value.elements? = some elements ∧
      (v.field? "valid").bind Value.bool? = some valid ∧
      List.Forall₂ (fun e l => e.line? s.showPositions = some l) elements ls ∧
      Lists simple
        (ls ++ if valid = true ∧ s.reportSuccess = true then [s.language.success] else []) := by
  let a := Analysis.ofSource source
  refine ⟨_, _, _, toValues (a.report.diagnostics.map (a.diagnosticJson s)), a.report.isValid,
    a.report.diagnostics.map (a.diagnosticLine s), rfl, rfl,
    isTextOf_pretty (keysUnique_reportJson a s), rfl, rfl, ?_, ?_⟩
  · rw [toValues_eq_map, List.map_map, List.forall₂_map_left_iff, List.forall₂_map_right_iff,
      List.forall₂_same]
    exact fun d _ => line?_diagnosticJson a s d
  · rw [← a.successLines_eq s]
    exact a.lists_diagnostics s

end VarBlock
