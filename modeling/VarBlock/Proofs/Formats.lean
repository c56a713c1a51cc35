import Mathlib.Data.List.TakeDrop
import Mathlib.Data.List.TakeWhile
import VarBlock.OutputFormat

/-!
# The names of formats

A text is cut at its first dash (`OutputFormat.splitAtDash?_eq_some_iff`), and the parts decide what
it is read as. The cases are those of `OutputFormat.ReadAs`, and exactly one of them applies to a
text (`OutputFormat.ofName_eq_iff`). So a text is the name of a format exactly if it is that of a
format on offer (`OutputFormat.ofName_eq_ok_iff`), and a refusal tells which part is at fault
(`OutputFormat.names_read_by_parts`).

Stages and layouts are two lists of names of one kind, so what is known of finding a member by its
name is proved once for both (`find?_named_eq_some_iff`). Neither list has a name with a dash in it,
but this is not needed: the first dash of the text decides, whatever the names are.
-/

namespace VarBlock

section Named

variable {α : Type} {all : List α} {name : α → String} {s : String} {x : α}

/-- Where each one is found under its own name, none is found under another. -/
theorem find?_named_eq_some_iff (h : ∀ x, all.find? (fun y => name y = name x) = some x) :
    all.find? (fun y => name y = s) = some x ↔ s = name x := by
  constructor
  · intro hx
    have hname := List.find?_some hx
    exact (of_decide_eq_true hname).symm
  · rintro rfl
    exact h x

/-- Nothing is found by what is the name of none. -/
theorem find?_named_eq_none_iff (h : ∀ x, all.find? (fun y => name y = name x) = some x) :
    all.find? (fun y => name y = s) = none ↔ ∀ x, s ≠ name x := by
  simp only [Option.eq_none_iff_forall_ne_some, ne_eq, find?_named_eq_some_iff h]

end Named

namespace Stage

variable {s : String} {x : Stage}

theorem ofName?_name (x : Stage) : ofName? x.name = some x := by
  cases x <;> rfl

/-- A stage is found by its name alone. -/
theorem ofName?_eq_some_iff : ofName? s = some x ↔ s = x.name :=
  find?_named_eq_some_iff ofName?_name

/-- No stage is found by what names none. -/
theorem ofName?_eq_none_iff : ofName? s = none ↔ ∀ x : Stage, s ≠ x.name :=
  find?_named_eq_none_iff ofName?_name

/-- The names of the stages, written out. -/
theorem mem_names_iff : s ∈ ["tokens", "diagnostics", "trace"] ↔ ∃ x : Stage, s = x.name := by
  constructor
  · simp only [List.mem_cons, List.not_mem_nil, or_false]
    rintro (h | h | h)
    · exact ⟨tokens, h⟩
    · exact ⟨diagnostics, h⟩
    · exact ⟨trace, h⟩
  · rintro ⟨x, rfl⟩
    cases x <;> simp [name]

end Stage

namespace Layout

variable {s : String} {x : Layout}

theorem ofName?_name (x : Layout) : ofName? x.name = some x := by
  cases x <;> rfl

theorem ofName?_eq_some_iff : ofName? s = some x ↔ s = x.name :=
  find?_named_eq_some_iff ofName?_name

theorem ofName?_eq_none_iff : ofName? s = none ↔ ∀ x : Layout, s ≠ x.name :=
  find?_named_eq_none_iff ofName?_name

end Layout

namespace OutputFormat

/-- What stands before and after the first dash of a text. -/
def CutAtDash (s before after : String) : Prop := '-' ∉ before.toList ∧ s = before ++ "-" ++ after

/-- What a text is read as. -/
inductive ReadAs : String → Except FormatError OutputFormat → Prop
  | offered {f : OutputFormat} (hf : f ∈ available) : ReadAs f.name (.ok f)
  | noDash {s : String} (h : '-' ∉ s.toList) : ReadAs s (.error (.noDash s))
  | unknownStage {s before after : String} (hcut : CutAtDash s before after)
    (h : ∀ x : Stage, before ≠ x.name) : ReadAs s (.error (.unknownStage before))
  | unknownLayout {s after : String} {x : Stage} (hcut : CutAtDash s x.name after)
    (h : ∀ y : Layout, after ≠ y.name) : ReadAs s (.error (.unknownLayout after))
  | traceAsJson : ReadAs "trace-json" (.error .traceAsJson)

/-! ## Cutting at the first dash -/

section Cutting

variable {s a b : String}

/-- A text is cut where its first dash stands: the part in front of it has none. -/
theorem splitAtDash?_eq_some_iff : splitAtDash? s = some (a, b) ↔ CutAtDash s a b := by
  rw [splitAtDash?, List.span_eq_takeWhile_dropWhile]
  constructor
  · intro h
    have hall := s.toList.takeWhile_append_dropWhile (p := (· ≠ '-'))
    split at h
    · cases h
    · next before dash after heq =>
      obtain ⟨hbefore, hafter⟩ := Prod.mk.inj heq
      obtain ⟨rfl, rfl⟩ := Prod.mk.inj (Option.some.inj h)
      -- What is not taken begins with the first character that is a dash.
      have hdash := List.head?_dropWhile_not (· ≠ '-') s.toList
      rw [hafter] at hdash
      obtain rfl : dash = '-' := by simpa using hdash
      constructor
      · rw [String.toList_ofList, ← hbefore]
        intro hmem
        simpa using List.mem_takeWhile_imp hmem
      · rw [hbefore, hafter] at hall
        rw [← String.toList_inj, ← hall]
        simp
  · rintro ⟨ha, rfl⟩
    have hlist : (a ++ "-" ++ b).toList = a.toList ++ '-' :: b.toList := by simp
    have hne : ∀ c ∈ a.toList, decide (c ≠ '-') = true := by
      intro c hc
      exact decide_eq_true (ne_of_mem_of_not_mem hc ha)
    rw [hlist, List.takeWhile_append_of_pos hne, List.dropWhile_append_of_pos hne]
    simp

/-- A text without a dash is not cut. -/
theorem splitAtDash?_eq_none_iff : splitAtDash? s = none ↔ '-' ∉ s.toList := by
  rw [splitAtDash?, List.span_eq_takeWhile_dropWhile]
  constructor
  · intro h
    split at h
    · next before heq =>
      have hdrop := (Prod.mk.inj heq).2
      rw [List.dropWhile_eq_nil_iff] at hdrop
      intro hmem
      simpa using hdrop '-' hmem
    · cases h
  · intro h
    -- Without a dash the whole text is taken and there is nothing to begin the rest.
    have hdrop : s.toList.dropWhile (· ≠ '-') = [] := by
      rw [List.dropWhile_eq_nil_iff]
      intro c hc
      exact decide_eq_true (ne_of_mem_of_not_mem hc h)
    rw [hdrop]

end Cutting

/-! ## Reading names -/

section Reading

variable {s : String} {f : OutputFormat} {result : Except FormatError OutputFormat}

/-- What `ofName` answers is one of the cases of `ReadAs`. -/
theorem readAs_ofName (s : String) : ReadAs s (ofName s) := by
  rw [ofName]
  split
  · next hsplit => exact .noDash (splitAtDash?_eq_none_iff.mp hsplit)
  · next before after hsplit =>
    have hcut := splitAtDash?_eq_some_iff.mp hsplit
    split
    · next hstage => exact .unknownStage hcut (Stage.ofName?_eq_none_iff.mp hstage)
    · next stage hstage hlayout =>
      obtain rfl := Stage.ofName?_eq_some_iff.mp hstage
      exact .unknownLayout hcut (Layout.ofName?_eq_none_iff.mp hlayout)
    · next hstage hlayout =>
      obtain rfl := Stage.ofName?_eq_some_iff.mp hstage
      obtain rfl := Layout.ofName?_eq_some_iff.mp hlayout
      rw [hcut.2]
      exact .traceAsJson
    · next stage layout hne hstage hlayout =>
      obtain rfl := Stage.ofName?_eq_some_iff.mp hstage
      obtain rfl := Layout.ofName?_eq_some_iff.mp hlayout
      rw [hcut.2]
      -- A stage and a layout that are both known are on offer, unless they are a trace in JSON,
      -- which an earlier branch has caught.
      apply ReadAs.offered (f := ⟨stage, layout⟩)
      cases stage with
      | trace =>
        cases layout with
        | simple => simp [available]
        | json => exact absurd rfl (hne rfl)
      | _ => cases layout <;> simp [available]

/-- Each case of `ReadAs` is what `ofName` answers. As `ofName` is a function, no two of them apply
to one text. -/
theorem ReadAs.ofName_eq (h : ReadAs s result) : ofName s = result := by
  cases h with
  | @offered f hf =>
    simp only [available, List.mem_cons, List.not_mem_nil, or_false] at hf
    -- The five names on offer, read letter by letter.
    rcases hf with rfl | rfl | rfl | rfl | rfl <;> rfl
  | noDash h => rw [ofName, splitAtDash?_eq_none_iff.mpr h]
  | unknownStage hcut h =>
    rw [ofName, splitAtDash?_eq_some_iff.mpr hcut]
    dsimp only
    rw [Stage.ofName?_eq_none_iff.mpr h]
  | unknownLayout hcut h =>
    rw [ofName, splitAtDash?_eq_some_iff.mpr hcut]
    dsimp only
    rw [Stage.ofName?_eq_some_iff.mpr rfl, Layout.ofName?_eq_none_iff.mpr h]
  | traceAsJson => rfl

/-- A text is read by the one case that applies to it. -/
theorem ofName_eq_iff : ofName s = result ↔ ReadAs s result := by
  constructor
  · rintro rfl
    exact readAs_ofName s
  · exact ReadAs.ofName_eq

/-- What is accepted are the names of the formats on offer. -/
theorem ofName_eq_ok_iff : ofName s = .ok f ↔ f ∈ available ∧ s = f.name := by
  rw [ofName_eq_iff]
  constructor
  · intro hs
    cases hs with
    | offered hf => exact ⟨hf, rfl⟩
  · rintro ⟨hf, rfl⟩
    exact .offered hf

/-- What is refused is not on offer. -/
theorem not_mem_names_of_error {cause : FormatError} (h : ofName s = .error cause) :
    s ∉ available.map name := by
  intro hmem
  obtain ⟨f, hf, hname⟩ := List.mem_map.mp hmem
  rw [ofName_eq_ok_iff.mpr ⟨hf, hname.symm⟩] at h
  cases h

/-- A stage and a layout that are not on offer together are a trace and JSON. -/
theorem mem_names_or (f : OutputFormat) : f.name ∈ available.map name ∨ f.name = "trace-json" := by
  obtain ⟨stage, layout⟩ := f
  cases stage <;> cases layout <;> simp [available, name, Stage.name, Layout.name]

/-- The stage is at fault where the part in front of the first dash names none, whatever comes after
it. -/
theorem ofName_eq_unknownStage_iff {before : String} :
    ofName s = .error (.unknownStage before) ↔
      (∃ after, CutAtDash s before after) ∧ before ∉ ["tokens", "diagnostics", "trace"] := by
  rw [ofName_eq_iff, Stage.mem_names_iff, not_exists]
  constructor
  · intro hs
    cases hs with
    | unknownStage hcut h => exact ⟨⟨_, hcut⟩, h⟩
  · rintro ⟨⟨after, hcut⟩, h⟩
    exact .unknownStage hcut h

/-- Where the stage is known and the name is refused, the layout is what is wrong with it. -/
theorem ofName_eq_unknownLayout_iff {after : String} :
    ofName s = .error (.unknownLayout after) ↔
      s ∉ available.map name ∧ s ≠ "trace-json" ∧
        ∃ before ∈ ["tokens", "diagnostics", "trace"], CutAtDash s before after := by
  constructor
  · intro hs
    refine ⟨not_mem_names_of_error hs, ?_, ?_⟩
    · rintro rfl
      rw [ReadAs.traceAsJson.ofName_eq] at hs
      cases hs
    · cases ofName_eq_iff.mp hs with
      | unknownLayout hcut h => exact ⟨_, Stage.mem_names_iff.mpr ⟨_, rfl⟩, hcut⟩
  · rintro ⟨hmem, hne, before, hbefore, hcut⟩
    obtain ⟨x, rfl⟩ := Stage.mem_names_iff.mp hbefore
    refine ofName_eq_iff.mpr (.unknownLayout hcut ?_)
    rintro y rfl
    have hname : s = name ⟨x, y⟩ := hcut.2
    -- If the layout were known too, the text would be the name of a format on offer, or it would
    -- be `trace-json`.
    rcases mem_names_or ⟨x, y⟩ with h | h
    · exact hmem (hname ▸ h)
    · exact hne (hname.trans h)

/-- The one combination that is not on offer has a refusal of its own. -/
theorem ofName_eq_traceAsJson_iff : ofName s = .error .traceAsJson ↔ s = "trace-json" := by
  rw [ofName_eq_iff]
  constructor
  · intro hs
    cases hs
    rfl
  · rintro rfl
    exact .traceAsJson

/-- **Names of formats**: reading and naming invert each other on the formats on offer and nowhere
else, so no other spelling of their names is read. A text that is refused has no dash, or else has
no stage before its first dash, or else what comes after that dash is refused as a layout; only
`trace-json` is refused in words of its own. -/
theorem names_read_by_parts (s : String) :
    (∀ f, ofName s = .ok f ↔ f ∈ available ∧ s = f.name) ∧
    (∀ f : OutputFormat, ofName f.name = .ok f ↔ f ∈ available) ∧
    ((∃ f, ofName s = .ok f) ↔ s ∈ ["tokens-simple", "tokens-json", "diagnostics-simple",
      "diagnostics-json", "trace-simple"]) ∧
    (∀ text, ofName s = .error (.noDash text) ↔ '-' ∉ s.toList ∧ text = s) ∧
    (∀ before, ofName s = .error (.unknownStage before) ↔
      (∃ after, CutAtDash s before after) ∧ before ∉ ["tokens", "diagnostics", "trace"]) ∧
    (∀ after, ofName s = .error (.unknownLayout after) ↔
      s ∉ available.map name ∧ s ≠ "trace-json" ∧
        ∃ before ∈ ["tokens", "diagnostics", "trace"], CutAtDash s before after) ∧
    (ofName s = .error .traceAsJson ↔ s = "trace-json") ∧
    (∀ after, (FormatError.unknownLayout after).message = "Invalid format type: " ++ after) ∧
    FormatError.traceAsJson.message =
      "Invalid format type: " ++ "Format 'json' is not supported for the trace stage" := by
  refine ⟨fun f => ofName_eq_ok_iff, ?_, ?_, ?_, fun before => ofName_eq_unknownStage_iff,
    fun after => ofName_eq_unknownLayout_iff, ofName_eq_traceAsJson_iff, fun after => rfl, by decide⟩
  · intro f
    rw [ofName_eq_ok_iff, and_iff_left rfl]
  · -- The list of names is that of the formats on offer, so no format can be added to one alone.
    have hnames : available.map name = ["tokens-simple", "tokens-json", "diagnostics-simple",
        "diagnostics-json", "trace-simple"] := by decide
    rw [← hnames, List.mem_map]
    simp only [ofName_eq_ok_iff, eq_comm (a := s)]
  · intro text
    rw [ofName_eq_iff]
    constructor
    · intro hs
      cases hs with
      | noDash h => exact ⟨h, rfl⟩
    · rintro ⟨h, rfl⟩
      exact .noDash h

example : ofName "tokens--simple" = .error (.unknownLayout "-simple") := by rfl

end Reading

end OutputFormat

end VarBlock
