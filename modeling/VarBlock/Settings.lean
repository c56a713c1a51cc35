import VarBlock.Language

/-!
# Settings

How reports are shown. They are put together from configuration layers by a
`VarBlock.Config.Loader`.
-/

namespace VarBlock

structure DiagnosticsSettings where
  language : Language
  /-- Whether a valid block is reported too. -/
  reportSuccess : Bool
  /-- Whether places are shown as line and column, instead of as offsets. -/
  showPositions : Bool
deriving DecidableEq, Repr

structure Settings where
  diagnostics : DiagnosticsSettings
  format : String
deriving DecidableEq, Repr

/-- The settings where nothing else is asked for. -/
def Settings.standard : Settings := ⟨⟨.english, true, true⟩, "diagnostics-simple"⟩

end VarBlock
