import Mathlib.Data.List.Forall2
import VarBlock.Config.Loader

/-!
# Configurations in no particular order

The entries of a table have no order, and neither have the overrides of a loader: both are kept in
hash tables, and each of these is gone through in an order of its own. `Loader.build` takes them in
the order in which they are listed. `Loader.MayBuild` takes them in any order, and `Loader.Builds`
says that every order leads to the same.

An order counts where two entries are for the same thing. Their names may be equal up to case, or
they may be paths, one of which leads to something inside what the other one sets.
-/

namespace VarBlock.Config

/-- The same value, with the entries of its tables in another order. Tables inside an array are left
alone: an array is taken as a whole, so nothing is ever laid over what stands in it. -/
inductive Rearranged : Value → Value → Prop
  | refl (v : Value) : Rearranged v v
  | head {v v' : Value} (h : Rearranged v v') (name : String) (es : List (String × Value)) :
    Rearranged (.table ((name, v) :: es)) (.table ((name, v') :: es))
  | tail {es es' : List (String × Value)} (h : Rearranged (.table es) (.table es'))
    (e : String × Value) : Rearranged (.table (e :: es)) (.table (e :: es'))
  | swap (e e' : String × Value) (es : List (String × Value)) :
    Rearranged (.table (e :: e' :: es)) (.table (e' :: e :: es))
  | trans {v v' v'' : Value} (h : Rearranged v v') (h' : Rearranged v' v'') : Rearranged v v''

/-- The entries of a file in another order. -/
def RearrangedFile (entries entries' : List (String × Value)) : Prop :=
  Rearranged (.table entries) (.table entries')

/-- An override of the same key, with the entries of its value in another order. -/
def RearrangedOverride (o o' : KeyPath × Value) : Prop := o'.1 = o.1 ∧ Rearranged o.2 o'.2

namespace Loader

/-- A configuration that a loader may put together. The files come one after the other, and each of
them in some order; then the overrides come in some order. -/
def MayMerge (l : Loader) (root : Value) : Prop :=
  ∃ files files' overrides overrides', l.files.mapM Layer.entries = .ok files ∧
    List.Forall₂ RearrangedFile files files' ∧ l.overrides.Perm overrides ∧
    List.Forall₂ RearrangedOverride overrides overrides' ∧
    root = (files'.foldl Value.overlay (ofSettings .standard)).setAll overrides'

/-- What a loader may find: some settings, or none. Which of several errors is found is left
open. -/
inductive MayBuild (l : Loader) : Option Settings → Prop
  | unloaded {cause : ConfigError} (h : l.files.mapM Layer.entries = .error cause) : MayBuild l none
  | merged {root : Value} (h : l.MayMerge root) : MayBuild l (decodeSettings root).toOption

/-- What a loader finds in every order. -/
def Builds (l : Loader) (found : Option Settings) : Prop :=
  ∀ other, l.MayBuild other ↔ other = found

end Loader

end VarBlock.Config
