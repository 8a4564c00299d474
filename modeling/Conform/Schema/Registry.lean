import Conform.Schema.Basic

/-!
# Registered functions

The functions that schemas mention by name. A schema can only be built with names that are
registered; in a validation, a name without a function changes nothing.
-/

namespace Conform

/-- Functions by name. -/
structure Registry where
  /-- Make a default from the parent value, or say why there is none. -/
  defaults : String → Option (Value → Preferences → Except String Value) := fun _ => none
  /-- Change what a reference found. -/
  adjusters : String → Option (Value → Value) := fun _ => none
  /-- Check a value, and replace it or not, or say what is wrong with it. -/
  customs : String → Option (Value → Preferences → Except String Value) := fun _ => none
  /-- Make the schema of a lazy one, given how often the function was used before. -/
  generators : String → Option (Nat → Schema) := fun _ => none

end Conform
