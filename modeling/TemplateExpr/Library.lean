import TemplateExpr.Surroundings
import TemplateExpr.Value.Datum

namespace TemplateExpr

/-- A text is no document of YAML, or reading it raises an exception of another kind. -/
inductive Yaml.Error where
  | malformed
  | raised (r : Raised)
deriving DecidableEq

/-- What is left to others: reading documents and variables of the environment, and laying data over
each other and checking them. Where a datum is not what it is checked to be, a text says so. -/
structure Library where
  document : String → Except Yaml.Error Datum
  fromEnvironment : List (String × String) → String → Option String
  overlay : Datum → Datum → Datum
  boolean : Datum → Except String Bool
  integer : (least greatest : Nat) → Datum → Except String Nat
  choice : List String → Datum → Except String String

/-- What these functions are documented to do, as far as settings rely on it. -/
structure Library.Conforms (lib : Library) : Prop where
  /-- The case of a name does not matter. -/
  fromEnvironment_eq (environment : List (String × String)) (name : String) :
    lib.fromEnvironment environment name = Surroundings.foldedValue? environment name
  /-- Only a mapping over a mapping is more than the one on top. -/
  overlay_eq {d below : Datum} (h : d.isMapping = false ∨ below.isMapping = false) :
    lib.overlay d below = d
  isMapping_overlay {d below : Datum} (h : d.isMapping = true) :
    (lib.overlay d below).isMapping = true
  /-- No mapping is a truth value, an integer or one of some words, whatever it holds. -/
  boolean_mapping : ∃ reason, ∀ entries, lib.boolean (.mapping entries) = .error reason
  integer_mapping (least greatest : Nat) :
    ∃ reason, ∀ entries, lib.integer least greatest (.mapping entries) = .error reason
  choice_mapping (words : List String) :
    ∃ reason, ∀ entries, lib.choice words (.mapping entries) = .error reason
  integer_bounds {least greatest n : Nat} {d : Datum} (h : lib.integer least greatest d = .ok n) :
    least ≤ n ∧ n ≤ greatest

end TemplateExpr
