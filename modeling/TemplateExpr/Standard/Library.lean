import TemplateExpr.Library
import TemplateExpr.Standard.Checking
import TemplateExpr.Yaml.Document

namespace TemplateExpr

namespace Datum

mutual

/-- Two mappings are laid over each other entry by entry, and all else covers what is below it. -/
def laidOver (below : Option Datum) : Datum → Datum
  | .mapping entries =>
    match below with
    | some (.mapping known) => .mapping (laidOverEntries known entries)
    | _ => .mapping entries
  | d => d

def laidOverEntries (known : List (Datum × Datum)) : List (Datum × Datum) → List (Datum × Datum)
  | [] => known
  | (key, d) :: rest => laidOverEntries (set key (laidOver (get? key known) d) known) rest

end

end Datum

def Library.standard : Library where
  document := Yaml.load
  fromEnvironment := Surroundings.foldedValue?
  overlay d below := d.laidOver (some below)
  boolean d := (Checking.readBoolean d).mapError Checking.Problem.message
  integer least greatest d := (Checking.readBounded least greatest d).mapError Checking.Problem.message
  choice words d := (Checking.readChoice words d).mapError Checking.Problem.message

theorem Checking.bounds_of_readBounded {least greatest n : Nat} {d : Datum}
    (h : readBounded least greatest d = .ok n) : least ≤ n ∧ n ≤ greatest := by
  unfold readBounded at h
  split at h
  · cases h
  · split at h
    · cases h
    · split at h <;> cases h
      omega

theorem Library.standard_conforms : Library.standard.Conforms where
  fromEnvironment_eq _ _ := rfl
  overlay_eq {d below} h := by
    cases d with
    | mapping entries =>
        have hbelow : below.isMapping = false := h.resolve_left (by simp [Datum.isMapping])
        cases below <;> first | rfl | cases hbelow
    | _ => rfl
  isMapping_overlay {d below} h := by
    obtain ⟨entries, rfl⟩ := Datum.isMapping_iff.1 h
    cases below <;> rfl
  boolean_mapping := ⟨_, fun _ => rfl⟩
  integer_mapping _ _ := ⟨_, fun _ => rfl⟩
  choice_mapping _ := ⟨_, fun _ => rfl⟩
  integer_bounds {least greatest n d} h := by
    change (Checking.readBounded least greatest d).mapError _ = .ok n at h
    cases hd : Checking.readBounded least greatest d with
    | error problem =>
        rw [hd] at h
        cases h
    | ok m =>
        rw [hd] at h
        cases h
        exact Checking.bounds_of_readBounded hd

end TemplateExpr
