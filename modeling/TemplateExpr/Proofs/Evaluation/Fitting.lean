import Mathlib.Algebra.Group.Int.Defs
import TemplateExpr.Eval

namespace TemplateExpr

/-- All integers in a value have 64 bits, also those in lists in it. -/
inductive Value.Fits : Value → Prop
  | integer {n : Int} (h : -2 ^ 63 ≤ n ∧ n ≤ 2 ^ 63 - 1) : Fits (.integer n)
  | float {x : Float} : Fits (.float x)
  | boolean {b : Bool} : Fits (.boolean b)
  | string {s : String} : Fits (.string s)
  | list {items : List Value} (h : ∀ v ∈ items, Fits v) : Fits (.list items)

inductive Datum.Embeds (v : Value) : Datum → Prop
  | value : Embeds v (.value v)
  | list {items : List Datum} {d : Datum} (hd : d ∈ items) (h : Embeds v d) : Embeds v (.list items)
  | tuple {items : List Datum} {d : Datum} (hd : d ∈ items) (h : Embeds v d) :
      Embeds v (.tuple items)

def Datum.Fits (d : Datum) : Prop := ∀ v, d.Embeds v → v.Fits

/-- A context that is made of data, whose finished values fit, and extended by such data. -/
inductive Context.Made : Context → Prop
  | ofEntries {entries : List (String × Datum)} {c : Context} (hf : ∀ b ∈ entries, b.2.Fits)
      (h : Context.ofEntries entries = .ok c) : Made c
  | extend {c c' : Context} {entries : List (String × Datum)} (hc : Made c)
      (hf : ∀ b ∈ entries, b.2.Fits) (h : c.extend entries = .ok c') : Made c'

theorem map_eq_ok_iff {ε α β : Type} {f : α → β} {x : Except ε α} {b : β} :
    x.map f = .ok b ↔ ∃ a, x = .ok a ∧ f a = b := by
  cases x <;> simp [Except.map]

namespace Value

variable {v : Value} {n : Int}

theorem inRange_iff : inRange n = true ↔ -2 ^ 63 ≤ n ∧ n ≤ 2 ^ 63 - 1 := by
  have hbound : bound = 2 ^ 63 := by decide
  rw [inRange, hbound, Bool.and_eq_true, decide_eq_true_eq, decide_eq_true_eq]
  omega

theorem checkRange_fits (h : (checkRange n).map integer = .ok v) : v.Fits := by
  rw [checkRange] at h
  split at h
  · rename_i hn
    cases h
    exact .integer (inRange_iff.1 hn)
  · split at h <;> cases h

mutual

theorem ofDatum_fits {d : Datum} {v : Value} (hd : d.Fits) (h : ofDatum d = .ok v) : v.Fits := by
  match d with
  | .boolean _ | .float _ | .string _ =>
      cases h
      constructor
  | .integer n =>
      rw [ofDatum] at h
      exact checkRange_fits h
  | .value _ =>
      cases h
      exact hd _ .value
  | .list items =>
      rw [ofDatum] at h
      obtain ⟨vs, hvs, rfl⟩ := map_eq_ok_iff.1 h
      exact .list (ofData_fits (fun d hmem v hv => hd v (.list hmem hv)) hvs)
  | .tuple items =>
      rw [ofDatum] at h
      obtain ⟨vs, hvs, rfl⟩ := map_eq_ok_iff.1 h
      exact .list (ofData_fits (fun d hmem v hv => hd v (.tuple hmem hv)) hvs)
  | .null | .mapping _ | .date _ | .foreign _ => cases h

theorem ofData_fits {ds : List Datum} {vs : List Value} (hd : ∀ d ∈ ds, d.Fits)
    (h : ofData ds = .ok vs) : ∀ v ∈ vs, v.Fits := by
  match ds with
  | [] =>
      cases h
      simp
  | d :: ds =>
      rw [ofData] at h
      split at h
      · cases h
      · rename_i v hv
        obtain ⟨us, hus, rfl⟩ := map_eq_ok_iff.1 h
        have hfirst := ofDatum_fits (hd d List.mem_cons_self) hv
        have hrest := ofData_fits (fun d hmem => hd d (List.mem_cons_of_mem _ hmem)) hus
        exact List.forall_mem_cons.2 ⟨hfirst, hrest⟩

end

end Value

namespace Operator

open Value

variable {a b v : Value} {op : Operator}

theorem eq_ok_of_guarded {fault? : Option Fault} {result : Except Fault Value}
    (h : (match fault? with
      | some fault => Except.error fault
      | none => result) = .ok v) : result = .ok v := by
  cases fault? with
  | some fault => cases h
  | none => exact h

theorem arithmetic_fits (h : op.arithmetic a b = .ok v) : v.Fits := by
  rw [arithmetic.eq_def] at h
  simp only [] at h
  split at h
  · exact checkRange_fits (eq_ok_of_guarded h)
  · obtain ⟨x, -, rfl⟩ := map_eq_ok_iff.1 (eq_ok_of_guarded h)
    exact .float
  · obtain ⟨x, -, rfl⟩ := map_eq_ok_iff.1 (eq_ok_of_guarded h)
    exact .float
  · cases eq_ok_of_guarded h
    exact .float
  · cases h

theorem join_fits (ha : a.Fits) (hb : b.Fits) (h : join a b = .ok v) : v.Fits := by
  rw [join.eq_def] at h
  split at h
  · cases h
    exact .string
  · rename_i as bs
    cases h
    cases ha with
    | list has =>
        cases hb with
        | list hbs =>
            refine .list fun v hv => ?_
            rcases List.mem_append.1 hv with hv | hv
            · exact has v hv
            · exact hbs v hv
  · exact arithmetic_fits h

theorem ordered_fits {test : Ordering → Bool} (h : ordered test a b = .ok v) : v.Fits := by
  rw [ordered] at h
  obtain ⟨o, -, rfl⟩ := map_eq_ok_iff.1 h
  exact .boolean

theorem applyBinary_fits (ha : a.Fits) (hb : b.Fits) (h : op.applyBinary a b = .ok v) : v.Fits := by
  cases op with
  | eq | ne | and | or =>
      cases h
      exact .boolean
  | lt | le | gt | ge => exact ordered_fits h
  | add => exact join_fits ha hb h
  | sub | mul | div | mod =>
      rw [applyBinary] at h
      exact arithmetic_fits h
  | not => cases h

theorem applyUnary_fits (ha : a.Fits) (h : op.applyUnary a = .ok v) : v.Fits := by
  cases op with
  | not =>
      cases h
      exact .boolean
  | add =>
      rw [applyUnary.eq_def] at h
      simp only [] at h
      split at h
      · cases h
        exact ha
      · cases h
        exact ha
      · cases h
  | sub =>
      rw [applyUnary.eq_def] at h
      simp only [] at h
      split at h
      · exact checkRange_fits h
      · cases h
        exact .float
      · cases h
  | _ => cases h

end Operator

namespace Entries

variable {α : Type} {e : String × α} {name : String} {a : α} {entries : List (String × α)}

theorem mem_set (h : e ∈ set name a entries) : e = (name, a) ∨ e ∈ entries := by
  induction entries with
  | nil => exact .inl (by simpa [set] using h)
  | cons first rest ih =>
      rw [set] at h
      split at h
      · rcases List.mem_cons.1 h with rfl | h
        · exact .inl rfl
        · exact .inr (List.mem_cons_of_mem _ h)
      · rcases List.mem_cons.1 h with rfl | h
        · exact .inr List.mem_cons_self
        · exact (ih h).imp_right (List.mem_cons_of_mem _)

theorem mem_settle (h : e ∈ settle entries) : e ∈ entries := by
  have hfold : ∀ settled : List (String × α),
      e ∈ entries.foldl (fun settled e => set e.1 e.2 settled) settled → e ∈ settled ∨ e ∈ entries := by
    clear h
    induction entries with
    | nil => exact fun settled h => .inl h
    | cons first rest ih =>
        intro settled h
        rcases ih _ h with h | h
        · rcases mem_set h with rfl | h
          · exact .inr List.mem_cons_self
          · exact .inl h
        · exact .inr (List.mem_cons_of_mem _ h)
  exact (hfold [] h).resolve_left List.not_mem_nil

end Entries

namespace Context

variable {c : Context} {x : String} {v : Value} {entries : List (String × Datum)}

def Fits (c : Context) : Prop := ∀ b ∈ c.bindings, b.2.Fits

theorem convert_fits {bindings : List (String × Value)} (hf : ∀ b ∈ entries, b.2.Fits)
    (h : convert entries = .ok bindings) : ∀ b ∈ bindings, b.2.Fits := by
  induction entries generalizing bindings with
  | nil =>
      cases h
      simp
  | cons first rest ih =>
      obtain ⟨name, d⟩ := first
      rw [convert] at h
      split at h
      · cases h
      · rename_i v hv
        obtain ⟨others, ho, rfl⟩ := map_eq_ok_iff.1 h
        have hfirst : v.Fits := Value.ofDatum_fits (hf (name, d) List.mem_cons_self) hv
        have hrest := ih (fun b hb => hf b (List.mem_cons_of_mem _ hb)) ho
        exact List.forall_mem_cons.2 ⟨hfirst, hrest⟩

theorem ofEntries_fits (hf : ∀ b ∈ entries, b.2.Fits) (h : ofEntries entries = .ok c) : c.Fits := by
  obtain ⟨bindings, hb, rfl⟩ := map_eq_ok_iff.1 h
  exact fun b hmem => convert_fits hf hb b (Entries.mem_settle hmem)

theorem Made.fits (h : c.Made) : c.Fits := by
  induction h with
  | ofEntries hf h => exact ofEntries_fits hf h
  | @extend c c' entries _ hf h ih =>
      rw [Context.extend] at h
      split at h
      · cases h
      · refine ofEntries_fits (fun b hb => ?_) h
        rcases List.mem_append.1 (Entries.mem_settle hb) with hb | hb
        · obtain ⟨bound, hbound, rfl⟩ := List.mem_map.1 hb
          intro v hv
          cases hv
          exact ih bound hbound
        · exact hf b hb

theorem Fits.value (hc : c.Fits) (h : c.value x = .ok v) : v.Fits := by
  rw [Context.value] at h
  split at h
  · rename_i u hu
    cases h
    obtain ⟨before, behind, hbindings, -⟩ := List.lookup_eq_some_iff.1 hu
    exact hc (x, v) (by simp [hbindings])
  · cases h

end Context

end TemplateExpr
