import Mathlib.Data.List.Forall2
import TemplateExpr.Context
import TemplateExpr.Proofs.Supply.Conversion
import TemplateExpr.Proofs.Supply.Settling

namespace TemplateExpr

namespace Context

open Entries (last? settle)

variable {c c' : Context} {entries : List (String × Datum)} {bindings : List (String × Value)}
  {name : String} {v : Value} {fault : Fault}

structure Coherent (c : Context) : Prop where
  nodup : c.names.Nodup
  size : c.size = c.names.length
  mem_bindings : ∀ name v, (name, v) ∈ c.bindings ↔ c.get? name = some v
  contains : ∀ name, c.contains name = true ↔ name ∈ c.names
  getD : ∀ name default v,
    c.getD name default = v ↔ c.get? name = some v ∨ name ∉ c.names ∧ v = default

theorem mem_names_iff : name ∈ c.names ↔ ∃ v, c.get? name = some v := by
  rw [← not_iff_not, not_exists, ← Option.eq_none_iff_forall_ne_some, get?, List.lookup_eq_none_iff,
    names, List.mem_map, not_exists]
  simp only [not_and, bne_iff_ne]
  exact forall₂_congr fun _ _ => ne_comm

theorem coherent_of_nodup (h : c.names.Nodup) : c.Coherent where
  nodup := h
  size := (List.length_map _).symm
  mem_bindings _ _ := (Entries.lookup_eq_some_iff h).symm
  contains _ := by rw [Context.contains, Option.isSome_iff_exists, mem_names_iff]
  getD name default v := by
    rw [Context.getD, mem_names_iff]
    cases c.get? name <;> simp [eq_comm]

def Converted (e : String × Datum) (b : String × Value) : Prop :=
  e.1 = b.1 ∧ Value.ofDatum e.2 = .ok b.2

theorem converted_of_convert (h : convert entries = .ok bindings) :
    List.Forall₂ Converted entries bindings := by
  induction entries generalizing bindings with
  | nil =>
      cases h
      exact .nil
  | cons first rest ih =>
      rw [convert] at h
      split at h
      · cases h
      · rename_i v hv
        obtain ⟨others, ho, rfl⟩ := map_eq_ok_iff.1 h
        exact .cons ⟨rfl, hv⟩ (ih ho)

theorem faultOf?_convert (entries : List (String × Datum)) :
    faultOf? (convert entries) = entries.findSome? fun e => faultOf? (Value.ofDatum e.2) := by
  induction entries with
  | nil => rfl
  | cons first rest ih =>
      rw [convert, List.findSome?_cons, ← ih]
      cases Value.ofDatum first.2 with
      | error fault => rfl
      | ok v => rw [faultOf?_map, faultOf?]

theorem names_converted (h : List.Forall₂ Converted entries bindings) :
    Entries.names bindings = Entries.names entries := by
  induction h with
  | nil => rfl
  | cons first _ ih => exact List.cons_eq_cons.2 ⟨first.1.symm, ih⟩

theorem lookup_converted (h : List.Forall₂ Converted entries bindings) :
    bindings.lookup name = some v ↔ ∃ d, entries.lookup name = some d ∧ Value.ofDatum d = .ok v := by
  induction h with
  | nil => simp
  | @cons e b _ _ first _ ih =>
      rw [List.lookup_cons, List.lookup_cons, first.1]
      cases hn : name == b.1
      · exact ih
      · simp [first.2]

theorem last?_converted (h : List.Forall₂ Converted entries bindings) :
    last? name bindings = some v ↔ ∃ d, last? name entries = some d ∧ Value.ofDatum d = .ok v :=
  lookup_converted (List.forall₂_reverse_iff.2 h)

theorem names_ofEntries (h : ofEntries entries = .ok c) :
    c.names = (Entries.names entries).eraseDups := by
  obtain ⟨bindings, hb, rfl⟩ := map_eq_ok_iff.1 h
  rw [← names_converted (converted_of_convert hb)]
  exact Entries.names_settle bindings

theorem get?_ofEntries (h : ofEntries entries = .ok c) :
    c.get? name = some v ↔ ∃ d, last? name entries = some d ∧ Value.ofDatum d = .ok v := by
  obtain ⟨bindings, hb, rfl⟩ := map_eq_ok_iff.1 h
  rw [get?, Entries.lookup_settle, last?_converted (converted_of_convert hb)]

theorem error_of_ofEntries (h : ofEntries entries = .error fault) :
    ∃ e ∈ entries, Value.ofDatum e.2 = .error fault := by
  rw [← faultOf?_eq_some_iff, ofEntries, faultOf?_map, faultOf?_convert] at h
  obtain ⟨e, he, hfault⟩ := List.exists_of_findSome?_eq_some h
  exact ⟨e, he, faultOf?_eq_some_iff.1 hfault⟩

theorem ofEntries_fails_iff : (∃ fault, ofEntries entries = .error fault) ↔
    ∃ e ∈ entries, ∃ fault, Value.ofDatum e.2 = .error fault := by
  simp only [← faultOf?_eq_some_iff, ← Option.isSome_iff_exists, ofEntries, faultOf?_map,
    faultOf?_convert, List.findSome?_isSome_iff]

def carried (c : Context) : List (String × Datum) := c.bindings.map fun b => (b.1, .value b.2)

theorem names_carried (c : Context) : Entries.names c.carried = c.names := by
  simp [carried, Entries.names, Context.names]

theorem lookup_carried (c : Context) (name : String) :
    c.carried.lookup name = (c.get? name).map .value := by
  rw [carried, get?]
  induction c.bindings with
  | nil => rfl
  | cons b rest ih =>
      rw [List.map_cons, List.lookup_cons, List.lookup_cons]
      cases name == b.1
      · exact ih
      · rfl

theorem extend_eq (c : Context) (entries : List (String × Datum)) : c.extend entries =
    if reservedName ∈ Entries.names entries then .error (.reservedName reservedName)
    else ofEntries (settle (c.carried ++ entries)) := by
  have hany : entries.any (·.1 = reservedName) = true ↔ reservedName ∈ Entries.names entries := by
    simp [Entries.names]
  simp only [extend, hany, carried]

theorem ofEntries_of_extend (h : c.extend entries = .ok c') :
    ofEntries (settle (c.carried ++ entries)) = .ok c' := by
  rw [extend_eq] at h
  split at h
  · cases h
  · exact h

theorem names_extend (h : c.extend entries = .ok c') :
    c'.names = (c.names ++ Entries.names entries).eraseDups := by
  rw [names_ofEntries (ofEntries_of_extend h), Entries.names_settle,
    Entries.eraseDups_of_nodup (Entries.nodup_eraseDups _), Entries.names_append, names_carried]

theorem get?_extend (hc : c.names.Nodup) (h : c.extend entries = .ok c') :
    c'.get? name = some v ↔ (∃ d, last? name entries = some d ∧ Value.ofDatum d = .ok v) ∨
      last? name entries = none ∧ c.get? name = some v := by
  rw [← names_carried] at hc
  rw [get?_ofEntries (ofEntries_of_extend h), Entries.last?_settle, Entries.last?_append,
    Entries.last?_eq_lookup hc, lookup_carried]
  cases last? name entries with
  | some d => simp
  | none => simp [Value.ofDatum]

theorem error_of_extend (h : c.extend entries = .error fault) :
    (reservedName ∈ Entries.names entries ∧ fault = .reservedName reservedName) ∨
      ∃ e ∈ entries, Value.ofDatum e.2 = .error fault := by
  rw [extend_eq] at h
  split at h
  · rename_i hr
    cases h
    exact .inl ⟨hr, rfl⟩
  · obtain ⟨e, he, hfault⟩ := error_of_ofEntries h
    rcases List.mem_append.1 (Entries.mem_settle he) with he | he
    · obtain ⟨b, -, rfl⟩ := List.mem_map.1 he
      cases hfault
    · exact .inr ⟨e, he, hfault⟩

theorem extend_fails_iff (hd : (Entries.names entries).Nodup) :
    (∃ fault, c.extend entries = .error fault) ↔ reservedName ∈ Entries.names entries ∨
      ∃ e ∈ entries, ∃ fault, Value.ofDatum e.2 = .error fault := by
  constructor
  · rintro ⟨fault, h⟩
    exact (error_of_extend h).imp (·.1) fun ⟨e, he, hfault⟩ => ⟨e, he, fault, hfault⟩
  · rw [extend_eq]
    split
    · exact fun _ => ⟨_, rfl⟩
    · rename_i hr
      intro h
      obtain ⟨e, he, hfault⟩ := h.resolve_left hr
      -- No entry of the call replaces another one, so each of them is there to be converted.
      have hlast : last? e.1 (c.carried ++ entries) = some e.2 := by
        rw [Entries.last?_append, Entries.last?_eq_lookup hd, (Entries.lookup_eq_some_iff hd).2 he,
          Option.some_or]
      rw [← Entries.lookup_settle, Entries.lookup_eq_some_iff (Entries.nodup_names_settle _)] at hlast
      exact ofEntries_fails_iff.2 ⟨e, hlast, hfault⟩

end Context

/-- A context and all that was bound along its chain of extensions. -/
structure Lineage where
  context : Context
  bound : List (String × Datum)

namespace Lineage

open Entries (last?)

variable {l : Lineage}

/-- A context holds the last entry of each name, and the names in the order of their first ones. -/
structure Maps (l : Lineage) : Prop where
  names : l.context.names = (Entries.names l.bound).eraseDups
  get? : ∀ name v, l.context.get? name = some v ↔
    ∃ d, last? name l.bound = some d ∧ Value.ofDatum d = .ok v

theorem Maps.nodup (h : l.Maps) : l.context.names.Nodup := by
  rw [h.names]
  exact Entries.nodup_eraseDups _

end Lineage

/-- Calls that make contexts, of entries alone or of a context that was made before. -/
inductive Call where
  | create (entries : List (String × Datum))
  | extend (parent : Nat) (entries : List (String × Datum)) (distinct : (Entries.names entries).Nodup)

namespace Call

variable {call : Call} {calls : List Call} {made : List Lineage} {l : Lineage} {fault : Fault}

def entries : Call → List (String × Datum)
  | create entries => entries
  | extend _ entries _ => entries

def BindsReserved : Call → Prop
  | create _ => False
  | extend _ entries _ => Context.reservedName ∈ Entries.names entries

/-- What a call comes to, unless the context it is about is missing. -/
def outcome (made : List Lineage) : Call → Option (Except Fault Lineage)
  | create entries => some ((Context.ofEntries entries).map (⟨·, entries⟩))
  | extend parent entries _ =>
    made[parent]?.map fun l => (l.context.extend entries).map (⟨·, l.bound ++ entries⟩)

def after (made : List Lineage) (call : Call) : List Lineage :=
  match call.outcome made with
  | some (.ok l) => made ++ [l]
  | _ => made

def run (calls : List Call) : List Lineage := calls.foldl after []

theorem run_concat (calls : List Call) (call : Call) :
    run (calls ++ [call]) = after (run calls) call := by
  rw [run, List.foldl_append]
  rfl

theorem outcome_maps (hmade : ∀ l ∈ made, l.Maps) (h : call.outcome made = some (.ok l)) : l.Maps := by
  cases call with
  | create entries =>
      obtain ⟨c, hc, rfl⟩ := map_eq_ok_iff.1 (Option.some.inj h)
      exact ⟨Context.names_ofEntries hc, fun name v => Context.get?_ofEntries hc⟩
  | extend parent entries distinct =>
      obtain ⟨p, hp, hl⟩ := Option.map_eq_some_iff.1 h
      obtain ⟨c, hc, rfl⟩ := map_eq_ok_iff.1 hl
      have hmaps := hmade p (List.mem_of_getElem? hp)
      constructor
      · rw [Context.names_extend hc, hmaps.names, Entries.names_append,
          Entries.eraseDups_append_eraseDups]
      · intro name v
        rw [Context.get?_extend hmaps.nodup hc, hmaps.get?, Entries.last?_append]
        cases Entries.last? name entries <;> simp

theorem run_maps (calls : List Call) : ∀ l ∈ run calls, l.Maps := by
  induction calls using List.reverseRecOn with
  | nil => exact fun l hl => absurd hl List.not_mem_nil
  | append_singleton calls call ih =>
      rw [run_concat, after]
      split
      · rename_i l hl
        intro k hk
        rcases List.mem_append.1 hk with hk | hk
        · exact ih k hk
        · rw [List.mem_singleton.1 hk]
          exact outcome_maps ih hl
      · exact ih

theorem prefix_after (made : List Lineage) (call : Call) : made <+: after made call := by
  rw [after]
  split
  · exact List.prefix_append _ _
  · exact List.prefix_rfl

theorem run_prefix (calls more : List Call) : run calls <+: run (calls ++ more) := by
  induction more using List.reverseRecOn with
  | nil => simp
  | append_singleton more call ih =>
      rw [← List.append_assoc, run_concat]
      exact ih.trans (prefix_after _ _)

theorem error_of_outcome (h : call.outcome made = some (.error fault)) :
    (call.BindsReserved ∧ fault = .reservedName Context.reservedName) ∨
      ∃ e ∈ call.entries, Value.ofDatum e.2 = .error fault := by
  cases call with
  | create entries =>
      have hfault := congrArg faultOf? (Option.some.inj h)
      rw [faultOf?_map] at hfault
      exact .inr (Context.error_of_ofEntries (faultOf?_eq_some_iff.1 hfault))
  | extend parent entries distinct =>
      obtain ⟨p, -, hp⟩ := Option.map_eq_some_iff.1 h
      have hfault := congrArg faultOf? hp
      rw [faultOf?_map] at hfault
      exact Context.error_of_extend (faultOf?_eq_some_iff.1 hfault)

theorem outcome_fails_iff {result : Except Fault Lineage} (h : call.outcome made = some result) :
    (∃ fault, result = .error fault) ↔
      call.BindsReserved ∨ ∃ e ∈ call.entries, ∃ fault, Value.ofDatum e.2 = .error fault := by
  simp only [← faultOf?_eq_some_iff]
  cases call with
  | create entries =>
      rw [← Option.some.inj h, faultOf?_map]
      simp only [faultOf?_eq_some_iff, Context.ofEntries_fails_iff, BindsReserved, false_or,
        Call.entries]
  | extend parent entries distinct =>
      obtain ⟨p, -, rfl⟩ := Option.map_eq_some_iff.1 h
      rw [faultOf?_map]
      simp only [faultOf?_eq_some_iff, Context.extend_fails_iff distinct, BindsReserved, Call.entries]

/-- Every context that calls make is the map of what was bound along its chain, and its ways to be looked
into agree. Calls behind it leave it as it is, at its number. A call that fails makes nothing, and it
fails if it extends a context by the reserved name or gives a value that cannot be converted, and only
then. -/
theorem contexts_persist (calls : List Call) :
    (∀ l ∈ run calls, l.Maps ∧ l.context.Coherent) ∧
    (∀ more, run calls <+: run (calls ++ more)) ∧
    ∀ call result, call.outcome (run calls) = some result →
      (∀ l, result = .ok l → run (calls ++ [call]) = run calls ++ [l]) ∧
      (∀ fault, result = .error fault → run (calls ++ [call]) = run calls ∧
        ((call.BindsReserved ∧ fault = .reservedName Context.reservedName) ∨
          ∃ e ∈ call.entries, Value.ofDatum e.2 = .error fault)) ∧
      ((∃ fault, result = .error fault) ↔
        call.BindsReserved ∨ ∃ e ∈ call.entries, ∃ fault, Value.ofDatum e.2 = .error fault) := by
  refine ⟨fun l hl => ?_, run_prefix calls, fun call result h => ⟨?_, ?_, outcome_fails_iff h⟩⟩
  · have hmaps := run_maps calls l hl
    exact ⟨hmaps, Context.coherent_of_nodup hmaps.nodup⟩
  · rintro l rfl
    rw [run_concat, after, h]
  · rintro fault rfl
    rw [run_concat, after, h]
    exact ⟨rfl, error_of_outcome h⟩

/-- A context can be made with an entry of the reserved name, but none be extended by it. -/
theorem reserved_not_bound :
    ((Call.create [("self", .integer 1)]).outcome []).map faultOf? = some none ∧
      ((Call.extend 0 [("self", .integer 1)] (by decide)).outcome (run [.create []])).map faultOf? =
        some (some (.reservedName "self")) :=
  ⟨rfl, rfl⟩

end Call

end TemplateExpr
