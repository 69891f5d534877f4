import TemplateExpr.Proofs.Evaluation.Fitting
import TemplateExpr.Report.Diagnostic

namespace TemplateExpr

open Diagnostic (Label)

namespace Datum

mutual

/-- What is converted piece by piece, from left to right. A finished value is not looked into. -/
def parts : Datum → List Datum
  | .list items => itemParts items
  | .tuple items => itemParts items
  | d => [d]

def itemParts : List Datum → List Datum
  | [] => []
  | d :: rest => parts d ++ itemParts rest

end

mutual

def plain : Datum → Datum
  | .list items => .list (plainItems items)
  | .tuple items => .list (plainItems items)
  | .value v => v.toDatum
  | d => d

def plainItems : List Datum → List Datum
  | [] => []
  | d :: rest => plain d :: plainItems rest

end

/-- Why a part has no value, if it has none: it is an integer beyond 64 bits, which is named if it can
be written, or there are no values of its type. -/
def refusal? : Datum → Option Fault
  | .boolean _ | .float _ | .string _ | .value _ | .list _ | .tuple _ => none
  | .integer n =>
    if -2 ^ 63 ≤ n ∧ n ≤ 2 ^ 63 - 1 then none
    else if Limit.writable n then some (.outOfRange n)
    else some (.limit .writing)
  | other => some (.noConversion other.typeName)

end Datum

def faultOf? {ε α : Type} : Except ε α → Option ε
  | .error e => some e
  | .ok _ => none

@[simp]
theorem faultOf?_map {ε α β : Type} (x : Except ε α) (f : α → β) : faultOf? (x.map f) = faultOf? x := by
  cases x <;> rfl

theorem faultOf?_eq_some_iff {ε α : Type} {x : Except ε α} {e : ε} :
    faultOf? x = some e ↔ x = .error e := by
  cases x <;> simp [faultOf?]

theorem faultOf?_eq_none_iff {ε α : Type} {x : Except ε α} : faultOf? x = none ↔ ∃ a, x = .ok a := by
  cases x <;> simp [faultOf?]

namespace Value

open Datum (parts itemParts plain plainItems refusal?)

variable {v : Value} {vs : List Value} {d : Datum} {ds : List Datum}

theorem faultOf?_checkRange (n : Int) : faultOf? (checkRange n) = refusal? (.integer n) := by
  simp only [checkRange, refusal?, ← inRange_iff]
  split
  · rfl
  · split <;> rfl

mutual

theorem faultOf?_ofDatum (d : Datum) : faultOf? (ofDatum d) = d.parts.findSome? refusal? := by
  match d with
  | .integer n => simp [ofDatum, parts, faultOf?_checkRange]
  | .list items => simp [ofDatum, parts, faultOf?_ofData items]
  | .tuple items => simp [ofDatum, parts, faultOf?_ofData items]
  | .boolean _ | .float _ | .string _ | .value _ => rfl
  | .null | .mapping _ | .date _ | .foreign _ => rfl

theorem faultOf?_ofData (ds : List Datum) :
    faultOf? (ofData ds) = (itemParts ds).findSome? refusal? := by
  match ds with
  | [] => rfl
  | d :: ds =>
      rw [ofData, itemParts, List.findSome?_append, ← faultOf?_ofDatum d, ← faultOf?_ofData ds]
      cases ofDatum d with
      | error fault => rfl
      | ok v => rw [faultOf?_map, faultOf?, Option.none_or]

end

mutual

theorem toDatum_of_ofDatum {d : Datum} {v : Value} (h : ofDatum d = .ok v) : v.toDatum = d.plain := by
  match d with
  | .integer n =>
      obtain ⟨m, hm, rfl⟩ := map_eq_ok_iff.1 h
      rw [checkRange] at hm
      split at hm
      · cases hm
        rfl
      · split at hm <;> cases hm
  | .list items =>
      obtain ⟨vs, hvs, rfl⟩ := map_eq_ok_iff.1 h
      rw [toDatum, plain, toData_of_ofData hvs]
  | .tuple items =>
      obtain ⟨vs, hvs, rfl⟩ := map_eq_ok_iff.1 h
      rw [toDatum, plain, toData_of_ofData hvs]
  | .boolean _ | .float _ | .string _ | .value _ =>
      cases h
      rfl
  | .null | .mapping _ | .date _ | .foreign _ => cases h

theorem toData_of_ofData {ds : List Datum} {vs : List Value} (h : ofData ds = .ok vs) :
    toData vs = plainItems ds := by
  match ds with
  | [] =>
      cases h
      rfl
  | d :: ds =>
      rw [ofData] at h
      split at h
      · cases h
      · rename_i v hv
        obtain ⟨vs, hvs, rfl⟩ := map_eq_ok_iff.1 h
        rw [toData, plainItems, toDatum_of_ofDatum hv, toData_of_ofData hvs]

end

mutual

theorem toDatum_injective : ∀ {v w : Value}, v.toDatum = w.toDatum → v = w
  | .list _, .list _, h => congrArg Value.list (toData_injective (Datum.list.inj h))
  | .integer _, .integer _, h => congrArg Value.integer (Datum.integer.inj h)
  | .float _, .float _, h => congrArg Value.float (Datum.float.inj h)
  | .boolean _, .boolean _, h => congrArg Value.boolean (Datum.boolean.inj h)
  | .string _, .string _, h => congrArg Value.string (Datum.string.inj h)

theorem toData_injective : ∀ {vs ws : List Value}, toData vs = toData ws → vs = ws
  | [], [], _ => rfl
  | _ :: _, _ :: _, h =>
      have hcons := List.cons.inj h
      List.cons_eq_cons.2 ⟨toDatum_injective hcons.1, toData_injective hcons.2⟩

end

mutual

theorem plain_toDatum (v : Value) : v.toDatum.plain = v.toDatum := by
  match v with
  | .list items => rw [toDatum, plain, plainItems_toData items]
  | .integer _ | .float _ | .boolean _ | .string _ => rfl

theorem plainItems_toData (vs : List Value) : plainItems (toData vs) = toData vs := by
  match vs with
  | [] => rfl
  | v :: vs => rw [toData, plainItems, plain_toDatum v, plainItems_toData vs]

end

mutual

theorem parts_toDatum_accepted (v : Value) :
    (∀ p ∈ v.toDatum.parts, refusal? p = none) ↔ v.Fits := by
  match v with
  | .integer n =>
      simp only [toDatum, parts, List.mem_singleton, forall_eq, refusal?]
      constructor
      · intro h
        refine .integer (Decidable.by_contra fun hn => ?_)
        rw [if_neg hn] at h
        split at h <;> cases h
      · rintro (h | _)
        exact if_pos h
  | .list items =>
      rw [toDatum, parts, itemParts_toData_accepted items]
      exact ⟨.list, fun | .list h => h⟩
  | .float _ | .boolean _ | .string _ =>
      simp only [toDatum, parts, List.mem_singleton, forall_eq, refusal?, true_iff]
      constructor

theorem itemParts_toData_accepted (vs : List Value) :
    (∀ p ∈ itemParts (toData vs), refusal? p = none) ↔ ∀ v ∈ vs, v.Fits := by
  match vs with
  | [] => simp [toData, itemParts]
  | v :: vs =>
      simp only [toData, itemParts, List.mem_append, or_imp, forall_and, parts_toDatum_accepted v,
        itemParts_toData_accepted vs, List.forall_mem_cons]

end

theorem ofDatum_eq_ok_iff :
    ofDatum d = .ok v ↔ (∀ p ∈ d.parts, refusal? p = none) ∧ v.toDatum = d.plain := by
  rw [← List.findSome?_eq_none_iff, ← faultOf?_ofDatum, faultOf?_eq_none_iff]
  constructor
  · exact fun h => ⟨⟨v, h⟩, toDatum_of_ofDatum h⟩
  · rintro ⟨⟨w, hw⟩, h⟩
    rw [hw, toDatum_injective (h.trans (toDatum_of_ofDatum hw).symm)]

theorem ofDatum_eq_error_iff {fault : Fault} : ofDatum d = .error fault ↔
    ∃ before p behind, d.parts = before ++ p :: behind ∧ refusal? p = some fault ∧
      ∀ b ∈ before, refusal? b = none := by
  rw [← faultOf?_eq_some_iff, faultOf?_ofDatum, List.findSome?_eq_some_iff]

end Value

def Datum.reported? : Datum → Option Label
  | .integer n => if Limit.writable n then some .arithmetic else none
  | _ => some .type

theorem label_of_refusal {p : Datum} {fault : Fault} (h : p.refusal? = some fault) :
    Label.ofFault? fault = p.reported? := by
  cases p with
  | integer n =>
      rw [Datum.refusal?] at h
      rw [Datum.reported?]
      split at h
      · cases h
      · split at h
        · rename_i hw
          rw [if_pos hw, ← Option.some.inj h]
          rfl
        · rename_i hw
          rw [if_neg hw, ← Option.some.inj h]
          rfl
  | boolean _ | float _ | string _ | value _ | list _ | tuple _ => cases h
  | null | mapping _ | date _ | foreign _ =>
      cases h
      rfl

theorem Value.ofDatum_unwritable {n : Int} (hr : inRange n = false) (hw : Limit.writable n = false) :
    ofDatum (.integer n) = .error (.limit .writing) := by
  rw [ofDatum, checkRange, hr, hw]
  rfl

/-- Converting undoes being made plain, for values whose integers have 64 bits, and being made plain
undoes converting. A conversion fails by the first part that has no value, which is reported as a matter
of arithmetic or of types; only an integer that cannot be written is not. -/
theorem conversion_inverts (v : Value) (d : Datum) :
    (Value.ofDatum v.toDatum = .ok v ↔ v.Fits) ∧
    (Value.ofDatum d = .ok v ↔ (∀ p ∈ d.parts, p.refusal? = none) ∧ v.toDatum = d.plain) ∧
    ∀ fault, Value.ofDatum d = .error fault ↔
      ∃ before p behind, d.parts = before ++ p :: behind ∧ (∀ b ∈ before, b.refusal? = none) ∧
        p.refusal? = some fault ∧ Label.ofFault? fault = p.reported? := by
  refine ⟨?_, Value.ofDatum_eq_ok_iff, fun fault => ?_⟩
  · rw [Value.ofDatum_eq_ok_iff, Value.parts_toDatum_accepted, Value.plain_toDatum]
    exact and_iff_left rfl
  · rw [Value.ofDatum_eq_error_iff]
    constructor
    · rintro ⟨before, p, behind, hparts, hp, hbefore⟩
      exact ⟨before, p, behind, hparts, hbefore, hp, label_of_refusal hp⟩
    · rintro ⟨before, p, behind, hparts, hbefore, hp, -⟩
      exact ⟨before, p, behind, hparts, hp, hbefore⟩

/-- An integer of more than 4300 digits does not fit in 64 bits, but no such report is made. -/
theorem unwritable_not_reported :
    ¬ (Value.integer (16 ^ 3600)).Fits ∧
      ∃ fault, Value.ofDatum (.integer (16 ^ 3600)) = .error fault ∧ Label.ofFault? fault = none := by
  have hrange : Value.inRange (16 ^ 3600) = false := by decide +kernel
  have hwritable : Limit.writable (16 ^ 3600) = false := by decide +kernel
  constructor
  · rintro (h | _)
    rw [Value.inRange_iff.2 h] at hrange
    cases hrange
  · exact ⟨.limit .writing, Value.ofDatum_unwritable hrange hwritable, rfl⟩

end TemplateExpr
