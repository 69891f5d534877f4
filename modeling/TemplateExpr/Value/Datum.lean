import TemplateExpr.Fault

namespace TemplateExpr

structure Date where
  year : Nat
  month : Nat
  day : Nat
  time : Option String
deriving DecidableEq

inductive Datum where
  | null
  | boolean (b : Bool)
  | integer (n : Int)
  | float (x : Float)
  | string (s : String)
  | list (items : List Datum)
  | tuple (items : List Datum)
  | mapping (entries : List (Datum × Datum))
  | date (d : Date)
  | value (v : Value)
  | foreign (typeName : String)

namespace Datum

instance : Inhabited Datum := ⟨.null⟩

def typeName : Datum → String
  | .null => "NoneType"
  | .boolean _ => "bool"
  | .integer _ => "int"
  | .float _ => "float"
  | .string _ => "str"
  | .list _ => "list"
  | .tuple _ => "tuple"
  | .mapping _ => "dict"
  | .date d => if d.time.isSome then "datetime" else "date"
  | .value v => v.kind.name
  | .foreign typeName => typeName

end Datum

namespace Datum

def number? : Datum → Option Value
  | .boolean b => some (.integer (if b then 1 else 0))
  | .integer n => some (.integer n)
  | .float x => some (.float x)
  | _ => none

def sameKey : Datum → Datum → Bool
  | .null, .null => true
  | .string s, .string t => s = t
  | .date d, .date e => d = e
  | a, b =>
    match a.number?, b.number? with
    | some x, some y => decide (x.place?.isSome) && decide (x.place? = y.place?)
    | _, _ => false

def set (key value : Datum) : List (Datum × Datum) → List (Datum × Datum)
  | [] => [(key, value)]
  | (k, v) :: rest => if k.sameKey key then (k, value) :: rest else (k, v) :: set key value rest

def get? (key : Datum) (entries : List (Datum × Datum)) : Option Datum :=
  (entries.find? fun e => e.1.sameKey key).map (·.2)

def isMapping : Datum → Bool
  | .mapping _ => true
  | _ => false

theorem isMapping_iff {d : Datum} : d.isMapping = true ↔ ∃ entries, d = .mapping entries := by
  cases d <;> simp [isMapping]

end Datum

namespace Value

mutual

def toDatum : Value → Datum
  | .integer n => .integer n
  | .float x => .float x
  | .boolean b => .boolean b
  | .string s => .string s
  | .list items => .list (toData items)

def toData : List Value → List Datum
  | [] => []
  | v :: rest => toDatum v :: toData rest

end

/-- An integer beyond 64 bits is reported in full, so that it has to be within the limit of what can be
written. -/
def checkRange (n : Int) : Except Fault Int :=
  if inRange n then .ok n
  else if Limit.writable n then .error (.outOfRange n)
  else .error (.limit .writing)

mutual

/-- A finished value is taken as it is; the range of integers is checked everywhere else. -/
def ofDatum : Datum → Except Fault Value
  | .boolean b => .ok (.boolean b)
  | .integer n => (checkRange n).map .integer
  | .float x => .ok (.float x)
  | .string s => .ok (.string s)
  | .list items => (ofData items).map .list
  | .tuple items => (ofData items).map .list
  | .value v => .ok v
  | other => .error (.noConversion other.typeName)

def ofData : List Datum → Except Fault (List Value)
  | [] => .ok []
  | d :: rest =>
    match ofDatum d with
    | .error fault => .error fault
    | .ok v => (ofData rest).map (v :: ·)

end

end Value

end TemplateExpr
