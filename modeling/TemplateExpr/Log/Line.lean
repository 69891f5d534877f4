import TemplateExpr.Entries
import TemplateExpr.Json
import TemplateExpr.Log.Event
import TemplateExpr.Surroundings
import TemplateExpr.Value.Shown

namespace TemplateExpr.Log

inductive Format where
  | columns
  | json
deriving DecidableEq

structure Setup where
  format : Format
  threshold : Int
deriving DecidableEq

def levelNumber? (name : String) : Option Int :=
  match name.map Char.toUpper with
  | "CRITICAL" | "FATAL" => some 50
  | "ERROR" => some 40
  | "WARNING" | "WARN" => some 30
  | "INFO" => some 20
  | "DEBUG" => some 10
  | "NOTSET" => some 0
  | _ => none

def environmentThreshold (s : Surroundings) : Int :=
  ((s.environmentValue? "QUILL_LOG_LEVEL").bind levelNumber?).getD Level.warning.number

def wantsJson (s : Surroundings) : Bool :=
  (s.environmentValue? "QUILL_LOG_FORMAT").map Surroundings.lower = some "json"

def Setup.ofSurroundings (s : Surroundings) (forceJson : Bool) (threshold : Option Int) : Setup :=
  ⟨if forceJson || wantsJson s then .json else .columns, threshold.getD (environmentThreshold s)⟩

mutual

def jsonOfDatum : Datum → Json
  | .null => .null
  | .boolean b => .boolean b
  | .integer n => .integer n
  | .float x => .float x
  | .string s => .string s
  | .list items => .array (jsonOfData items)
  | .tuple items => .array (jsonOfData items)
  | .mapping entries => .object (jsonOfEntries entries)
  | .value v => Json.ofValue v
  | other => .string other.quoted

def jsonOfData : List Datum → List Json
  | [] => []
  | d :: rest => jsonOfDatum d :: jsonOfData rest

def jsonOfEntries : List (Datum × Datum) → List (String × Json)
  | [] => []
  | (k, v) :: rest => (k.shown, jsonOfDatum v) :: jsonOfEntries rest

end

def addMissing (bound fields : List (String × Datum)) : List (String × Datum) :=
  bound.foldl (fun fields b => if (fields.lookup b.1).isSome then fields else fields ++ [b]) fields

/-- Everything known about an event, in order. What is said of its circumstances replaces a field
of the same name in its place. -/
def circumstances (now logger : String) (bound : List (String × Datum)) (e : Event) :
    List (String × Datum) :=
  let fields := Entries.set "event" (.string e.name) e.fields
  [("level", e.level.name), ("logger", logger), ("timestamp", now)].foldl
    (fun fields c => Entries.set c.1 (.string c.2) fields) (addMissing bound fields)

def needsQuotes (s : String) : Bool := s.any fun c => " \t=\r\n\"'".toList.contains c

def fieldText : Datum → String
  | .string s => if needsQuotes s then Text.quoted s else s
  | d => d.quoted

def padRight (width : Nat) (s : String) : String :=
  s ++ String.ofList (List.replicate (width - s.length) ' ')

def levelWidth : Nat := 9

def eventWidth : Nat := 30

def columnsLine (now logger : String) (bound : List (String × Datum)) (e : Event) : String :=
  let own := ["event", "level", "logger", "timestamp"]
  let fields := (circumstances now logger bound e).filter fun f => !own.contains f.1
  let shown := (fields.mergeSort fun a b => a.1 ≤ b.1).map fun f => f.1 ++ "=" ++ fieldText f.2
  " ".intercalate ([now, "[" ++ padRight levelWidth e.level.name ++ "]",
    padRight eventWidth e.name, "[" ++ logger ++ "]"] ++ shown)

def jsonLine (now logger : String) (bound : List (String × Datum)) (e : Event) : String :=
  Json.compact (.object ((circumstances now logger bound e).map fun f => (f.1, jsonOfDatum f.2)))

def line? (setup : Setup) (now logger : String) (bound : List (String × Datum)) (e : Event) :
    Option String :=
  if setup.threshold ≤ e.level.number then
    some (match setup.format with
      | .columns => columnsLine now logger bound e
      | .json => jsonLine now logger bound e)
  else none

structure Session where
  setup : Option Setup
  bound : List (String × Datum)

namespace Session

def start : Session := ⟨none, []⟩

def configure (session : Session) (setup : Setup) : Session := { session with setup := some setup }

def bind (session : Session) (fields : List (String × Datum)) : Session :=
  { session with bound := fields.foldl (fun b f => Entries.set f.1 f.2 b) session.bound }

def clear (session : Session) : Session := { session with bound := [] }

def lines (session : Session) (now logger : String) (e : Event) : List String :=
  match session.setup with
  | none => []
  | some setup => (line? setup now logger session.bound e).toList

/-- Without a set-up only what is at least a warning would be let through. -/
def threshold (session : Session) : Int :=
  (session.setup.map Setup.threshold).getD Level.warning.number

def handlers (session : Session) : Nat := if session.setup.isSome then 1 else 0

end Session

end TemplateExpr.Log
