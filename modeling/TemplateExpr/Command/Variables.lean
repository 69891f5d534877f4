import TemplateExpr.Command.Usage
import TemplateExpr.Text.Blank
import TemplateExpr.Library

namespace TemplateExpr.Command

/-- An argument gives no variable, or reading its value raises an exception. -/
inductive BadVariable where
  | noAssignment (raw : String)
  | raised (r : Raised)
deriving DecidableEq

def BadVariable.message : BadVariable → String
  | .noAssignment raw => "expected NAME=VALUE, got " ++ Text.quoted raw
  | .raised r => r.message

/-- What stands behind the equals sign: data if it can be read as such, and else a text. -/
def readVariable (lib : Library) (text : String) : Except BadVariable Datum :=
  if text.isEmpty then .ok (.string "")
  else
    match lib.document text with
    | .ok d => .ok d
    | .error .malformed => .ok (.string text)
    | .error (.raised r) => .error (.raised r)

def parseVariable (lib : Library) (raw : String) : Except BadVariable (String × Datum) :=
  let cs := raw.toList
  let name := Text.trim Text.isSeparating (cs.takeWhile (· ≠ '='))
  match cs.dropWhile (· ≠ '=') with
  | [] => .error (.noAssignment raw)
  | _ :: text =>
    if name.isEmpty then .error (.noAssignment raw)
    else (readVariable lib (String.ofList text)).map fun d => (String.ofList name, d)

def parseVariables (lib : Library) : List String → Except BadVariable (List (String × Datum))
  | [] => .ok []
  | raw :: rest =>
    match parseVariable lib raw with
    | .error e => .error e
    | .ok v => (parseVariables lib rest).map (v :: ·)

inductive VariablesError where
  | malformed (path : String)
  | notAMapping (path : String)
  | raised (r : Raised)
deriving DecidableEq

def VariablesError.message : VariablesError → String
  | .malformed path => "Invalid YAML in " ++ path
  | .notAMapping path => "Variables file " ++ path ++ " must contain a mapping"
  | .raised r => r.message

def loadVariables (lib : Library) (path text : String) :
    Except VariablesError (List (Datum × Datum)) :=
  match lib.document text with
  | .error .malformed => .error (.malformed path)
  | .error (.raised r) => .error (.raised r)
  | .ok .null => .ok []
  | .ok (.mapping entries) => .ok entries
  | .ok _ => .error (.notAMapping path)

end TemplateExpr.Command
