import TemplateExpr.Cache
import TemplateExpr.Value.Shown

namespace TemplateExpr

structure Settings where
  cacheExpressions : Bool
  cacheSize : Nat
  verbosity : String
deriving DecidableEq

namespace Settings

def verbosities : List (String × Log.Level) :=
  [("error", .error), ("warning", .warning), ("info", .info), ("debug", .debug)]

def default : Settings := ⟨true, Cache.defaultCapacity, "warning"⟩

def maxCacheSize : Nat := 100000

inductive Field where
  | cacheExpressions
  | cacheSize
  | verbosity
deriving DecidableEq

def Field.name : Field → String
  | .cacheExpressions => "cache_expressions"
  | .cacheSize => "cache_size"
  | .verbosity => "verbosity"

/-- A file cannot be used, or the value that counts for a field is not one. What else can go wrong is
raised. -/
inductive Error where
  | malformed (path : String)
  | notAMapping (path typeName : String)
  | invalid (field : Field) (reason : String) (value : Datum)
  | raised (r : Raised)

namespace Error

def message : Error → String
  | .malformed path => "Invalid YAML in " ++ path
  | .notAMapping path _ => "Config file " ++ path ++ " must contain a mapping"
  | .invalid _ reason _ => "Invalid configuration: " ++ reason
  | .raised r => r.message

def isReported : Error → Bool
  | .malformed _ | .notAMapping .. | .invalid .. => true
  | .raised _ => false

def raised? : Error → Option Raised
  | .raised r => some r
  | _ => none

def field? : Error → Option Field
  | .invalid field _ _ => some field
  | _ => none

def value : Error → Datum
  | .notAMapping _ typeName => .string typeName
  | .invalid _ _ value => value
  | _ => .null

end Error

end Settings

end TemplateExpr
