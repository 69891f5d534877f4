import TemplateExpr.Limit
import TemplateExpr.Text.Quoted
import TemplateExpr.Text.Style

namespace TemplateExpr.Command

inductive UsageProblem where
  | noSuchOption (name : String) (similar : List String)
  | valueMissing (name : String)
  | valueRefused (name : String)
  | noSuchCommand (name : String) (similar : List String)
  | commandMissing
  | argumentMissing (name : String)
  | extraArguments (first : String) (others : List String)
  | badValue (hint reason : String)

open Text (quoted)

def suggestion : List String → String
  | [] => ""
  | [name] => " Did you mean " ++ quoted name ++ "?"
  | names => " (Did you mean one of: " ++ ", ".intercalate (names.map quoted) ++ "?)"

def UsageProblem.message : UsageProblem → String
  | .noSuchOption name similar => "No such option " ++ quoted name ++ "." ++ suggestion similar
  | .valueMissing name => "Option " ++ quoted name ++ " requires an argument."
  | .valueRefused name => "Option " ++ quoted name ++ " does not take a value."
  | .noSuchCommand name similar => "No such command " ++ quoted name ++ "." ++ suggestion similar
  | .commandMissing => "Missing command."
  | .argumentMissing name => "Missing argument " ++ quoted name ++ "."
  | .extraArguments first [] => "Got unexpected extra argument (" ++ first ++ ")"
  | .extraArguments first others =>
    "Got unexpected extra arguments (" ++ " ".intercalate (first :: others) ++ ")"
  | .badValue hint reason => "Invalid value for " ++ hint ++ ": " ++ reason

structure Synopsis where
  path : String
  pattern : String

def Synopsis.text (s : Synopsis) : String := "Usage: " ++ s.path ++ " " ++ s.pattern ++ "\n"

def Synopsis.complaint (s : Synopsis) (problem : UsageProblem) : String :=
  s.text ++ "Try '" ++ s.path ++ " --help' for help.\n\nError: " ++ problem.message ++ "\n"

/-- What a run ends with. It may be an exception that is not reported. -/
structure Outcome where
  exit : Nat
  stdout : String
  stderr : String
  exception : Option Raised
deriving DecidableEq

namespace Outcome

def success (stdout : String) : Outcome := ⟨0, Text.unstyled stdout, "", none⟩

def drawing (stdout : String) : Outcome := ⟨0, stdout, "", none⟩

def failure (stderr : String) : Outcome := ⟨1, "", Text.unstyled stderr, none⟩

def broken (exception : Option Raised) : Outcome := ⟨1, "", "", exception⟩

def misuse (s : Synopsis) (problem : UsageProblem) : Outcome :=
  ⟨2, "", Text.unstyled (s.complaint problem), none⟩

def afterLog (lines : List String) (o : Outcome) : Outcome :=
  { o with stderr := "".intercalate (lines.map (· ++ "\n")) ++ o.stderr }

end Outcome

end TemplateExpr.Command
