import TemplateExpr.Source

namespace TemplateExpr

inductive Diagnostic.Label where
  | general
  | lexical
  | grammatical
  | endOfInput
  | evaluation
  | undefinedVariable
  | type
  | arithmetic
  | unsupported
deriving DecidableEq

def Diagnostic.Label.text : Diagnostic.Label → String
  | .general => "ExpressionError"
  | .lexical => "ExpressionLexError"
  | .grammatical => "ExpressionSyntaxError"
  | .endOfInput => "UnexpectedEndOfInput"
  | .evaluation => "ExpressionEvaluationError"
  | .undefinedVariable => "UndefinedVariableError"
  | .type => "ExpressionTypeError"
  | .arithmetic => "ExpressionArithmeticError"
  | .unsupported => "UnsupportedOperationError"

/-- A failure without a place in its source has line and column zero. -/
structure Diagnostic where
  label : Diagnostic.Label
  message : String
  source : Option String
  line : Nat
  column : Nat
deriving DecidableEq

namespace Diagnostic

def placeText (line column : Nat) : String := " at " ++ line.repr ++ ":" ++ column.repr

def unplaced (label : Label) (message : String) (source : Option String) : Diagnostic :=
  ⟨label, message, source, 0, 0⟩

def atCharacter (description : String) (line column : Nat) (source : Option String) : Diagnostic :=
  ⟨.lexical, description ++ placeText line column, source, line, column⟩

def atToken (description text : String) (line column : Nat) (source : Option String) : Diagnostic :=
  ⟨.grammatical, description ++ ": " ++ Text.quoted text ++ placeText line column, source, line,
    column⟩

def endDescription : String := "Unexpected end of expression"

def Label.ofFault? : Fault → Option Label
  | .undefinedVariable .. => some .undefinedVariable
  | .noConversion _ | .incomparable .. | .badOperands .. | .notANumber .. => some .type
  | .outOfRange _ | .divisionByZero | .moduloByZero => some .arithmetic
  | .noBinaryForm _ | .noUnaryForm _ => some .unsupported
  | .reservedName _ | .limit _ => none

/-- The report on an incident. There is none when the failure is not one of the expression. -/
def ofIncident? (i : Incident) : Option Diagnostic :=
  match i.failure with
  | .lexical e => some (atCharacter e.problem.description e.position.line e.position.column i.source)
  | .grammatical .endOfInput => some (unplaced .endOfInput endDescription i.source)
  | .grammatical (.blame problem t) =>
    some (atToken problem.description t.text t.position.line t.position.column i.source)
  | .fault f => (Label.ofFault? f).map fun label => unplaced label f.message i.source

theorem Label.isSome_ofFault? (f : Fault) : (Label.ofFault? f).isSome = f.isOfExpression := by
  cases f <;> rfl

def paragraph (message : String) (details : List String) (suggestion : Option String) : String :=
  let hint := match suggestion with
    | none | some "" => []
    | some s => ["Suggestion: " ++ s]
  "\n".intercalate (("Error: " ++ message) :: details.map ("  " ++ ·) ++ hint)

def details (d : Diagnostic) : List String :=
  ["Kind: " ++ d.label.text] ++
    (match d.source with
      | none | some "" => []
      | some s => ["Expression: " ++ s]) ++
    (if d.line = 0 then []
      else ["Position: line " ++ d.line.repr ++ ", column " ++ d.column.repr])

def text (d : Diagnostic) : String := paragraph d.message d.details none

end Diagnostic

def Incident.label? (i : Incident) : Option Diagnostic.Label := (Diagnostic.ofIncident? i).map (·.label)

end TemplateExpr
