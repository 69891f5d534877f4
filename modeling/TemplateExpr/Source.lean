import TemplateExpr.Eval
import TemplateExpr.Expr.Parse
import TemplateExpr.Token.Tokenize

namespace TemplateExpr

inductive Failure where
  | lexical (e : LexicalError)
  | grammatical (e : SyntaxError)
  | fault (f : Fault)

def Failure.isOfExpression : Failure → Bool
  | .fault f => f.isOfExpression
  | _ => true

def Failure.raised? : Failure → Option Raised
  | .fault f => f.raised?
  | _ => none

/-- A failure together with the source it came up in, if it came up in one. -/
structure Incident where
  failure : Failure
  source : Option String

namespace Incident

def ofFault (f : Fault) : Incident := ⟨.fault f, none⟩

def inSource (source : String) (i : Incident) : Incident :=
  if i.failure.isOfExpression then { i with source := some (i.source.getD source) } else i

theorem inSource_failure (source : String) (i : Incident) :
    (i.inSource source).failure = i.failure := by
  unfold inSource
  split <;> rfl

end Incident

def parseSource (source : String) : Except Incident Expr :=
  match tokenize source with
  | .error e => .error ⟨.lexical e, some source⟩
  | .ok tokens => (parseBlock tokens).mapError fun e => ⟨.grammatical e, some source⟩

def evaluateSource (c : Context) (source : String) : Except Incident Value :=
  match parseSource source with
  | .error incident => .error incident
  | .ok e => (evaluate c e).mapError fun f => (Incident.ofFault f).inSource source

end TemplateExpr
