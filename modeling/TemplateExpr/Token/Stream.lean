import TemplateExpr.Token.Basic

namespace TemplateExpr

inductive SyntaxProblem where
  | unexpected
  | afterExpression
  | inParentheses
  | listItem
  | listSeparator
  | tooDeep
  | unbalanced
  | noBlockStart
  | afterBlockEnd
deriving DecidableEq

namespace SyntaxProblem

def description : SyntaxProblem → String
  | .unexpected => "Unexpected token"
  | .afterExpression => "Unexpected token after expression"
  | .inParentheses => "Unexpected token in parentheses"
  | .listItem => "Invalid list item"
  | .listSeparator => "Expected ',' or ']' in list"
  | .tooDeep => "Expression nested too deeply"
  | .unbalanced => "Unbalanced parentheses"
  | .noBlockStart => "Expected block start"
  | .afterBlockEnd => "Unexpected token after block end"

end SyntaxProblem

/-- Either the tokens end too early or one of them is to blame. -/
inductive SyntaxError where
  | endOfInput
  | blame (problem : SyntaxProblem) (token : Token)

/-- The outcome of reading from `tokens`: a result, and what is left to be read afterwards. -/
structure Reading (α : Type) (tokens : List Token) where
  result : Except SyntaxError α
  rest : List Token
  bound : rest.length ≤ tokens.length

namespace Reading

variable {α β : Type} {ts us : List Token}

def done (a : α) (ts : List Token) : Reading α ts := ⟨.ok a, ts, Nat.le_refl _⟩

def fail (e : SyntaxError) (ts : List Token) : Reading α ts := ⟨.error e, ts, Nat.le_refl _⟩

def within (r : Reading α ts) (h : ts.length ≤ us.length) : Reading α us :=
  ⟨r.result, r.rest, Nat.le_trans r.bound h⟩

def after (t : Token) (r : Reading α ts) : Reading α (t :: ts) :=
  r.within (by simp)

def map (f : α → β) (r : Reading α ts) : Reading β ts := ⟨r.result.map f, r.rest, r.bound⟩

def andThen (r : Reading α ts) (next : α → (rest : List Token) → rest.length ≤ ts.length →
    Reading β rest) : Reading β ts :=
  match r.result with
  | .error e => ⟨.error e, r.rest, r.bound⟩
  | .ok a => (next a r.rest r.bound).within r.bound

end Reading

structure TokenStream where
  remaining : List Token

namespace TokenStream

def peek? (s : TokenStream) : Option Token := s.remaining.head?

def atEnd (s : TokenStream) : Bool := s.remaining.isEmpty

def next (s : TokenStream) : Except SyntaxError Token × TokenStream :=
  match s.remaining with
  | [] => (.error .endOfInput, s)
  | t :: ts => (.ok t, ⟨ts⟩)

def drain (s : TokenStream) : List Token × TokenStream := (s.remaining, ⟨[]⟩)

end TokenStream

end TemplateExpr
