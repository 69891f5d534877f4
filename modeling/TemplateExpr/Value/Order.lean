import TemplateExpr.Fault

namespace TemplateExpr.Value

def equalNumbers (a b : Value) : Bool :=
  match a.place?, b.place? with
  | some p, some q => p = q
  | _, _ => false

/-- A float that is not a number is neither before nor after any number. -/
def compareNumbers (a b : Value) : Ordering :=
  match a.place?, b.place? with
  | some p, some q => p.compare q
  | _, _ => .eq

mutual

def equal : Value → Value → Bool
  | .integer m, .integer n => m = n
  | .integer m, .float y => equalNumbers (.integer m) (.float y)
  | .float x, .integer n => equalNumbers (.float x) (.integer n)
  | .float x, .float y => equalNumbers (.float x) (.float y)
  | .boolean a, .boolean b => a = b
  | .string s, .string t => s = t
  | .list as, .list bs => equalItems as bs
  | _, _ => false

def equalItems : List Value → List Value → Bool
  | [], [] => true
  | a :: as, b :: bs => equal a b && equalItems as bs
  | _, _ => false

end

mutual

/-- Sameness of kind and content at every level. -/
def identical : Value → Value → Bool
  | .integer m, .integer n => m = n
  | .float x, .float y => equalNumbers (.float x) (.float y)
  | .boolean a, .boolean b => a = b
  | .string s, .string t => s = t
  | .list as, .list bs => identicalItems as bs
  | _, _ => false

def identicalItems : List Value → List Value → Bool
  | [], [] => true
  | a :: as, b :: bs => identical a b && identicalItems as bs
  | _, _ => false

end

mutual

/-- Texts are ordered by their code points, false comes before true, and a list before its
extensions. -/
def compare : Value → Value → Except Fault Ordering
  | .integer m, .integer n => .ok (Ord.compare m n)
  | .integer m, .float y => .ok (compareNumbers (.integer m) (.float y))
  | .float x, .integer n => .ok (compareNumbers (.float x) (.integer n))
  | .float x, .float y => .ok (compareNumbers (.float x) (.float y))
  | .boolean a, .boolean b => .ok (Ord.compare a b)
  | .string s, .string t => .ok (Ord.compare s t)
  | .list as, .list bs => compareItems as bs
  | a, b => .error (.incomparable a.kind b.kind)

def compareItems : List Value → List Value → Except Fault Ordering
  | [], [] => .ok .eq
  | [], _ :: _ => .ok .lt
  | _ :: _, [] => .ok .gt
  | a :: as, b :: bs =>
    match compare a b with
    | .ok .eq => compareItems as bs
    | outcome => outcome

end

end TemplateExpr.Value
