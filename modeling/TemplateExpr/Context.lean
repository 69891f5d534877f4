import TemplateExpr.Entries
import TemplateExpr.Value.Datum

namespace TemplateExpr

/-- Names with their values, each name once, in the order they were first bound. -/
structure Context where
  bindings : List (String × Value)

namespace Context

def empty : Context := ⟨[]⟩

def convert : List (String × Datum) → Except Fault (List (String × Value))
  | [] => .ok []
  | (name, d) :: rest =>
    match Value.ofDatum d with
    | .error fault => .error fault
    | .ok v => (convert rest).map ((name, v) :: ·)

/-- All entries are converted; of several of one name the last counts, in the place of the first. -/
def ofEntries (entries : List (String × Datum)) : Except Fault Context :=
  (convert entries).map fun bindings => ⟨Entries.settle bindings⟩

def reservedName : String := "self"

def extend (c : Context) (entries : List (String × Datum)) : Except Fault Context :=
  if entries.any (·.1 = reservedName) then .error (.reservedName reservedName)
  else ofEntries (Entries.settle (c.bindings.map (fun b => (b.1, .value b.2)) ++ entries))

def get? (c : Context) (name : String) : Option Value := c.bindings.lookup name

def getD (c : Context) (name : String) (default : Value) : Value := (c.get? name).getD default

def contains (c : Context) (name : String) : Bool := (c.get? name).isSome

def names (c : Context) : List String := c.bindings.map (·.1)

def size (c : Context) : Nat := c.bindings.length

end Context

end TemplateExpr
