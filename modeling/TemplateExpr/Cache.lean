import TemplateExpr.Log.Event
import TemplateExpr.Source

namespace TemplateExpr

/-- The entries go from the least to the most recently used. -/
structure Cache where
  capacity : Nat
  enabled : Bool
  entries : List (String × Expr)
  hits : Nat
  misses : Nat

namespace Cache

structure CapacityError where
  capacity : Int
deriving DecidableEq

def CapacityError.message (e : CapacityError) : String :=
  "max_size must be at least 1, got " ++ e.capacity.repr

def defaultCapacity : Nat := 256

def ofCapacity (capacity : Nat) (enabled : Bool) : Cache := ⟨capacity, enabled, [], 0, 0⟩

def new (capacity : Int) (enabled : Bool) : Except CapacityError Cache :=
  if capacity < 1 then .error ⟨capacity⟩ else .ok (ofCapacity capacity.toNat enabled)

def find? (c : Cache) (source : String) : Option Expr := c.entries.lookup source

def contains (c : Cache) (source : String) : Bool := (c.find? source).isSome

def size (c : Cache) : Nat := c.entries.length

def clear (c : Cache) : Cache := { c with entries := [], hits := 0, misses := 0 }

def promote (source : String) (e : Expr) (entries : List (String × Expr)) : List (String × Expr) :=
  entries.filter (·.1 ≠ source) ++ [(source, e)]

def surplus (c : Cache) : Nat := c.entries.length - c.capacity

def evicted (c : Cache) : List String := (c.entries.take c.surplus).map (·.1)

def evict (c : Cache) : Cache := { c with entries := c.entries.drop c.surplus }

def event (name source : String) : Log.Event := ⟨.debug, name, [("source", .string source)]⟩

def hitEvent : String → Log.Event := event "expression_cache_hit"

def missEvent : String → Log.Event := event "expression_cache_miss"

def evictEvent : String → Log.Event := event "expression_cache_evict"

structure Lookup where
  result : Except Incident Expr
  cache : Cache
  events : List Log.Event

def get (c : Cache) (source : String) : Lookup :=
  if c.enabled then
    match c.find? source with
    | some e =>
      ⟨.ok e, { c with entries := promote source e c.entries, hits := c.hits + 1 },
        [hitEvent source]⟩
    | none =>
      let c := { c with misses := c.misses + 1 }
      match parseSource source with
      | .error incident => ⟨.error incident, c, []⟩
      | .ok e =>
        let c := { c with entries := promote source e c.entries }
        ⟨.ok e, c.evict, missEvent source :: c.evicted.map evictEvent⟩
  else ⟨parseSource source, c, []⟩

end Cache

end TemplateExpr
