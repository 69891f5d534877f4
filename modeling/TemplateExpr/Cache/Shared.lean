import TemplateExpr.Settings.Load

namespace TemplateExpr

/-- Each cache that is made gets a number of its own. -/
structure SharedCache where
  current : Option (Nat × Cache)
  made : Nat

namespace SharedCache

def empty : SharedCache := ⟨none, 0⟩

def createdEvent (settings : Settings) : Log.Event :=
  ⟨.info, "expression_cache_created",
    [("enabled", .boolean settings.cacheExpressions), ("max_size", .integer settings.cacheSize)]⟩

structure Access where
  result : Except Settings.Error (Nat × Cache)
  shared : SharedCache
  events : List Log.Event

def access (shared : SharedCache) (load : Surroundings → Settings.Loaded) (s : Surroundings) :
    Access :=
  match shared.current with
  | some c => ⟨.ok c, shared, []⟩
  | none =>
    let loaded := load s
    match loaded.result with
    | .error e => ⟨.error e, shared, loaded.events⟩
    | .ok settings =>
      let c := (shared.made, Cache.ofCapacity settings.cacheSize settings.cacheExpressions)
      ⟨.ok c, ⟨some c, shared.made + 1⟩, loaded.events ++ [createdEvent settings]⟩

def update (shared : SharedCache) (c : Cache) : SharedCache :=
  { shared with current := shared.current.map fun numbered => (numbered.1, c) }

def reset (shared : SharedCache) : SharedCache := { shared with current := none }

end SharedCache

end TemplateExpr
