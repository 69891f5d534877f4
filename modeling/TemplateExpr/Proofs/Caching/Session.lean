import TemplateExpr.Cache

namespace TemplateExpr.Cache

/-- What a cache can be asked. An evaluation looks its source up and uses the tree it gets. -/
inductive Request where
  | get (source : String)
  | evaluate (source : String) (context : Context)
  | contains (source : String)
  | size
  | stats
  | clear

def Request.lookedUp? : Request → Option String
  | .get source | .evaluate source _ => some source
  | .contains _ | .size | .stats | .clear => none

def Request.isClear : Request → Bool
  | .clear => true
  | _ => false

def after (c : Cache) : Request → Cache
  | .get source | .evaluate source _ => (c.get source).cache
  | .contains _ | .size | .stats => c
  | .clear => c.clear

def run (c : Cache) (requests : List Request) : Cache := requests.foldl after c

def evaluate (c : Cache) (source : String) (context : Context) : Except Incident Value :=
  match (c.get source).result with
  | .error incident => .error incident
  | .ok e => (TemplateExpr.evaluate context e).mapError .ofFault

def keys (c : Cache) : List String := c.entries.map (·.1)

/-- Each entry holds the tree of its own source. -/
def Faithful (c : Cache) : Prop := ∀ entry ∈ c.entries, parseSource entry.1 = .ok entry.2

@[simp] theorem run_nil (c : Cache) : c.run [] = c := rfl

theorem run_concat (c : Cache) (requests : List Request) (r : Request) :
    c.run (requests ++ [r]) = (c.run requests).after r := by
  simp [run]

variable {c : Cache} {source : String} {e : Expr}

theorem find?_eq_none_iff : c.find? source = none ↔ source ∉ c.keys := by
  rw [find?, List.lookup_eq_none_iff, keys, List.mem_map]
  constructor
  · rintro h ⟨entry, he, rfl⟩
    simpa using h entry he
  · intro h entry he
    rw [bne_iff_ne]
    rintro rfl
    exact h ⟨entry, he, rfl⟩

theorem mem_entries_of_find? (h : c.find? source = some e) : (source, e) ∈ c.entries := by
  obtain ⟨before, behind, hentries, -⟩ := List.lookup_eq_some_iff.1 h
  simp [hentries]

theorem get_disabled (h : c.enabled = false) : c.get source = ⟨parseSource source, c, []⟩ := by
  simp [get, h]

theorem get_hit (h : c.enabled = true) (hf : c.find? source = some e) :
    c.get source =
      ⟨.ok e, { c with entries := promote source e c.entries, hits := c.hits + 1 },
        [hitEvent source]⟩ := by
  simp [get, h, hf]

theorem get_failure {incident : Incident} (h : c.enabled = true) (hf : c.find? source = none)
    (hp : parseSource source = .error incident) :
    c.get source = ⟨.error incident, { c with misses := c.misses + 1 }, []⟩ := by
  simp [get, h, hf, hp]

theorem get_miss (h : c.enabled = true) (hf : c.find? source = none)
    (hp : parseSource source = .ok e) :
    c.get source =
      let stored : Cache :=
        { c with misses := c.misses + 1, entries := promote source e c.entries }
      ⟨.ok e, stored.evict, missEvent source :: stored.evicted.map evictEvent⟩ := by
  simp [get, h, hf, hp]

theorem get_capacity (c : Cache) (source : String) : (c.get source).cache.capacity = c.capacity := by
  unfold get
  repeat' split <;> try rfl

theorem get_enabled (c : Cache) (source : String) : (c.get source).cache.enabled = c.enabled := by
  unfold get
  repeat' split <;> try rfl

/-- What a look-up and a clearing leave as it is stays so in a whole run. -/
theorem run_keeps {α : Type} (part : Cache → α)
    (hget : ∀ c source, part (get c source).cache = part c) (hclear : ∀ c, part (clear c) = part c)
    (c : Cache) (requests : List Request) : part (c.run requests) = part c := by
  induction requests generalizing c with
  | nil => rfl
  | cons r requests ih =>
      apply (ih (c.after r)).trans
      cases r with
      | get source | evaluate source context => exact hget c source
      | contains source | size | stats => rfl
      | clear => exact hclear c

theorem run_capacity (c : Cache) (requests : List Request) :
    (c.run requests).capacity = c.capacity :=
  run_keeps capacity get_capacity (fun _ => rfl) c requests

theorem run_enabled (c : Cache) (requests : List Request) :
    (c.run requests).enabled = c.enabled :=
  run_keeps enabled get_enabled (fun _ => rfl) c requests

theorem mem_promote {entries : List (String × Expr)} {entry : String × Expr}
    (h : entry ∈ promote source e entries) : entry ∈ entries ∨ entry = (source, e) := by
  rcases List.mem_append.1 h with h | h
  · exact .inl (List.mem_filter.1 h).1
  · exact .inr (by simpa using h)

theorem Faithful.parseSource_eq (hc : c.Faithful) (hf : c.find? source = some e) :
    parseSource source = .ok e :=
  hc (source, e) (mem_entries_of_find? hf)

theorem Faithful.get_result (hc : c.Faithful) (source : String) :
    (c.get source).result = parseSource source := by
  cases henabled : c.enabled with
  | false => rw [get_disabled henabled]
  | true =>
      cases hf : c.find? source with
      | some e => rw [get_hit henabled hf, hc.parseSource_eq hf]
      | none =>
          cases hp : parseSource source with
          | error incident => rw [get_failure henabled hf hp]
          | ok e => rw [get_miss henabled hf hp]

theorem Faithful.promote (hc : c.Faithful) (hp : parseSource source = .ok e) :
    ∀ entry ∈ promote source e c.entries, parseSource entry.1 = .ok entry.2 := by
  intro entry hentry
  rcases mem_promote hentry with hentry | rfl
  · exact hc entry hentry
  · exact hp

theorem Faithful.get (hc : c.Faithful) (source : String) : (c.get source).cache.Faithful := by
  cases henabled : c.enabled with
  | false =>
      rw [get_disabled henabled]
      exact hc
  | true =>
      cases hf : c.find? source with
      | some e =>
          rw [get_hit henabled hf]
          exact hc.promote (hc.parseSource_eq hf)
      | none =>
          cases hp : parseSource source with
          | error incident =>
              rw [get_failure henabled hf hp]
              exact hc
          | ok e =>
              rw [get_miss henabled hf hp]
              intro entry hentry
              exact hc.promote hp entry (List.mem_of_mem_drop hentry)

theorem Faithful.after (hc : c.Faithful) (r : Request) : (c.after r).Faithful := by
  cases r with
  | get source | evaluate source context => exact hc.get source
  | contains source | size | stats => exact hc
  | clear => simp [Cache.after, clear, Faithful]

theorem Faithful.run (hc : c.Faithful) (requests : List Request) : (c.run requests).Faithful := by
  induction requests generalizing c with
  | nil => exact hc
  | cons r requests ih => exact ih (hc.after r)

theorem ofCapacity_faithful (capacity : Nat) (enabled : Bool) :
    (ofCapacity capacity enabled).Faithful := by
  simp [Faithful, ofCapacity]

end TemplateExpr.Cache
