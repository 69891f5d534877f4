import TemplateExpr.Proofs.Caching.Recency

namespace TemplateExpr.Cache

def lookups (c : Cache) : List Request → List Lookup
  | [] => []
  | r :: requests => (r.lookedUp?.map c.get).toList ++ (c.after r).lookups requests

def lookupsSinceClear (c : Cache) (requests : List Request) : List Lookup :=
  (c.run (requests.rdropWhile (!·.isClear))).lookups (sinceClear requests)

def failures (past : List Lookup) : Nat := past.countP (!·.result.isOk)

def evictions (past : List Lookup) : Nat :=
  (past.flatMap (·.events)).countP (·.name = "expression_cache_evict")

/-- What a look-up does to the counters, to the number of entries and to the log. -/
inductive Accounted (c : Cache) (source : String) : Lookup → Prop
  | hit {e : Expr} {after : Cache} (hstored : c.contains source = true)
      (hits : after.hits = c.hits + 1) (misses : after.misses = c.misses)
      (size : after.size = c.size) : Accounted c source ⟨.ok e, after, [hitEvent source]⟩
  | failure {incident : Incident} {after : Cache} (habsent : c.contains source = false)
      (hp : parseSource source = .error incident) (hits : after.hits = c.hits)
      (misses : after.misses = c.misses + 1) (size : after.size = c.size) :
      Accounted c source ⟨.error incident, after, []⟩
  | room {e : Expr} {after : Cache} (habsent : c.contains source = false)
      (hp : parseSource source = .ok e) (hroom : c.size < c.capacity) (hits : after.hits = c.hits)
      (misses : after.misses = c.misses + 1) (size : after.size = c.size + 1) :
      Accounted c source ⟨.ok e, after, [missEvent source]⟩
  | full {e : Expr} {after : Cache} {oldest : String} (habsent : c.contains source = false)
      (hp : parseSource source = .ok e) (hfull : c.size = c.capacity)
      (holdest : c.keys.head? = some oldest) (hits : after.hits = c.hits)
      (misses : after.misses = c.misses + 1) (size : after.size = c.size) :
      Accounted c source ⟨.ok e, after, [missEvent source, evictEvent oldest]⟩

/-- The counters and the number of entries agree with what has been looked up. -/
structure Balanced (c : Cache) (past : List Lookup) : Prop where
  counted : c.hits + c.misses = past.length
  kept : c.size + failures past + evictions past = c.misses

section

variable {c : Cache} {source : String} {sources : List String} {e : Expr} {l : Lookup}
  {past : List Lookup} {requests : List Request} {r : Request}

theorem length_keys (c : Cache) : c.keys.length = c.size := List.length_map _

theorem contains_iff : c.contains source = true ↔ source ∈ c.keys := by
  rw [contains, Option.isSome_iff_ne_none, Ne, find?_eq_none_iff, not_not]

theorem length_promote (hc : c.keys.Nodup) (h : source ∈ c.keys) :
    (promote source e c.entries).length = c.size := by
  have hfilter : c.keys.filter (· ≠ source) = c.keys.erase source := by
    rw [hc.erase_eq_filter]
    exact List.filter_congr fun x _ => by rw [Bool.eq_iff_iff]; simp
  have hkeys : (promote source e c.entries).map (·.1) = c.keys.erase source ++ [source] :=
    (keys_promote source e c.entries).trans (congrArg (· ++ [source]) hfilter)
  have hlength := congrArg List.length hkeys
  rw [List.length_map, List.length_append, List.length_erase_of_mem h, List.length_singleton,
    length_keys] at hlength
  have hpos := length_keys c ▸ List.length_pos_of_mem h
  omega

def stored (c : Cache) (source : String) (e : Expr) : Cache :=
  { c with misses := c.misses + 1, entries := promote source e c.entries }

theorem keys_stored (e : Expr) (h : source ∉ c.keys) :
    (c.stored source e).keys = c.keys ++ [source] := by
  refine (keys_promote source e c.entries).trans (congrArg (· ++ [source]) ?_)
  refine List.filter_eq_self.2 fun x hx => ?_
  simpa using ne_of_mem_of_not_mem hx h

theorem evicted_eq (c : Cache) : c.evicted = c.keys.take c.surplus := List.map_take

theorem size_evict (c : Cache) : c.evict.size = c.size - c.surplus := List.length_drop

theorem hits_get (h : c.enabled = true) (source : String) :
    (c.get source).cache.hits = c.hits + if c.contains source then 1 else 0 := by
  cases hf : c.find? source with
  | some e => simp [get_hit h hf, contains, hf]
  | none =>
      cases hp : parseSource source with
      | error incident => simp [get_failure h hf hp, contains, hf]
      | ok e => simp [get_miss h hf hp, contains, hf, evict]

/-- A new entry takes free room, and without any it is one too many, so that the oldest one goes. -/
theorem Accounted.of_stored (habsent : c.contains source = false) (hp : parseSource source = .ok e)
    (hpos : 0 < c.capacity) (hle : c.size ≤ c.capacity) :
    Accounted c source ⟨.ok e, (c.stored source e).evict,
      missEvent source :: (c.stored source e).evicted.map evictEvent⟩ := by
  have hnew : source ∉ c.keys := by simp [← contains_iff, habsent]
  have hkeys := keys_stored e hnew
  have hsize : (c.stored source e).size = c.size + 1 := by
    rw [← length_keys, hkeys, List.length_append, length_keys, List.length_singleton]
  have hsurplus : (c.stored source e).surplus = c.size + 1 - c.capacity := hsize ▸ rfl
  have hevict := size_evict (c.stored source e)
  rw [evicted_eq, hkeys]
  by_cases hroom : c.size < c.capacity
  · have hzero : (c.stored source e).surplus = 0 := by omega
    rw [hzero]
    exact .room habsent hp hroom rfl rfl (by omega)
  · have hone : (c.stored source e).surplus = 1 := by omega
    have hsome : 0 < c.keys.length := by
      rw [length_keys]
      omega
    obtain ⟨oldest, keys, hcons⟩ := List.exists_cons_of_length_pos hsome
    rw [hone, hcons]
    exact .full habsent hp (by omega) (by rw [hcons]; rfl) rfl rfl (by omega)

theorem Holds.get_accounted (h : Holds c sources) (hpos : 0 < c.capacity) (source : String) :
    Accounted c source (c.get source) := by
  cases hf : c.find? source with
  | some e =>
      have hstored : c.contains source = true := by simp [contains, hf]
      rw [get_hit h.enabled hf]
      exact .hit hstored rfl rfl (length_promote h.nodup (contains_iff.1 hstored))
  | none =>
      have habsent : c.contains source = false := by simp [contains, hf]
      cases hp : parseSource source with
      | error incident =>
          rw [get_failure h.enabled hf hp]
          exact .failure habsent hp rfl rfl rfl
      | ok e =>
          rw [get_miss h.enabled hf hp]
          exact .of_stored habsent hp hpos (length_keys c ▸ h.length_keys_le)

theorem failures_concat : failures (past ++ [l]) = failures past + failures [l] :=
  List.countP_append

theorem evictions_concat : evictions (past ++ [l]) = evictions past + evictions [l] := by
  simp [evictions]

namespace Accounted

theorem counted (h : Accounted c source l) :
    l.cache.hits + l.cache.misses = c.hits + c.misses + 1 := by
  cases h <;> simp only [] <;> omega

theorem kept (h : Accounted c source l) :
    l.cache.size + failures [l] + evictions [l] + c.misses = c.size + l.cache.misses := by
  cases h with
  | hit _ _ misses size =>
      simp [failures, evictions, hitEvent, event, Except.isOk, Except.toBool, misses, size]
  | failure _ _ _ misses size =>
      simp [failures, evictions, Except.isOk, Except.toBool, misses, size]
      omega
  | room _ _ _ _ misses size =>
      simp [failures, evictions, missEvent, event, Except.isOk, Except.toBool, misses, size]
      omega
  | full _ _ _ _ _ misses size =>
      simp [failures, evictions, missEvent, evictEvent, event, Except.isOk, Except.toBool, misses, size]
      omega

theorem balanced (h : Accounted c source l) (hc : Balanced c past) :
    Balanced l.cache (past ++ [l]) := by
  have hcounted := h.counted
  have hkept := h.kept
  constructor
  · rw [List.length_append, List.length_singleton, ← hc.counted, hcounted]
  · rw [failures_concat, evictions_concat]
    have := hc.kept
    omega

end Accounted

theorem lookups_concat (c : Cache) (requests : List Request) (r : Request) :
    c.lookups (requests ++ [r]) =
      c.lookups requests ++ (r.lookedUp?.map (c.run requests).get).toList := by
  induction requests generalizing c with
  | nil => simp [lookups]
  | cons q requests ih => simp [lookups, ih, run]

theorem length_lookups (c : Cache) (requests : List Request) :
    (c.lookups requests).length = (requests.filterMap Request.lookedUp?).length := by
  induction requests generalizing c with
  | nil => rfl
  | cons r requests ih => cases hr : r.lookedUp? <;> simp [lookups, hr, ih]

theorem lookupsSinceClear_clear (c : Cache) (requests : List Request) :
    c.lookupsSinceClear (requests ++ [.clear]) = [] := by
  simp [lookupsSinceClear, sinceClear, Request.isClear, lookups]

theorem lookupsSinceClear_concat (c : Cache) (requests : List Request) (h : r.isClear = false) :
    c.lookupsSinceClear (requests ++ [r]) =
      c.lookupsSinceClear requests ++ (r.lookedUp?.map (c.run requests).get).toList := by
  have hrun : (c.run (requests.rdropWhile (!·.isClear))).run (sinceClear requests) =
      c.run requests := by
    rw [run, run, ← List.foldl_append, sinceClear, List.rdropWhile_append_rtakeWhile, run]
  rw [lookupsSinceClear, sinceClear, List.rdropWhile_concat_pos _ _ _ (by simp [h]),
    List.rtakeWhile_concat_pos _ _ _ (by simp [h]), lookups_concat, ← sinceClear, hrun,
    lookupsSinceClear]

theorem run_balanced {capacity : Nat} (hpos : 0 < capacity) (requests : List Request) :
    Balanced ((ofCapacity capacity true).run requests)
      ((ofCapacity capacity true).lookupsSinceClear requests) := by
  induction requests using List.reverseRecOn with
  | nil => exact ⟨rfl, rfl⟩
  | append_singleton requests r ih =>
      have hcapacity := run_capacity (ofCapacity capacity true) requests
      have haccounted (source : String) :=
        (run_holds capacity requests).get_accounted (hcapacity ▸ hpos) source
      rw [run_concat]
      cases r with
      | get source | evaluate source context =>
          rw [lookupsSinceClear_concat _ _ rfl]
          exact (haccounted source).balanced ih
      | contains source | size | stats =>
          rw [lookupsSinceClear_concat _ _ rfl]
          simpa [Request.lookedUp?, after] using ih
      | clear =>
          rw [lookupsSinceClear_clear]
          exact ⟨rfl, rfl⟩

theorem after_disabled (capacity : Nat) (r : Request) :
    (ofCapacity capacity false).after r = ofCapacity capacity false := by
  cases r <;> rfl

theorem run_disabled (capacity : Nat) (requests : List Request) :
    (ofCapacity capacity false).run requests = ofCapacity capacity false := by
  induction requests with
  | nil => rfl
  | cons r requests ih => exact (congrArg (run · requests) (after_disabled capacity r)).trans ih

theorem lookups_disabled (capacity : Nat) (requests : List Request) :
    ∀ l ∈ (ofCapacity capacity false).lookups requests, l.events = [] := by
  induction requests with
  | nil => simp [lookups]
  | cons r requests ih =>
      rw [lookups, after_disabled]
      intro l hl
      rcases List.mem_append.1 hl with hl | hl
      · obtain ⟨source, -, rfl⟩ := Option.map_eq_some_iff.1 (Option.mem_toList.1 hl)
        rfl
      · exact ih l hl

end

/-- In a cache that is in use each look-up is counted and logged as what it is. What remains of the
misses without those that failed and those that made an entry go is the number of entries. A cache that
is switched off never changes, and logs nothing. -/
theorem run_accounts {capacity : Nat} (hpos : 0 < capacity) (requests : List Request) :
    (let c := (ofCapacity capacity true).run requests
     let past := (ofCapacity capacity true).lookupsSinceClear requests
     c.hits + c.misses = ((sinceClear requests).filterMap Request.lookedUp?).length ∧
       past.length = ((sinceClear requests).filterMap Request.lookedUp?).length ∧
       c.size + failures past + evictions past = c.misses ∧
       c.keys = recent capacity (served requests) ∧
       ∀ source, Accounted c source (c.get source) ∧
         ((c.get source).cache.hits = c.hits + 1 ↔ c.contains source = true)) ∧
    (ofCapacity capacity false).run requests = ofCapacity capacity false ∧
    ∀ l ∈ (ofCapacity capacity false).lookups requests, l.events = [] := by
  have hbalanced := run_balanced hpos requests
  have hholds := run_holds capacity requests
  have hcapacity : ((ofCapacity capacity true).run requests).capacity = capacity :=
    run_capacity _ requests
  have hlength := length_lookups ((ofCapacity capacity true).run
    (requests.rdropWhile (!·.isClear))) (sinceClear requests)
  refine ⟨⟨hbalanced.counted.trans hlength, hlength, hbalanced.kept, ?_, fun source => ⟨?_, ?_⟩⟩,
    run_disabled capacity requests, lookups_disabled capacity requests⟩
  · rw [hholds.keys, hcapacity]
  · exact hholds.get_accounted (by rwa [hcapacity]) source
  · rw [hits_get hholds.enabled]
    split <;> simp [*]

theorem run_accounts_one :
    let requests : List Request := [.get "x", .get "y", .get "x y"]
    let c := (ofCapacity 1 true).run requests
    let past := (ofCapacity 1 true).lookupsSinceClear requests
    c.hits + c.misses = 3 ∧ c.size + failures past + evictions past = c.misses ∧ c.keys = ["y"] ∧
      failures past = 1 ∧ evictions past = 1 ∧ Accounted c "x" (c.get "x") ∧
        (c.get "x").events.map (·.name) = ["expression_cache_miss", "expression_cache_evict"] := by
  obtain ⟨⟨hcounted, -, hkept, -, haccounted⟩, -⟩ :=
    run_accounts Nat.one_pos [.get "x", .get "y", .get "x y"]
  refine ⟨hcounted, hkept, ?_, ?_, ?_, (haccounted "x").1, ?_⟩
  all_goals decide +kernel

end TemplateExpr.Cache
