import Mathlib.Data.List.Dedup
import Mathlib.Data.List.Induction
import TemplateExpr.Cache.Shared
import TemplateExpr.Proofs.Caching.Session
import TemplateExpr.Proofs.Settings.Loading
import TemplateExpr.Standard.Library

namespace TemplateExpr.SharedCache

open Cache (Request)

/-- A cache that was handed out may be used at any time, also once it is no longer shared. -/
inductive Act where
  | call
  | reset
  | move (s : Surroundings)
  | use (number : Nat) (r : Request)

structure Session where
  surroundings : Surroundings
  shared : SharedCache
  forgotten : List (Nat × Cache)
  handedOut : List Nat
  log : List Log.Event

namespace Session

def start (s : Surroundings) : Session := ⟨s, .empty, [], [], []⟩

variable (load : Surroundings → Settings.Loaded)

def call (σ : Session) : Access := σ.shared.access load σ.surroundings

def requestEvents (c : Cache) (r : Request) : List Log.Event :=
  (r.lookedUp?.map fun source => (c.get source).events).getD []

def useForgotten (σ : Session) (number : Nat) (r : Request) : Session :=
  { σ with
    forgotten :=
      σ.forgotten.map fun held => if held.1 = number then (number, held.2.after r) else held
    log := σ.log ++ ((σ.forgotten.lookup number).map (requestEvents · r)).getD [] }

def use (σ : Session) (number : Nat) (r : Request) : Session :=
  match σ.shared.current with
  | some (n, c) =>
    if n = number then
      { σ with shared := σ.shared.update (c.after r), log := σ.log ++ requestEvents c r }
    else σ.useForgotten number r
  | none => σ.useForgotten number r

def after (σ : Session) : Act → Session
  | .call =>
    { σ with
      shared := (σ.call load).shared
      handedOut := σ.handedOut ++ ((σ.call load).result.toOption.map (·.1)).toList
      log := σ.log ++ (σ.call load).events }
  | .reset =>
    { σ with shared := σ.shared.reset, forgotten := σ.shared.current.toList ++ σ.forgotten }
  | .move s => { σ with surroundings := s }
  | .use number r => σ.use number r

def run (σ : Session) (acts : List Act) : Session := acts.foldl (after load) σ

def creations (log : List Log.Event) : Nat := log.countP (·.name = "expression_cache_created")

/-- Since the last reset nobody who asked got a cache. -/
def Unshared (σ : Session) (acts : List Act) : Prop :=
  ∀ before behind, acts = before ++ .call :: behind → .reset ∉ behind →
    ∃ e, ((σ.run load before).call load).result = .error e

def requestsTo (number : Nat) (acts : List Act) : List Request :=
  acts.filterMap fun
    | .use n r => if n = number then some r else none
    | _ => none

/-- A call makes a cache of its own from settings: an empty one that was not handed out before. -/
def Makes (σ : Session) (settings : Settings) : Prop :=
  ∃ n c, Cache.new settings.cacheSize settings.cacheExpressions = .ok c ∧
    c.capacity = settings.cacheSize ∧ c.enabled = settings.cacheExpressions ∧
    c.entries = [] ∧ c.hits = 0 ∧ c.misses = 0 ∧
    (σ.call load).result = .ok (n, c) ∧
    (σ.call load).events = (load σ.surroundings).events ++ [createdEvent settings] ∧
    n ∉ σ.handedOut

/-- Caches are numbered as they are made, and each of them is handed out when it is made. -/
structure Numbered (σ : Session) : Prop where
  current_lt : ∀ {n c}, σ.shared.current = some (n, c) → n < σ.shared.made
  mem_handedOut : ∀ {n}, n ∈ σ.handedOut ↔ n < σ.shared.made
  creations_eq : creations σ.log = σ.shared.made

variable {load : Surroundings → Settings.Loaded} {σ : Session} {acts : List Act} {a : Act} {n : Nat} {c : Cache}

theorem run_concat (load : Surroundings → Settings.Loaded) (σ : Session) (acts : List Act) (a : Act) :
    σ.run load (acts ++ [a]) = (σ.run load acts).after load a := by
  simp [run]

theorem run_append (load : Surroundings → Settings.Loaded) (σ : Session) (acts more : List Act) :
    σ.run load (acts ++ more) = (σ.run load acts).run load more := by
  simp [run]

theorem call_some (h : σ.shared.current = some (n, c)) : σ.call load = ⟨.ok (n, c), σ.shared, []⟩ := by
  simp [call, access, h]

theorem call_error {e : Settings.Error} (h : σ.shared.current = none)
    (he : (load σ.surroundings).result = .error e) :
    σ.call load = ⟨.error e, σ.shared, (load σ.surroundings).events⟩ := by
  simp [call, access, h, he]

theorem call_made {settings : Settings} (h : σ.shared.current = none)
    (hs : (load σ.surroundings).result = .ok settings) :
    σ.call load =
      let c := Cache.ofCapacity settings.cacheSize settings.cacheExpressions
      ⟨.ok (σ.shared.made, c), ⟨some (σ.shared.made, c), σ.shared.made + 1⟩,
        (load σ.surroundings).events ++ [createdEvent settings]⟩ := by
  simp [call, access, h, hs]

theorem concat_eq_call_iff {before behind : List Act} :
    acts ++ [a] = before ++ .call :: behind ↔
      (acts = before ∧ a = .call ∧ behind = []) ∨
        ∃ others, behind = others ++ [a] ∧ acts = before ++ .call :: others := by
  constructor
  · intro h
    rcases List.eq_nil_or_concat behind with rfl | ⟨others, last, rfl⟩
    · obtain ⟨rfl, hlast⟩ := List.append_inj' h rfl
      exact .inl ⟨rfl, List.head_eq_of_cons_eq hlast, rfl⟩
    · rw [List.concat_eq_append, ← List.cons_append, ← List.append_assoc] at h
      obtain ⟨rfl, hlast⟩ := List.append_inj' h rfl
      refine .inr ⟨others, ?_, rfl⟩
      rw [List.head_eq_of_cons_eq hlast, List.concat_eq_append]
  · rintro (⟨rfl, rfl, rfl⟩ | ⟨others, rfl, rfl⟩)
    · rfl
    · simp

theorem unshared_concat_iff :
    σ.Unshared load (acts ++ [a]) ↔
      a = .reset ∨ σ.Unshared load acts ∧ (a = .call → ∃ e, ((σ.run load acts).call load).result = .error e) := by
  constructor
  · intro h
    by_cases ha : a = .reset
    · exact .inl ha
    refine .inr ⟨?_, ?_⟩
    · rintro before behind rfl hb
      refine h before (behind ++ [a]) (by simp) ?_
      simpa [List.mem_append, hb] using Ne.symm ha
    · rintro rfl
      exact h acts [] rfl List.not_mem_nil
  · intro h before behind hacts hb
    rcases concat_eq_call_iff.1 hacts with ⟨rfl, rfl, -⟩ | ⟨others, rfl, rfl⟩
    · rcases h with h | ⟨-, h⟩
      · cases h
      · exact h rfl
    · rcases h with rfl | ⟨h, -⟩
      · simp at hb
      · exact h before others rfl fun hmem => hb (List.mem_append_left _ hmem)

@[simp] theorem useForgotten_shared (σ : Session) (number : Nat) (r : Request) :
    (σ.useForgotten number r).shared = σ.shared := rfl

theorem use_of_none (h : σ.shared.current = none) (number : Nat) (r : Request) :
    σ.use number r = σ.useForgotten number r := by
  simp [use, h]

theorem use_of_ne {number : Nat} (h : σ.shared.current = some (n, c)) (hn : n ≠ number)
    (r : Request) : σ.use number r = σ.useForgotten number r := by
  simp [use, h, hn]

theorem use_shared {number : Nat} {r : Request} (h : σ.shared.current = some (n, c))
    (hn : n = number) :
    σ.use number r =
      { σ with shared := σ.shared.update (c.after r), log := σ.log ++ requestEvents c r } := by
  simp [use, h, hn]

theorem current_eq_none_of_unshared (h₀ : σ.shared.current = none) (h : σ.Unshared load acts) :
    (σ.run load acts).shared.current = none := by
  -- from the last act backwards, since only what came after the last reset matters
  induction acts using List.reverseRecOn with
  | nil => exact h₀
  | append_singleton acts a ih =>
      rw [run_concat]
      rcases unshared_concat_iff.1 h with rfl | ⟨hacts, hcall⟩
      · rfl
      have hnone := ih hacts
      cases a with
      | reset => rfl
      | move s => exact hnone
      | use number r =>
          rw [after, use_of_none hnone]
          exact hnone
      | call =>
          obtain ⟨e, he⟩ := hcall rfl
          cases hload : (load (σ.run load acts).surroundings).result with
          | error e =>
              rw [after, call_error hnone hload]
              exact hnone
          | ok settings =>
              rw [call_made hnone hload] at he
              cases he

theorem run_current (h : σ.shared.current = some (n, c)) (hb : .reset ∉ acts) :
    (σ.run load acts).shared.current = some (n, c.run (requestsTo n acts)) := by
  induction acts using List.reverseRecOn with
  | nil => exact h
  | append_singleton acts a ih =>
      obtain ⟨hacts, ha⟩ : .reset ∉ acts ∧ .reset ≠ a := by simpa using hb
      have hcurrent := ih hacts
      rw [run_concat, requestsTo, List.filterMap_append, ← requestsTo]
      cases a with
      | reset => contradiction
      | move s => simpa [after] using hcurrent
      | call => simpa [after, call_some hcurrent] using hcurrent
      | use number r =>
          rw [after]
          by_cases hn : n = number
          · simp [use_shared hcurrent hn, update, hcurrent, hn, Cache.run_concat]
          · simpa [use_of_ne hcurrent hn, Ne.symm hn] using hcurrent

theorem creations_append (log more : List Log.Event) :
    creations (log ++ more) = creations log + creations more :=
  List.countP_append

theorem creations_get (c : Cache) (source : String) : creations (c.get source).events = 0 := by
  rw [creations, List.countP_eq_zero]
  intro event hevent
  unfold Cache.get at hevent
  repeat' split at hevent
  · simp_all [Cache.hitEvent, Cache.event]
  · cases hevent
  · rcases List.mem_cons.1 hevent with rfl | hevicted
    · simp [Cache.missEvent, Cache.event]
    · obtain ⟨source, -, rfl⟩ := List.mem_map.1 hevicted
      simp [Cache.evictEvent, Cache.event]
  · cases hevent

theorem creations_requestEvents (c : Cache) (r : Request) : creations (requestEvents c r) = 0 := by
  cases r with
  | get source | evaluate source context => exact creations_get c source
  | contains source | size | stats | clear => rfl

theorem creations_useForgotten (σ : Session) (number : Nat) (r : Request) :
    creations (σ.useForgotten number r).log = creations σ.log := by
  rw [useForgotten, creations_append]
  cases σ.forgotten.lookup number with
  | none => rfl
  | some c => exact congrArg _ (creations_requestEvents c r)

theorem numbered_start (s : Surroundings) : (start s).Numbered where
  current_lt h := by cases h
  mem_handedOut := by simp [start, SharedCache.empty]
  creations_eq := rfl

theorem after_call_some (h : σ.shared.current = some (n, c)) :
    σ.after load .call = { σ with handedOut := σ.handedOut ++ [n] } := by
  simp [after, call_some h, Except.toOption]

theorem after_call_error {e : Settings.Error} (h : σ.shared.current = none)
    (he : (load σ.surroundings).result = .error e) :
    σ.after load .call = { σ with log := σ.log ++ (load σ.surroundings).events } := by
  simp [after, call_error h he, Except.toOption]

theorem after_call_made {settings : Settings} (h : σ.shared.current = none)
    (hs : (load σ.surroundings).result = .ok settings) :
    σ.after load .call =
      let c := Cache.ofCapacity settings.cacheSize settings.cacheExpressions
      { σ with
        shared := ⟨some (σ.shared.made, c), σ.shared.made + 1⟩
        handedOut := σ.handedOut ++ [σ.shared.made]
        log :=
          σ.log ++ ((load σ.surroundings).events ++ [createdEvent settings]) } := by
  simp [after, call_made h hs, Except.toOption]

theorem Numbered.after_call (hlog : ∀ s, creations (load s).events = 0) (h : σ.Numbered) :
    (σ.after load .call).Numbered := by
  cases hcurrent : σ.shared.current with
  | some held =>
      have hn := h.current_lt hcurrent
      rw [after_call_some hcurrent]
      refine ⟨h.current_lt, ?_, h.creations_eq⟩
      intro m
      rw [List.mem_append, List.mem_singleton, h.mem_handedOut]
      constructor
      · rintro (hm | rfl) <;> assumption
      · exact .inl
  | none =>
      cases hload : (load σ.surroundings).result with
      | error e =>
          rw [after_call_error hcurrent hload]
          refine ⟨h.current_lt, h.mem_handedOut, ?_⟩
          rw [creations_append, hlog, h.creations_eq, Nat.add_zero]
      | ok settings =>
          rw [after_call_made hcurrent hload]
          refine ⟨?_, ?_, ?_⟩
          · intro n c hmade
            cases hmade
            exact Nat.lt_succ_self _
          · intro m
            rw [List.mem_append, List.mem_singleton, h.mem_handedOut]
            exact Nat.lt_succ_iff_lt_or_eq.symm
          · rw [creations_append, creations_append, hlog, h.creations_eq, Nat.zero_add]
            rfl

theorem Numbered.useForgotten (h : σ.Numbered) (number : Nat) (r : Request) :
    (σ.useForgotten number r).Numbered :=
  ⟨h.current_lt, h.mem_handedOut, (creations_useForgotten σ number r).trans h.creations_eq⟩

theorem Numbered.use (h : σ.Numbered) (number : Nat) (r : Request) : (σ.use number r).Numbered := by
  cases hcurrent : σ.shared.current with
  | none =>
      rw [use_of_none hcurrent]
      exact h.useForgotten number r
  | some held =>
      obtain ⟨n, c⟩ := held
      by_cases hn : n = number
      · rw [use_shared hcurrent hn]
        refine ⟨?_, h.mem_handedOut, ?_⟩
        · intro m used hused
          rw [update, hcurrent] at hused
          cases hused
          exact h.current_lt hcurrent
        · rw [creations_append, creations_requestEvents, h.creations_eq, Nat.add_zero]
          rfl
      · rw [use_of_ne hcurrent hn]
        exact h.useForgotten number r

theorem Numbered.after (hlog : ∀ s, creations (load s).events = 0) (h : σ.Numbered)
    (a : Act) : (σ.after load a).Numbered := by
  cases a with
  | call => exact h.after_call hlog
  | reset => exact ⟨nofun, h.mem_handedOut, h.creations_eq⟩
  | move s => exact ⟨h.current_lt, h.mem_handedOut, h.creations_eq⟩
  | use number r => exact h.use number r

theorem Numbered.run (hlog : ∀ s, creations (load s).events = 0) (h : σ.Numbered)
    (acts : List Act) : (σ.run load acts).Numbered := by
  induction acts generalizing σ with
  | nil => exact h
  | cons a acts ih => exact ih (h.after hlog a)

theorem Numbered.creations_eq_dedup (h : σ.Numbered) :
    creations σ.log = σ.handedOut.dedup.length := by
  have hperm : σ.handedOut.dedup.Perm (List.range σ.shared.made) := by
    rw [List.perm_ext_iff_of_nodup (List.nodup_dedup _) List.nodup_range]
    intro n
    rw [List.mem_dedup, List.mem_range, h.mem_handedOut]
  rw [h.creations_eq, hperm.length_eq, List.length_range]

theorem Numbered.makes {settings : Settings} (h : σ.Numbered) (hnone : σ.shared.current = none)
    (hs : (load σ.surroundings).result = .ok settings) (hpos : 0 < settings.cacheSize) :
    σ.Makes load settings := by
  have hcall := call_made hnone hs
  refine ⟨σ.shared.made, .ofCapacity settings.cacheSize settings.cacheExpressions,
    ?_, rfl, rfl, rfl, rfl, rfl, congrArg Access.result hcall, congrArg Access.events hcall, ?_⟩
  · rw [Cache.new, if_neg (by omega), Int.toNat_natCast]
  · rw [h.mem_handedOut]
    exact Nat.lt_irrefl _

theorem current_of_call (h : (σ.call load).result = .ok (n, c)) :
    (σ.after load .call).shared.current = some (n, c) := by
  cases hcurrent : σ.shared.current with
  | some held =>
      rw [call_some hcurrent] at h
      cases h
      rw [after_call_some hcurrent, hcurrent]
  | none =>
      cases hload : (load σ.surroundings).result with
      | error e =>
          rw [call_error hcurrent hload] at h
          cases h
      | ok settings =>
          rw [call_made hcurrent hload] at h
          cases h
          rw [after_call_made hcurrent hload]

theorem call_again {between : List Act} (h : (σ.call load).result = .ok (n, c))
    (hb : .reset ∉ between) :
    ((σ.after load .call).run load between).call load =
      ⟨.ok (n, c.run (requestsTo n between)), ((σ.after load .call).run load between).shared, []⟩ :=
  call_some (run_current (current_of_call h) hb)

/-- The first call after a reset makes a new cache from the settings of that moment, or none if they are
faulty; every other call until the next reset gets that one, however the settings change. -/
theorem run_lifecycle {load : Surroundings → Settings.Loaded}
    (hpos : ∀ s settings, (load s).result = .ok settings → 0 < settings.cacheSize)
    (hlog : ∀ s, creations (load s).events = 0) (s : Surroundings) (acts : List Act) :
    let σ := (start s).run load acts
    let loaded := load σ.surroundings
    (start s).Unshared load (acts ++ [.reset]) ∧
    ((start s).Unshared load acts →
      match loaded.result with
      | .error e =>
        (σ.call load).result = .error e ∧ (σ.call load).shared.current = none ∧
          (σ.call load).events = loaded.events ∧ (start s).Unshared load (acts ++ [.call])
      | .ok settings => σ.Makes load settings) ∧
    (∀ n c, (σ.call load).result = .ok (n, c) → ∀ between, .reset ∉ between →
      let used := c.run (requestsTo n between)
      let again := ((start s).run load (acts ++ .call :: between)).call load
      again.result = .ok (n, used) ∧ again.events = [] ∧
        used.capacity = c.capacity ∧ used.enabled = c.enabled) ∧
    creations σ.log = σ.handedOut.dedup.length := by
  intro σ loaded
  have hnumbered : σ.Numbered := (numbered_start s).run hlog acts
  refine ⟨unshared_concat_iff.2 (.inl rfl), fun h => ?unshared, ?shared,
    hnumbered.creations_eq_dedup⟩
  case unshared =>
    have hnone : σ.shared.current = none := current_eq_none_of_unshared rfl h
    split
    · rename_i e he
      have hcall := call_error hnone he
      exact ⟨congrArg Access.result hcall, hcall ▸ hnone, congrArg Access.events hcall,
        unshared_concat_iff.2 (.inr ⟨h, fun _ => ⟨e, congrArg Access.result hcall⟩⟩)⟩
    · rename_i settings hs
      exact hnumbered.makes hnone hs (hpos _ _ hs)
  case shared =>
    intro n c h between hb used again
    have hagain : again = ⟨.ok (n, used), ((σ.after load .call).run load between).shared, []⟩ := by
      rw [← call_again h hb]
      exact congrArg (call load) (run_append load (start s) acts (.call :: between))
    exact ⟨congrArg Access.result hagain, congrArg Access.events hagain,
      Cache.run_capacity c _, Cache.run_enabled c _⟩

theorem creations_load (lib : Library) (s : Surroundings) (path : Option String) :
    creations (Settings.load lib s path).events = 0 := by
  rw [creations, List.countP_eq_zero]
  intro event hevent
  rcases Settings.name_of_mem_load hevent with h | h <;> simp [h]

theorem run_lifecycle_reset :
    let load (s : Surroundings) := Settings.load .standard s none
    let σ := start ⟨"/work", "/home", [], []⟩
    let faulty : Surroundings := ⟨"/work", "/home", [], [("QUILL_CACHE_SIZE", "none")]⟩
    σ.Unshared load [.call, .reset] ∧ (σ.run load [.call, .reset]).Makes load Settings.default ∧
      ((σ.run load
          [.call, .reset, .call, .move faulty, .use 0 (.get "1"), .use 1 (.get "2")]).call load).result =
        .ok (1, (Cache.ofCapacity 256 true).run [.get "2"]) := by
  intro load σ faulty
  have hpos : ∀ s settings, (load s).result = .ok settings → 0 < settings.cacheSize :=
    fun s settings => Settings.cacheSize_pos_of_load Library.standard_conforms
  have hlog : ∀ s, creations (load s).events = 0 := fun s => creations_load .standard s none
  have hlifecycle := run_lifecycle hpos hlog ⟨"/work", "/home", [], []⟩
  have hunshared : σ.Unshared load [.call, .reset] := (hlifecycle [.call]).1
  have hmade : ((σ.run load [.call, .reset]).call load).result = .ok (1, .ofCapacity 256 true) := rfl
  obtain ⟨-, makes, again, -⟩ := hlifecycle [.call, .reset]
  exact ⟨hunshared, makes hunshared,
    (again 1 _ hmade [.move faulty, .use 0 (.get "1"), .use 1 (.get "2")] (by simp)).1⟩

end Session

end TemplateExpr.SharedCache
