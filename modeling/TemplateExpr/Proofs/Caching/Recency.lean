import Mathlib.Data.List.Dedup
import Mathlib.Data.List.DropRight
import TemplateExpr.Proofs.Caching.Session

namespace TemplateExpr.Cache

/-- The last `count` distinct sources, each in the place where it comes last. -/
def recent (count : Nat) (sources : List String) : List String := sources.dedup.rtake count

theorem dedup_concat (sources : List String) (source : String) :
    (sources ++ [source]).dedup = sources.dedup.filter (· ≠ source) ++ [source] := by
  induction sources with
  | nil => simp
  | cons s sources ih =>
      rw [List.cons_append]
      by_cases hs : s ∈ sources
      · rw [List.dedup_cons_of_mem (List.mem_append_left _ hs), List.dedup_cons_of_mem hs, ih]
      · by_cases heq : s = source
        · subst heq
          rw [List.dedup_cons_of_mem (by simp), List.dedup_cons_of_notMem hs, ih]
          simp
        · rw [List.dedup_cons_of_notMem (by simp [hs, heq]), List.dedup_cons_of_notMem hs, ih]
          simp [heq]

theorem rtake_of_length_le {count : Nat} {l : List String} (h : l.length ≤ count) :
    l.rtake count = l := by
  rw [List.rtake, Nat.sub_eq_zero_of_le h, List.drop_zero]

theorem length_rtake_le (count : Nat) (l : List String) : (l.rtake count).length ≤ count := by
  rw [List.rtake, List.length_drop]
  omega

theorem filter_rtake (count : Nat) {l : List String} (hl : l.Nodup) (s : String) :
    ((l.rtake (count + 1)).filter (· ≠ s)).rtake count = (l.filter (· ≠ s)).rtake count := by
  induction l using List.reverseRecOn generalizing count with
  | nil => simp
  | append_singleton l a ih =>
      have hne : a ∉ l := by simpa using List.disjoint_of_nodup_append hl
      have hl' : l.Nodup := hl.of_append_left
      rw [List.rtake_concat_succ, List.filter_append, List.filter_append]
      by_cases ha : a = s
      · subst ha
        have hall (m : List String) (hm : m ⊆ l) : m.filter (· ≠ a) = m := by
          rw [List.filter_eq_self]
          intro x hx
          simpa using ne_of_mem_of_not_mem (hm hx) hne
        have hsub : l.rtake count ⊆ l := (List.drop_suffix _ l).subset
        rw [hall _ hsub, hall l (List.Subset.refl l)]
        simp [rtake_of_length_le (length_rtake_le count l)]
      · cases count with
        | zero => simp
        | succ count => simpa [ha, List.rtake_concat_succ] using ih count hl'

theorem lost_rtake_prefix {count : Nat} {l : List String} {s : String} (hl : l.length ≤ count) :
    l.filter (· ∉ (l.filter (· ≠ s) ++ [s]).rtake count) <+: l.take 1 := by
  have hfilter := List.length_filter_le (· ≠ s) l
  by_cases hle : (l.filter (· ≠ s) ++ [s]).length ≤ count
  · rw [rtake_of_length_le hle, List.filter_eq_nil_iff.2]
    · exact List.nil_prefix
    · intro x hx
      by_cases hs : x = s <;> simp [hx, hs]
  · rw [List.length_append, List.length_singleton] at hle
    -- there is one too many only if `s` is new
    have hsame : l.filter (· ≠ s) = l :=
      List.filter_sublist.eq_of_length (by omega)
    have hdrop : (l ++ [s]).rtake count = (l ++ [s]).drop 1 := by
      rw [List.rtake, List.length_append, List.length_singleton]
      congr 1
      rw [hsame] at hle
      omega
    rw [hsame, hdrop]
    cases l with
    | nil => exact List.nil_prefix
    | cons x l =>
        have htail : l.filter (· ∉ l ++ [s]) = [] := by
          rw [List.filter_eq_nil_iff]
          intro y hy
          simp [hy]
        rw [List.cons_append, List.drop_one, List.tail_cons, List.filter_cons, htail]
        split <;> simp

/-- One more source comes last, and the least recent one goes if there are too many. -/
theorem recent_concat (count : Nat) (sources : List String) (source : String) :
    recent count (sources ++ [source]) =
      ((recent count sources).filter (· ≠ source) ++ [source]).rtake count := by
  unfold recent
  rw [dedup_concat]
  cases count with
  | zero => simp
  | succ count =>
      rw [List.rtake_concat_succ, List.rtake_concat_succ,
        filter_rtake count (List.nodup_dedup sources)]

theorem recent_nodup (count : Nat) (sources : List String) : (recent count sources).Nodup :=
  (List.drop_sublist _ _).nodup (List.nodup_dedup sources)

theorem recent_length_le (count : Nat) (sources : List String) :
    (recent count sources).length ≤ count :=
  length_rtake_le count _

def sinceClear (requests : List Request) : List Request := requests.rtakeWhile (!·.isClear)

def served (requests : List Request) : List String :=
  ((sinceClear requests).filterMap Request.lookedUp?).filter fun source => (parseSource source).isOk

theorem served_clear (requests : List Request) : served (requests ++ [.clear]) = [] := by
  simp [served, sinceClear, Request.isClear]

theorem served_concat (requests : List Request) {r : Request} (h : r.isClear = false) :
    served (requests ++ [r]) =
      served requests ++ r.lookedUp?.toList.filter fun source => (parseSource source).isOk := by
  rw [served, sinceClear, List.rtakeWhile_concat_pos _ _ _ (by simp [h]), List.filterMap_append,
    List.filter_append]
  cases hr : r.lookedUp? <;> simp [served, sinceClear, hr]

theorem keys_promote (source : String) (e : Expr) (entries : List (String × Expr)) :
    (promote source e entries).map (·.1) =
      (entries.map (·.1)).filter (· ≠ source) ++ [source] := by
  simp [promote, List.filter_map, Function.comp_def]

/-- What is true of a cache that has served these sources. -/
structure Holds (c : Cache) (sources : List String) : Prop where
  enabled : c.enabled = true
  faithful : c.Faithful
  keys : c.keys = recent c.capacity sources

variable {c : Cache} {source : String} {sources : List String}

theorem entries_get_of_error {incident : Incident} (hc : c.Faithful)
    (hp : parseSource source = .error incident) : (c.get source).cache.entries = c.entries := by
  cases henabled : c.enabled with
  | false => rw [get_disabled henabled]
  | true =>
      cases hf : c.find? source with
      | some found => cases hp.symm.trans (hc.parseSource_eq hf)
      | none => rw [get_failure henabled hf hp]

theorem keys_get_of_error {incident : Incident} (hc : c.Faithful)
    (hp : parseSource source = .error incident) : (c.get source).cache.keys = c.keys := by
  rw [keys, entries_get_of_error hc hp, keys]

namespace Holds

theorem length_keys_le (h : Holds c sources) : c.keys.length ≤ c.capacity :=
  h.keys ▸ recent_length_le c.capacity sources

theorem nodup (h : Holds c sources) : c.keys.Nodup := h.keys ▸ recent_nodup c.capacity sources

theorem keys_get {e : Expr} (h : Holds c sources) (hp : parseSource source = .ok e) :
    (c.get source).cache.keys =
      (c.keys.filter (· ≠ source) ++ [source]).rtake c.capacity := by
  cases hf : c.find? source with
  | some found =>
      have hmem : source ∈ c.keys := List.mem_map.2 ⟨_, mem_entries_of_find? hf, rfl⟩
      -- the source leaves its old place, so that there is room for it at the end
      have hlt : (c.keys.filter (· ≠ source)).length < c.keys.length := by
        rw [List.length_filter_lt_length_iff_exists]
        exact ⟨source, hmem, by simp⟩
      have hle : (c.keys.filter (· ≠ source) ++ [source]).length ≤ c.capacity := by
        have := h.length_keys_le
        rw [List.length_append, List.length_singleton]
        omega
      rw [get_hit h.enabled hf, rtake_of_length_le hle]
      exact keys_promote source found c.entries
  | none =>
      rw [get_miss h.enabled hf hp, Cache.keys, Cache.keys, ← keys_promote source e c.entries]
      simp [evict, surplus, List.rtake, List.map_drop]

theorem get (h : Holds c sources) (source : String) :
    Holds (c.get source).cache
      (sources ++ [source].filter fun source => (parseSource source).isOk) := by
  refine ⟨(get_enabled c source).trans h.enabled, h.faithful.get source, ?_⟩
  rw [get_capacity]
  cases hp : parseSource source with
  | error incident =>
      rw [keys_get_of_error h.faithful hp, h.keys]
      simp [hp, Except.isOk, Except.toBool]
  | ok e =>
      rw [h.keys_get hp, h.keys]
      simp [hp, Except.isOk, Except.toBool, recent_concat]

theorem clear (h : Holds c sources) : Holds c.clear [] :=
  ⟨h.enabled, by simp [Faithful, Cache.clear], by simp [Cache.keys, Cache.clear, recent]⟩

theorem lost_prefix (h : Holds c sources) (source : String) :
    c.keys.filter (· ∉ (c.get source).cache.keys) <+: c.keys.take 1 := by
  cases hp : parseSource source with
  | error incident =>
      rw [keys_get_of_error h.faithful hp, List.filter_eq_nil_iff.2 (by simp)]
      exact List.nil_prefix
  | ok e =>
      rw [h.keys_get hp]
      exact lost_rtake_prefix h.length_keys_le

end Holds

theorem ofCapacity_holds (capacity : Nat) : Holds (ofCapacity capacity true) [] :=
  ⟨rfl, ofCapacity_faithful capacity true, by simp [ofCapacity, keys, recent]⟩

theorem run_holds (capacity : Nat) (requests : List Request) :
    Holds ((ofCapacity capacity true).run requests) (served requests) := by
  induction requests using List.reverseRecOn with
  | nil => exact ofCapacity_holds capacity
  | append_singleton requests r ih =>
      rw [run_concat]
      cases r with
      | get source | evaluate source context =>
          rw [served_concat requests rfl]
          exact ih.get source
      | contains source | size | stats =>
          rw [served_concat requests rfl]
          simpa [Request.lookedUp?, after] using ih
      | clear =>
          rw [served_clear]
          exact ih.clear

theorem entries_after_of_lookedUp?_eq_none {r : Request} (h : r.lookedUp? = none)
    (hr : r.isClear = false) : (c.after r).entries = c.entries := by
  cases r with
  | get source | evaluate source context => cases h
  | contains source | size | stats => rfl
  | clear => cases hr

/-- A cache in use is a list of the sources that were used last. A look-up that fails and a question
leave it as it is, and a look-up makes at most one entry go, the first of the list. -/
theorem run_least_recently_used (capacity : Nat) (requests : List Request) :
    let c := (ofCapacity capacity true).run requests
    c.keys = recent capacity (served requests) ∧
      (∀ entry ∈ c.entries, parseSource entry.1 = .ok entry.2) ∧
      c.keys.Nodup ∧
      c.size ≤ capacity ∧
      (∀ source, c.contains source = true ↔ source ∈ recent capacity (served requests)) ∧
      (∀ source incident, parseSource source = .error incident →
        (c.get source).cache.entries = c.entries) ∧
      (∀ r : Request, r.lookedUp? = none → r.isClear = false →
        (c.after r).entries = c.entries) ∧
      (∀ source, c.keys.filter (· ∉ (c.get source).cache.keys) <+: c.keys.take 1) := by
  intro c
  have h : Holds c (served requests) := run_holds capacity requests
  have hcapacity : c.capacity = capacity := run_capacity _ requests
  have hkeys : c.keys = recent capacity (served requests) := hcapacity ▸ h.keys
  refine ⟨hkeys, h.faithful, h.nodup, ?_, ?_, ?_, ?_, h.lost_prefix⟩
  · have hlength : c.size = c.keys.length := (List.length_map _).symm
    rw [hlength, ← hcapacity]
    exact h.length_keys_le
  · intro source
    rw [contains, Option.isSome_iff_ne_none, Ne, find?_eq_none_iff, not_not, hkeys]
  · intro source incident hp
    exact entries_get_of_error h.faithful hp
  · intro r hr hclear
    exact entries_after_of_lookedUp?_eq_none hr hclear

end TemplateExpr.Cache
