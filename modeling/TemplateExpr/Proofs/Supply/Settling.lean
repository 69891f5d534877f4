import Mathlib.Data.List.Induction
import Mathlib.Data.List.Nodup
import TemplateExpr.Entries

namespace TemplateExpr.Entries

variable {α : Type} {name : String} {a : α} {entries : List (String × α)}

def names (entries : List (String × α)) : List String := entries.map (·.1)

def last? (name : String) (entries : List (String × α)) : Option α := entries.reverse.lookup name

@[simp]
theorem names_append (entries others : List (String × α)) :
    names (entries ++ others) = names entries ++ names others :=
  List.map_append

theorem eraseDups_concat (xs : List String) (x : String) :
    (xs ++ [x]).eraseDups = if x ∈ xs then xs.eraseDups else xs.eraseDups ++ [x] := by
  rw [List.eraseDups_append]
  by_cases h : x ∈ xs <;> simp [List.removeAll, List.eraseDups_cons, h]

theorem nodup_eraseDups (xs : List String) : xs.eraseDups.Nodup := by
  induction xs using List.reverseRecOn with
  | nil => exact List.nodup_nil
  | append_singleton xs x ih =>
      rw [eraseDups_concat]
      split
      · exact ih
      · rename_i hx
        refine List.nodup_append.2 ⟨ih, List.nodup_singleton x, ?_⟩
        rintro y hy z hz rfl
        exact hx (List.mem_singleton.1 hz ▸ List.mem_eraseDups.1 hy)

theorem eraseDups_of_nodup {xs : List String} (h : xs.Nodup) : xs.eraseDups = xs := by
  induction xs using List.reverseRecOn with
  | nil => rfl
  | append_singleton xs x ih =>
      obtain ⟨hxs, -, hx⟩ := List.nodup_append.1 h
      rw [eraseDups_concat, if_neg fun hmem => hx x hmem x (List.mem_singleton_self x) rfl, ih hxs]

theorem eraseDups_append_eraseDups (xs ys : List String) :
    (xs.eraseDups ++ ys).eraseDups = (xs ++ ys).eraseDups := by
  induction ys using List.reverseRecOn with
  | nil => rw [List.append_nil, List.append_nil, eraseDups_of_nodup (nodup_eraseDups xs)]
  | append_singleton ys y ih =>
      rw [← List.append_assoc, ← List.append_assoc, eraseDups_concat, eraseDups_concat, ih]
      simp only [List.mem_append, List.mem_eraseDups]

theorem last?_concat (name : String) (entries : List (String × α)) (e : String × α) :
    last? name (entries ++ [e]) = if name = e.1 then some e.2 else last? name entries := by
  rw [last?, List.reverse_append, List.reverse_singleton, List.singleton_append, List.lookup_cons]
  by_cases h : name = e.1
  · simp [h]
  · simp [h, beq_false_of_ne h, last?]

theorem last?_append (name : String) (entries others : List (String × α)) :
    last? name (entries ++ others) = (last? name others).or (last? name entries) := by
  rw [last?, List.reverse_append, List.lookup_append]
  rfl

theorem lookup_eq_some_iff (hd : (names entries).Nodup) :
    entries.lookup name = some a ↔ (name, a) ∈ entries := by
  constructor
  · intro h
    obtain ⟨before, behind, rfl, -⟩ := List.lookup_eq_some_iff.1 h
    simp
  · intro h
    obtain ⟨before, behind, rfl⟩ := List.append_of_mem h
    refine List.lookup_eq_some_iff.2 ⟨before, behind, rfl, fun p hp => bne_iff_ne.2 ?_⟩
    rw [names_append] at hd
    exact ((List.nodup_append.1 hd).2.2 p.1 (List.mem_map_of_mem hp) name List.mem_cons_self).symm

theorem last?_eq_lookup (hd : (names entries).Nodup) (name : String) :
    last? name entries = entries.lookup name := by
  refine Option.ext fun a => ?_
  rw [lookup_eq_some_iff hd, last?, lookup_eq_some_iff, List.mem_reverse]
  rw [names, List.map_reverse]
  exact List.nodup_reverse.2 hd

theorem settle_concat (entries : List (String × α)) (e : String × α) :
    settle (entries ++ [e]) = set e.1 e.2 (settle entries) := by
  simp [settle]

theorem lookup_settle (name : String) (entries : List (String × α)) :
    (settle entries).lookup name = last? name entries := by
  induction entries using List.reverseRecOn with
  | nil => rfl
  | append_singleton entries e ih => rw [settle_concat, lookup_set, last?_concat, ih]

theorem names_set (name : String) (a : α) (entries : List (String × α)) :
    names (set name a entries) =
      if name ∈ names entries then names entries else names entries ++ [name] := by
  induction entries with
  | nil => simp [set, names]
  | cons first rest ih =>
      rw [set]
      by_cases h : first.1 = name
      · simp [names, h]
      · rw [if_neg h]
        simp only [names, List.map_cons, List.mem_cons, Ne.symm h, false_or] at ih ⊢
        rw [ih]
        by_cases hrest : name ∈ rest.map (·.1) <;> simp [hrest]

theorem names_settle (entries : List (String × α)) :
    names (settle entries) = (names entries).eraseDups := by
  induction entries using List.reverseRecOn with
  | nil => rfl
  | append_singleton entries e ih =>
      rw [settle_concat, names_set, ih, names_append, names, names, List.map_singleton, eraseDups_concat]
      simp only [List.mem_eraseDups]

theorem nodup_names_settle (entries : List (String × α)) : (names (settle entries)).Nodup := by
  rw [names_settle]
  exact nodup_eraseDups _

theorem last?_settle (name : String) (entries : List (String × α)) :
    last? name (settle entries) = last? name entries := by
  rw [last?_eq_lookup (nodup_names_settle entries), lookup_settle]

end TemplateExpr.Entries
