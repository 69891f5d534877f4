import TemplateExpr.Expr.Outline
import Mathlib.Data.List.Basic

namespace TemplateExpr

namespace Expr

mutual

def entries (depth : Nat) : Expr → List Outline.Entry
  | .constant v => [⟨depth, label (.constant v)⟩]
  | .name x => [⟨depth, label (.name x)⟩]
  | .unary op operand => ⟨depth, label (.unary op operand)⟩ :: entries (depth + 1) operand
  | .binary op left right =>
    ⟨depth, label (.binary op left right)⟩ :: (entries (depth + 1) left ++ entries (depth + 1) right)
  | .list items => ⟨depth, label (.list items)⟩ :: itemEntries (depth + 1) items

def itemEntries (depth : Nat) : List Expr → List Outline.Entry
  | [] => []
  | e :: es => entries depth e ++ itemEntries depth es

end

theorem entries_eq (depth : Nat) (e : Expr) :
    e.entries depth = ⟨depth, e.label⟩ :: itemEntries (depth + 1) e.children := by
  cases e <;> simp [entries, itemEntries, children]

mutual

theorem length_entries (depth : Nat) : (e : Expr) → (e.entries depth).length = e.size
  | .constant v | .name x => rfl
  | .unary op a => by simp [entries, size, length_entries (depth + 1) a]
  | .binary op a b => by
      simp [entries, size, length_entries (depth + 1) a, length_entries (depth + 1) b]
  | .list items => by simp [entries, size, length_itemEntries (depth + 1) items]

theorem length_itemEntries (depth : Nat) :
    (es : List Expr) → (itemEntries depth es).length = totalSize es
  | [] => rfl
  | e :: es => by
      simp [itemEntries, totalSize, length_entries depth e, length_itemEntries depth es]

end

end Expr

namespace Outline

namespace Tree

mutual

def ofExpr : Expr → Tree
  | .constant v => .node (Expr.label (.constant v)) []
  | .name x => .node (Expr.label (.name x)) []
  | .unary op operand => .node (Expr.label (.unary op operand)) [ofExpr operand]
  | .binary op left right => .node (Expr.label (.binary op left right)) [ofExpr left, ofExpr right]
  | .list items => .node (Expr.label (.list items)) (ofItems items)

def ofItems : List Expr → List Tree
  | [] => []
  | e :: es => ofExpr e :: ofItems es

end

def bare (e : Expr) : Tree := .node e.label []

def at? : List Nat → Tree → Option Tree
  | [], t => some t
  | i :: path, .node _ branches => branches[i]?.bind (at? path)

variable {t u : Tree} {f g : Tree → Tree} {path : List Nat}

theorem ofExpr_eq (e : Expr) : ofExpr e = .node e.label (ofItems e.children) := by
  cases e <;> simp [ofExpr, ofItems, Expr.children]

mutual

theorem entries_ofExpr (depth : Nat) : (e : Expr) → (ofExpr e).entries depth = e.entries depth
  | .constant v | .name x => rfl
  | .unary op a => by
      simp [ofExpr, entries, branchEntries, Expr.entries, entries_ofExpr (depth + 1) a]
  | .binary op a b => by
      simp [ofExpr, entries, branchEntries, Expr.entries, entries_ofExpr (depth + 1) a,
        entries_ofExpr (depth + 1) b]
  | .list items => by
      simp [ofExpr, entries, Expr.entries, branchEntries_ofItems (depth + 1) items]

theorem branchEntries_ofItems (depth : Nat) :
    (es : List Expr) → branchEntries depth (ofItems es) = Expr.itemEntries depth es
  | [] => rfl
  | e :: es => by
      simp [ofItems, branchEntries, Expr.itemEntries, entries_ofExpr depth e,
        branchEntries_ofItems depth es]

end

theorem at?_append (path path' : List Nat) (t : Tree) :
    t.at? (path ++ path') = (t.at? path).bind (at? path') := by
  induction path generalizing t with
  | nil => rfl
  | cons i path ih =>
      obtain ⟨label, branches⟩ := t
      cases h : branches[i]? <;> simp [at?, h, ih]

theorem modifyAt_append (f : Tree → Tree) (path path' : List Nat) (t : Tree) :
    t.modifyAt f (path ++ path') = t.modifyAt (modifyAt f path') path := by
  induction path generalizing t with
  | nil => rfl
  | cons i path ih =>
      obtain ⟨label, branches⟩ := t
      simp only [List.cons_append, modifyAt, funext ih]

theorem modifyAt_modifyAt (f g : Tree → Tree) (path : List Nat) (t : Tree) :
    (t.modifyAt f path).modifyAt g path = t.modifyAt (g ∘ f) path := by
  induction path generalizing t with
  | nil => rfl
  | cons i path ih =>
      obtain ⟨label, branches⟩ := t
      simp only [modifyAt, List.modify_modify_eq, Function.comp_def, ih]

theorem at?_modifyAt (h : t.at? path = some u) (f : Tree → Tree) :
    (t.modifyAt f path).at? path = some (f u) := by
  induction path generalizing t with
  | nil => simpa [at?, modifyAt] using congrArg f (Option.some.inj h)
  | cons i path ih =>
      obtain ⟨label, branches⟩ := t
      obtain ⟨b, hb, h⟩ := Option.bind_eq_some_iff.1 h
      simp [modifyAt, at?, hb, ih h]

theorem modifyAt_congr (h : t.at? path = some u) (hfg : f u = g u) :
    t.modifyAt f path = t.modifyAt g path := by
  induction path generalizing t with
  | nil =>
      obtain rfl : t = u := Option.some.inj h
      exact hfg
  | cons i path ih =>
      obtain ⟨label, branches⟩ := t
      obtain ⟨b, hb, h⟩ := Option.bind_eq_some_iff.1 h
      simp only [modifyAt]
      congr 1
      refine List.ext_getElem? fun j => ?_
      by_cases hj : i = j
      · subst hj
        simp [hb, ih h]
      · simp [hj]

theorem modifyAt_id (path : List Nat) (t : Tree) : t.modifyAt id path = t := by
  induction path generalizing t with
  | nil => rfl
  | cons i path ih =>
      obtain ⟨label, branches⟩ := t
      rw [modifyAt, funext (g := id) ih, List.modify_id]

theorem modifyAt_eq_self (h : t.at? path = some u) (hf : f u = u) : t.modifyAt f path = t := by
  rw [modifyAt_congr (g := id) h hf, modifyAt_id]

end Tree

open TemplateExpr.Outline.Tree

mutual

/-- The nodes that wait below a pending node are done with before those that wait behind it. -/
theorem fill_cons (e : Expr) (path : List Nat) (pending : List (Expr × List Nat)) (t : Tree)
    (h : t.at? path = some (bare e)) :
    fill ((e, path) :: pending) t = fill pending (t.modifyAt (fun _ => ofExpr e) path) := by
  -- growing puts a bare branch for every child where none is
  have hgrown := at?_modifyAt h (grow (e.children.map Expr.label))
  have hbare : grow (e.children.map Expr.label) (bare e) =
      .node e.label ([] ++ e.children.map bare) := by
    simp [grow, bare, Function.comp_def]
  rw [hbare] at hgrown
  have hbelow := fill_items e.label [] e.children path pending _ hgrown
  rw [modifyAt_modifyAt] at hbelow
  rw [fill, ofExpr_eq]
  exact hbelow
termination_by 2 * e.size
decreasing_by
  rw [Expr.size_eq e]
  omega

theorem fill_items (label : String) (done : List Tree) (es : List Expr) (path : List Nat)
    (pending : List (Expr × List Nat)) (t : Tree)
    (h : t.at? path = some (.node label (done ++ es.map bare))) :
    fill ((es.zipIdx done.length).map (fun c => (c.1, path ++ [c.2])) ++ pending) t =
      fill pending (t.modifyAt (fun _ => .node label (done ++ ofItems es)) path) := by
  match es with
  | [] => rw [modifyAt_eq_self h rfl]; rfl
  | e :: es =>
      have hfirst : t.at? (path ++ [done.length]) = some (bare e) := by
        simp [at?_append, h, at?]
      -- the first of the waiting branches becomes the last of those that are done
      have hput : modifyAt (fun _ => ofExpr e) [done.length]
          (.node label (done ++ (e :: es).map bare)) =
            .node label (done ++ [ofExpr e] ++ es.map bare) := by
        simp [modifyAt, List.modify_eq_set_getElem?]
      have hrest := at?_modifyAt h (modifyAt (fun _ => ofExpr e) [done.length])
      rw [hput, ← modifyAt_append] at hrest
      have hlength : done.length + 1 = (done ++ [ofExpr e]).length := by simp
      rw [List.zipIdx_cons, List.map_cons, List.cons_append, fill_cons e _ _ t hfirst,
        hlength, fill_items label (done ++ [ofExpr e]) es path pending _ hrest, modifyAt_append,
        modifyAt_modifyAt]
      simp [ofItems, Function.comp_def]
termination_by 2 * Expr.totalSize es + 1
decreasing_by
  all_goals
    have := Expr.size_pos e
    simp only [Expr.totalSize]
    omega

end

theorem outlineTree_eq (e : Expr) : e.outlineTree = ofExpr e := by
  have h : (bare e).at? [] = some (bare e) := rfl
  exact (fill_cons e [] [] _ h).trans (by rw [fill]; rfl)

theorem outline_eq (e : Expr) : e.outline = e.entries 0 := by
  rw [Expr.outline, outlineTree_eq, entries_ofExpr]

end Outline

end TemplateExpr
