import TemplateExpr.Expr.Basic
import TemplateExpr.Text.HeadMove

namespace TemplateExpr

namespace Outline

structure Entry where
  depth : Nat
  label : String
deriving DecidableEq

inductive Tree where
  | node (label : String) (branches : List Tree)

namespace Tree

mutual

def entries (depth : Nat) : Tree → List Entry
  | .node label branches => ⟨depth, label⟩ :: branchEntries (depth + 1) branches

def branchEntries (depth : Nat) : List Tree → List Entry
  | [] => []
  | t :: ts => entries depth t ++ branchEntries depth ts

end

/-- Changes the branch to which a path leads, which says of each node on the way which branch to take. -/
def modifyAt (change : Tree → Tree) : List Nat → Tree → Tree
  | [], t => change t
  | i :: path, .node label branches => .node label (branches.modify i (modifyAt change path))

def grow (labels : List String) : Tree → Tree
  | .node label branches => .node label (branches ++ labels.map fun l => .node l [])

end Tree

end Outline

namespace Expr

/-- What a node says of itself. Texts stand in double quotes, without escapes. -/
def caption : Expr → String
  | .constant v =>
    let shown := match v with
      | .string s => Value.enclosed s
      | v => v.text
    "constant " ++ shown ++ " (" ++ v.kind.name ++ ")"
  | .name x => "variable " ++ x
  | .unary op _ => "unary " ++ op.symbol
  | .binary op _ _ => "binary " ++ op.symbol
  | .list items => "list (" ++ items.length.repr ++ " items)"

def label (e : Expr) : String := Text.withoutHeadMoves e.caption

theorem size_eq (e : Expr) : e.size = totalSize e.children + 1 := by
  cases e <;> simp [size, totalSize, children]

theorem totalSize_append (es fs : List Expr) :
    totalSize (es ++ fs) = totalSize es + totalSize fs := by
  induction es with
  | nil => simp [totalSize]
  | cons e es ih => simp only [List.cons_append, totalSize, ih]; omega

end Expr

namespace Outline

def waiting (e : Expr) (path : List Nat) : List (Expr × List Nat) :=
  e.children.zipIdx.map fun c => (c.1, path ++ [c.2])

def pendingSize (pending : List (Expr × List Nat)) : Nat := Expr.totalSize (pending.map (·.1))

theorem map_fst_waiting (e : Expr) (path : List Nat) : (waiting e path).map (·.1) = e.children := by
  simp [waiting, Function.comp_def]

theorem pendingSize_waiting (e : Expr) (path : List Nat) (pending : List (Expr × List Nat)) :
    pendingSize (waiting e path ++ pending) + 1 = pendingSize ((e, path) :: pending) := by
  simp only [pendingSize, List.map_append, map_fst_waiting, Expr.totalSize_append, List.map_cons,
    Expr.totalSize, Expr.size_eq e]
  omega

/-- Visits what is pending, and what its nodes add to it. -/
def fill : List (Expr × List Nat) → Tree → Tree
  | [], t => t
  | (e, path) :: pending, t =>
    fill (waiting e path ++ pending) (t.modifyAt (.grow (e.children.map Expr.label)) path)
termination_by pending => pendingSize pending
decreasing_by
  have := pendingSize_waiting e path pending
  omega

end Outline

def Expr.outlineTree (e : Expr) : Outline.Tree := Outline.fill [(e, [])] (.node e.label [])

def Expr.outline (e : Expr) : List Outline.Entry := e.outlineTree.entries 0

end TemplateExpr
