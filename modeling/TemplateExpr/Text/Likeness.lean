namespace TemplateExpr.Text

def sharedStart : List Char → List Char → Nat
  | c :: cs, d :: ds => if c = d then sharedStart cs ds + 1 else 0
  | _, _ => 0

/-- A run that two texts share: how much of either text stands before it, and how long it is. -/
structure SharedRun where
  left : Nat
  right : Nat
  length : Nat
deriving DecidableEq

def sharedRuns (cs ds : List Char) : List SharedRun :=
  (List.range cs.length).flatMap fun i =>
    (List.range ds.length).map fun j => ⟨i, j, sharedStart (cs.drop i) (ds.drop j)⟩

/-- Of several longest runs the first in the first text, and of those the first in the second. -/
def longestRun (cs ds : List Char) : SharedRun :=
  (sharedRuns cs ds).foldl (fun best run => if best.length < run.length then run else best)
    ⟨0, 0, 0⟩

def sharedCount (cs ds : List Char) : Nat :=
  match longestRun cs ds with
  | ⟨left, right, length⟩ =>
    if _h : 0 < length ∧ left < cs.length then
      sharedCount (cs.take left) (ds.take right) + length +
        sharedCount (cs.drop (left + length)) (ds.drop (right + length))
    else 0
termination_by cs.length
decreasing_by all_goals simp only [List.length_take, List.length_drop]; omega

structure Likeness where
  name : String
  shared : Nat
  total : Nat

namespace Likeness

def of (text name : String) : Likeness :=
  ⟨name, sharedCount name.toList text.toList, name.length + text.length⟩

def isClose (l : Likeness) : Bool := 3 * l.total ≤ 10 * l.shared

/-- The greater part of all characters wins, and of equal parts the name that is later in the order
of code points. -/
def atLeast (l m : Likeness) : Bool :=
  m.shared * l.total < l.shared * m.total ||
    (m.shared * l.total = l.shared * m.total && m.name ≤ l.name)

end Likeness

def lengthsAllow (text name : String) : Bool :=
  3 * (name.length + text.length) ≤ 10 * min name.length text.length

def mostSuggested : Nat := 3

def closest (text : String) (names : List String) : List String :=
  let close := ((names.filter (lengthsAllow text)).map (Likeness.of text)).filter Likeness.isClose
  (((close.mergeSort Likeness.atLeast).take mostSuggested).map (·.name)).mergeSort (· ≤ ·)

end TemplateExpr.Text
