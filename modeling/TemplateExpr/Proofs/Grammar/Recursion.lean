import TemplateExpr.Proofs.Grammar.Completeness

namespace TemplateExpr

/-- What comes out of a run that may recurse only so deep is `a`, and a depth of `depth` is just
enough for it. -/
def Takes {α : Type} (run : Nat → Option α) (depth : Nat) (a : α) : Prop :=
  ∀ budget, run budget = if depth ≤ budget then some a else none

namespace Takes

variable {α β : Type} {run : Nat → Option α} {depth : Nat} {a : α}

theorem some (a : α) : Takes (fun _ => some a) 0 a := fun _ => rfl

theorem map (h : Takes run depth a) (f : α → β) :
    Takes (fun budget => (run budget).map f) depth (f a) := by
  intro budget
  simp only [h budget]
  split <;> rfl

end Takes

namespace Reading

variable {α β : Type} {ts : List Token}

def andThen? (r : Reading α ts) (next : α → (rest : List Token) → rest.length ≤ ts.length →
    Option (Reading β rest)) : Option (Reading β ts) :=
  match r.result with
  | .error e => some ⟨.error e, r.rest, r.bound⟩
  | .ok a => (next a r.rest r.bound).map (·.within r.bound)

def depthBehind (r : Reading α ts)
    (next : α → (rest : List Token) → rest.length ≤ ts.length → Nat) : Nat :=
  match r.result with
  | .error _ => 0
  | .ok a => next a r.rest r.bound

section

variable {next : α → (rest : List Token) → rest.length ≤ ts.length → Reading β rest}
  {nextWithin : Nat → α → (rest : List Token) → rest.length ≤ ts.length → Option (Reading β rest)}
  {depthOf : α → (rest : List Token) → rest.length ≤ ts.length → Nat}

theorem andThen?_takes (r : Reading α ts)
    (hnext : ∀ a rest hle, Takes (nextWithin · a rest hle) (depthOf a rest hle) (next a rest hle)) :
    Takes (fun budget => r.andThen? (nextWithin budget)) (r.depthBehind depthOf) (r.andThen next) := by
  unfold andThen? depthBehind andThen
  cases r.result with
  | error e => exact .some _
  | ok a => exact (hnext a r.rest r.bound).map _

/-- The deeper of two readings that come one after the other decides. -/
theorem bind_takes {run : Nat → Option (Reading α ts)} {depth : Nat} {r : Reading α ts}
    (h : Takes run depth r)
    (hnext : ∀ a rest hle, Takes (nextWithin · a rest hle) (depthOf a rest hle) (next a rest hle)) :
    Takes (fun budget => (run budget).bind fun r => r.andThen? (nextWithin budget))
      (max depth (r.depthBehind depthOf)) (r.andThen next) := by
  intro budget
  simp only [h budget]
  by_cases hdepth : depth ≤ budget
  · have hbehind := r.andThen?_takes hnext budget
    simpa [hdepth, Nat.max_le] using hbehind
  · rw [if_neg hdepth, if_neg fun hmax => hdepth (Nat.le_trans (Nat.le_max_left _ _) hmax)]
    rfl

end

theorem depthBehind_le {r : Reading α ts}
    {depth : α → (rest : List Token) → rest.length ≤ ts.length → Nat} {n : Nat}
    (h : ∀ a rest hle, depth a rest hle ≤ n) : r.depthBehind depth ≤ n := by
  unfold depthBehind
  split
  · exact Nat.zero_le n
  · exact h _ _ _

end Reading

namespace Parse

mutual

/-- How many expressions are under way at most while one is read, this one included. -/
def expressionDepth (room min : Nat) (ts : List Token) : Nat :=
  max (operandDepth room ts)
    ((operand room ts).depthBehind fun left rest _ => climbDepth room min left rest) + 1
termination_by 2 * ts.length + 1

def climbDepth (room min : Nat) (left : Expr) : List Token → Nat
  | [] => 0
  | t :: ts =>
    match t.operatorAbove? min with
    | none => 0
    | some op =>
      max (expressionDepth room op.precedence ts)
        ((expression room op.precedence ts).depthBehind fun right rest _ =>
          climbDepth room min (.binary op left right) rest)
termination_by ts => 2 * ts.length

def operandDepth (room : Nat) : List Token → Nat
  | [] => 0
  | t :: ts =>
    match t.kind with
    | .roundOpen =>
      match room with
      | 0 => 0
      | room + 1 => (enclosed 0 ts).depthBehind fun inner _ _ => expressionDepth room 0 inner
    | .operator op => if op.isUnary then operandDepth room ts else 0
    | _ => 0
termination_by ts => 2 * ts.length

end

mutual

/-- Reads as `expression` does, but gives up when there would be more than `budget` expressions under
way. -/
def expressionWithin (budget room min : Nat) (ts : List Token) : Option (Reading Expr ts) :=
  match budget with
  | 0 => none
  | budget + 1 =>
    (operandWithin budget room ts).bind fun r =>
      r.andThen? fun left rest _ => climbWithin budget room min left rest
termination_by 2 * ts.length + 1

def climbWithin (budget room min : Nat) (left : Expr) : (ts : List Token) → Option (Reading Expr ts)
  | [] => some (.done left [])
  | t :: ts =>
    match t.operatorAbove? min with
    | none => some (.done left (t :: ts))
    | some op =>
      ((expressionWithin budget room op.precedence ts).bind fun r =>
        r.andThen? fun right rest _ =>
          climbWithin budget room min (.binary op left right) rest).map (·.after t)
termination_by ts => 2 * ts.length

def operandWithin (budget room : Nat) : (ts : List Token) → Option (Reading Expr ts)
  | [] => some (.fail .endOfInput [])
  | t :: ts =>
    match t.kind with
    | .value v => some ((Reading.done (.constant v) ts).after t)
    | .name => some ((Reading.done (.name t.text) ts).after t)
    | .squareOpen => some (((items true ts).map .list).after t)
    | .roundOpen =>
      match room with
      | 0 => some ((Reading.fail (.blame .tooDeep t) ts).after t)
      | room + 1 =>
        ((enclosed 0 ts).andThen? fun inner rest _ =>
          (expressionWithin budget room 0 inner).map fun r =>
            match r.result, r.rest with
            | .ok e, [] => .done e rest
            | .ok _, t :: _ => .fail (.blame .inParentheses t) rest
            | .error e, _ => .fail e rest).map (·.after t)
    | .operator op =>
      if op.isUnary then (operandWithin budget room ts).map fun r => (r.map (.unary op)).after t
      else some ((Reading.fail (.blame .unexpected t) ts).after t)
    | _ => some ((Reading.fail (.blame .unexpected t) ts).after t)
termination_by ts => 2 * ts.length

end

mutual

theorem expression_takes (room min : Nat) (ts : List Token) :
    Takes (expressionWithin · room min ts) (expressionDepth room min ts) (expression room min ts) := by
  intro budget
  cases budget with
  | zero => simp [expressionWithin, expressionDepth]
  | succ budget =>
      have h := Reading.bind_takes (operand_takes room ts)
        (fun left rest _ => climb_takes room min left rest) budget
      simpa [expressionWithin, expressionDepth, expression] using h
termination_by 2 * ts.length + 1

theorem climb_takes (room min : Nat) (left : Expr) (ts : List Token) :
    Takes (climbWithin · room min left ts) (climbDepth room min left ts)
      (climb room min left ts) := by
  match ts with
  | [] =>
      simp only [climbWithin, climbDepth, climb]
      exact .some _
  | t :: ts =>
      cases h : t.operatorAbove? min with
      | none =>
          simp only [climbWithin, climbDepth, climb, h]
          exact .some _
      | some op =>
          simp only [climbWithin, climbDepth, climb, h]
          have hclimb := Reading.bind_takes (expression_takes room op.precedence ts)
            fun right rest _ => climb_takes room min (.binary op left right) rest
          exact hclimb.map _
termination_by 2 * ts.length

theorem operand_takes (room : Nat) (ts : List Token) :
    Takes (operandWithin · room ts) (operandDepth room ts) (operand room ts) := by
  match ts with
  | [] =>
      simp only [operandWithin, operandDepth, operand]
      exact .some _
  | t :: ts =>
      rw [funext fun budget => operandWithin.eq_def budget room (t :: ts), operandDepth.eq_def,
        operand.eq_def]
      cases h : t.kind
      case roundOpen =>
        cases room with
        | zero =>
            simp only [h]
            exact .some _
        | succ room =>
            simp only [h]
            refine ((enclosed 0 ts).andThen?_takes fun inner rest _ => ?_).map _
            exact (expression_takes room 0 inner).map _
      case operator op =>
        simp only [h]
        cases op.isUnary with
        | false => exact .some _
        | true => exact (operand_takes room ts).map _
      all_goals
        simp only [h]
        exact .some _
termination_by 2 * ts.length

end

mutual

/-- What is read behind an operator binds more tightly, and the tightest has a precedence of five. -/
theorem expressionDepth_le (room min : Nat) (ts : List Token) :
    expressionDepth room min ts ≤ 6 * room + (5 - min) + 1 := by
  rw [expressionDepth]
  have hoperand := operandDepth_le room ts
  have hclimb := (operand room ts).depthBehind_le fun left rest _ => climbDepth_le room min left rest
  omega
termination_by 2 * ts.length + 1

theorem climbDepth_le (room min : Nat) (left : Expr) (ts : List Token) :
    climbDepth room min left ts ≤ 6 * room + (5 - min) := by
  match ts with
  | [] => simp [climbDepth]
  | t :: ts =>
      rw [climbDepth]
      split
      · exact Nat.zero_le _
      · rename_i op h
        obtain ⟨-, hb, hlt⟩ := Token.operatorAbove?_eq_some_iff.1 h
        have hfive := Operator.precedence_le_five hb
        have hright := expressionDepth_le room op.precedence ts
        have hclimb := (expression room op.precedence ts).depthBehind_le fun right rest _ =>
          climbDepth_le room min (.binary op left right) rest
        omega
termination_by 2 * ts.length

theorem operandDepth_le (room : Nat) (ts : List Token) : operandDepth room ts ≤ 6 * room := by
  match ts with
  | [] => simp [operandDepth]
  | t :: ts =>
      rw [operandDepth.eq_def]
      cases h : t.kind
      case roundOpen =>
        cases room with
        | zero => simp [h]
        | succ room =>
            simp only [h]
            exact (enclosed 0 ts).depthBehind_le fun inner _ _ => expressionDepth_le room 0 inner
      case operator op =>
        have hoperand := operandDepth_le room ts
        simp only [h]
        split <;> omega
      all_goals simp [h]
termination_by 2 * ts.length

end

def unplaced (kind : Token.Kind) : Token := ⟨kind, "", .start⟩

def rungs (ops : List Operator) : List Token :=
  ops.flatMap fun op => [unplaced .name, unplaced (.operator op)]

def ladder : List Operator := [.or, .and, .eq, .add, .mul]

/-- Brackets within each other, each behind a ladder of its own. -/
def spiral : Nat → List Token
  | 0 => rungs ladder ++ [unplaced .name]
  | n + 1 => rungs ladder ++ unplaced .roundOpen :: (spiral n ++ [unplaced .roundClose])

variable {room min nested n : Nat} {ts inner rest : List Token} {op : Operator} {ops : List Operator}

theorem expressionDepth_rung (hb : op.isBinary = true) (hmin : min < op.precedence) :
    expressionDepth room op.precedence ts <
      expressionDepth room min (unplaced .name :: unplaced (.operator op) :: ts) := by
  have habove : (unplaced (.operator op)).operatorAbove? min = some op :=
    Token.operatorAbove?_eq_some_iff.2 ⟨rfl, hb, hmin⟩
  have hoperand (ts : List Token) : operand room (unplaced .name :: ts) =
      (Reading.done (.name "") ts).after (unplaced .name) := by
    rw [operand.eq_def]
    rfl
  rw [expressionDepth.eq_def room min, hoperand, Reading.depthBehind]
  simp only [Reading.after, Reading.within, Reading.done, climbDepth, habove]
  omega

theorem expressionDepth_rungs (room : Nat) (ts : List Token)
    (hb : ∀ op ∈ ops, op.isBinary = true)
    (h : ops.map Operator.precedence = List.range' (min + 1) ops.length) :
    expressionDepth room (min + ops.length) ts + ops.length ≤
      expressionDepth room min (rungs ops ++ ts) := by
  induction ops generalizing min with
  | nil => exact Nat.le_refl _
  | cons op ops ih =>
      rw [List.map_cons, List.length_cons, List.range'_succ, List.cons.injEq] at h
      have hrung : expressionDepth room op.precedence (rungs ops ++ ts) <
          expressionDepth room min (rungs (op :: ops) ++ ts) :=
        expressionDepth_rung (hb op List.mem_cons_self) (by omega)
      have hrest := ih (fun op hop => hb op (List.mem_cons_of_mem _ hop)) h.2
      rw [h.1] at hrung
      rw [List.length_cons, show min + (ops.length + 1) = min + 1 + ops.length by omega]
      omega

theorem expressionDepth_ladder (room : Nat) (ts : List Token) :
    expressionDepth room 5 ts + 5 ≤ expressionDepth room 0 (rungs ladder ++ ts) := by
  have hbinary : ∀ op ∈ ladder, op.isBinary = true := by decide
  exact expressionDepth_rungs room ts hbinary rfl

theorem expressionDepth_group (room min : Nat) (hc : Closes 0 ts inner rest) :
    expressionDepth room 0 inner < expressionDepth (room + 1) min (unplaced .roundOpen :: ts) := by
  obtain ⟨hle, hinner, hrest⟩ := hc
  have hoperand : operandDepth (room + 1) (unplaced .roundOpen :: ts) =
      expressionDepth room 0 inner := by
    rw [operandDepth.eq_def]
    simp only [unplaced, Reading.depthBehind, hinner]
  rw [expressionDepth.eq_def (room + 1) min, hoperand]
  omega

theorem Closes.rungs (h : Closes nested ts inner rest) (ops : List Operator) :
    Closes nested (rungs ops ++ ts) (rungs ops ++ inner) rest := by
  induction ops with
  | nil => exact h
  | cons op ops ih => exact (ih.cons rfl).cons rfl

theorem Closes.spiral (h : Closes nested ts inner rest) :
    Closes nested (spiral n ++ ts) (spiral n ++ inner) rest := by
  induction n generalizing nested ts inner with
  | zero =>
      rw [Parse.spiral, List.append_assoc, List.append_assoc]
      exact Closes.rungs (h.cons rfl) ladder
  | succ n ih =>
      have hclose : Closes (nested + 1) (unplaced .roundClose :: ts)
          (unplaced .roundClose :: inner) rest := h.cons rfl
      have hopen : Closes nested (unplaced .roundOpen :: (Parse.spiral n ++ unplaced .roundClose :: ts))
          (unplaced .roundOpen :: (Parse.spiral n ++ unplaced .roundClose :: inner)) rest :=
        (ih hclose).cons rfl
      simpa [Parse.spiral] using hopen.rungs ladder

theorem expressionDepth_spiral (room : Nat) :
    expressionDepth room 0 (spiral room) = 6 * room + 6 := by
  refine Nat.le_antisymm (expressionDepth_le room 0 _) ?_
  induction room with
  | zero =>
      have hlast : 0 < expressionDepth 0 5 [unplaced .name] := by
        rw [expressionDepth]
        exact Nat.succ_pos _
      have hladder := expressionDepth_ladder 0 [unplaced .name]
      rw [spiral]
      omega
  | succ room ih =>
      have hend : Closes 0 [unplaced .roundClose] [] [] := closes_cons.2 (.inl ⟨rfl, rfl, rfl, rfl⟩)
      have hcloses : Closes 0 (spiral room ++ [unplaced .roundClose]) (spiral room) [] := by
        simpa using hend.spiral
      have hgroup := expressionDepth_group room 5 hcloses
      have hladder := expressionDepth_ladder (room + 1)
        (unplaced .roundOpen :: (spiral room ++ [unplaced .roundClose]))
      rw [spiral]
      omega

end Parse

def parseDepth (ts : List Token) : Nat := Parse.expressionDepth maxNesting 0 ts

def parseWithin (budget : Nat) (ts : List Token) : Option (Reading Expr ts) :=
  (Parse.expressionWithin budget maxNesting 0 ts).map fun r => r.andThen fun e rest _ =>
    match rest with
    | [] => .done e []
    | t :: rest =>
      if t.kind.isBlockEnd then .done e (t :: rest)
      else .fail (.blame .afterExpression t) (t :: rest)

/-- A reader with room for 390 expressions within each other never gives up, and one with less room
gives up on some tokens. -/
theorem parse_depth_bounded :
    (∀ ts, parseDepth ts ≤ 6 * (maxNesting + 1)) ∧ 6 * (maxNesting + 1) = 390 ∧
      (∃ ts, parseDepth ts = 390) ∧
      (∀ ts budget, parseWithin budget ts = if parseDepth ts ≤ budget then some (parse ts) else none) ∧
      ∀ ts, parseWithin 390 ts = some (parse ts) := by
  have hdepth (ts : List Token) : parseDepth ts ≤ 6 * (maxNesting + 1) :=
    Parse.expressionDepth_le maxNesting 0 ts
  have hwithin (ts : List Token) (budget : Nat) :
      parseWithin budget ts = if parseDepth ts ≤ budget then some (parse ts) else none :=
    (Parse.expression_takes maxNesting 0 ts).map _ budget
  refine ⟨hdepth, rfl, ⟨_, Parse.expressionDepth_spiral maxNesting⟩, hwithin, fun ts => ?_⟩
  rw [hwithin, if_pos]
  exact hdepth ts

end TemplateExpr
