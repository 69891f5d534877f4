import Mathlib.Data.List.DropRight
import Mathlib.Data.List.Induction
import TemplateExpr.Proofs.Lexing.Scan

namespace TemplateExpr

namespace Position

def lineStart (text : List Char) : Nat := (text.rdropWhile (· ≠ '\n')).length

/-- Line and column are those of the offset. -/
structure Points (p : Position) (text : List Char) : Prop where
  line : p.line = 1 + (text.take p.offset).count '\n'
  column : p.column = p.offset - lineStart (text.take p.offset) + 1

theorem lineStart_le (text : List Char) : lineStart text ≤ text.length :=
  (List.rdropWhile_prefix _ text).length_le

theorem lineStart_concat (text : List Char) (c : Char) :
    lineStart (text ++ [c]) = if c = '\n' then text.length + 1 else lineStart text := by
  unfold lineStart
  rw [List.rdropWhile_concat]
  by_cases hc : c = '\n' <;> simp [hc]

theorem start_advance (text : List Char) : start.advance text =
    ⟨1 + text.count '\n', text.length - lineStart text + 1, text.length⟩ := by
  induction text using List.reverseRecOn with
  | nil => rfl
  | append_singleton text c ih =>
      have hle := lineStart_le text
      rw [advance_append, ih, advance_cons, advance_nil, next, lineStart_concat]
      by_cases hc : c = '\n'
      · simp [hc, Nat.add_assoc]
      · have hsub : text.length + 1 - lineStart text = text.length - lineStart text + 1 :=
          Nat.succ_sub hle
        simp [hc, hsub]

theorem start_advance_points (before rest : List Char) :
    (start.advance before).Points (before ++ rest) where
  line := by simp [start_advance]
  column := by simp [start_advance]

theorem advance_eq_right {cs : List Char} (h : '\n' ∉ cs) (p : Position) :
    p.advance cs = p.right cs.length := by
  induction cs generalizing p with
  | nil => rfl
  | cons c cs ih =>
      rw [List.mem_cons, not_or] at h
      have hnext : p.next c = p.right 1 := if_neg (Ne.symm h.1)
      rw [advance_cons, hnext, ih h.2, right_right, List.length_cons, Nat.add_comm 1]

/-- Counting along the line is right as long as the line goes on. -/
theorem right_points_iff (before inner rest : List Char) :
    ((start.advance before).right inner.length).Points (before ++ (inner ++ rest)) ↔
      '\n' ∉ inner := by
  constructor
  · -- a line feed in between is counted in the line of the offset but not in that of the place
    intro h
    have hline := h.line
    simp only [right, start_advance, ← List.append_assoc, ← List.length_append, List.take_left,
      List.count_append] at hline
    rw [← List.count_eq_zero]
    omega
  · intro h
    rw [← advance_eq_right h, ← advance_append, ← List.append_assoc]
    exact start_advance_points _ _

end Position

namespace Lexeme

variable {cs : List Char} {problem : LexicalProblem} {i : Nat}

theorem Stuck.lt_length (h : Stuck cs problem i) : i < cs.length := by
  cases h with
  | unterminated | invalid => exact Nat.succ_pos _
  | @literal _ x _ _ hx h =>
      have hne := cut?_text_ne_nil (cut?_eq_some_iff.2 hx)
      rw [← hx.append, List.length_append]
      exact Nat.lt_add_right _ (h.lt_length hne)

theorem Stuck.unknownEscape_or (h : Stuck cs problem i) : (∃ c, problem = .unknownEscape c) ∨ i = 0 := by
  cases h with
  | unterminated | invalid => exact .inr rfl
  | @literal _ x _ _ _ h =>
      obtain ⟨shape, text, rest⟩ := x
      cases h with
      | integer => exact .inr rfl
      | string => exact .inl ⟨_, rfl⟩

end Lexeme

open Lexeme (Reaches Stuck)

variable {source : String} {e : LexicalError}

/-- The offset of a lexical error is inside the source. Line and column are those of the offset unless
the error is an unknown escape behind a line feed in the text it stands in. -/
theorem tokenize_error_points (h : tokenize source = .error e) :
    e.position.offset < source.toList.length ∧
    (e.position.Points source.toList ∨ ∃ c, e.problem = .unknownEscape c) ∧
    ∃ found q rest i, Reaches .start source.toList found q rest ∧ Stuck rest e.problem i ∧
      e.position.offset = q.offset + i ∧
      (e.position.Points source.toList ↔ '\n' ∉ rest.take i) := by
  rcases Lexeme.scan_outcome .start source.toList with
    ⟨_, _, _, _, _, hs⟩ | ⟨q, problem, i, ⟨found, rest, hr, hstuck⟩, hs, -⟩
  · cases (tokenize_error_iff.1 h).symm.trans hs
  · cases (tokenize_error_iff.1 h).symm.trans hs
    have hlt := hstuck.lt_length
    obtain ⟨before, hbefore, rfl⟩ := hr.split
    have hiff := Position.right_points_iff before (rest.take i) (rest.drop i)
    rw [List.take_append_drop, List.length_take_of_le hlt.le, hbefore] at hiff
    refine ⟨?_, ?_, found, _, rest, i, hr, hstuck, rfl, hiff⟩
    · simp only [Position.right, Position.start_advance, ← hbefore, List.length_append]
      omega
    · rcases hstuck.unknownEscape_or with hc | rfl
      · exact .inr hc
      · exact .inl (hiff.2 (by simp))

theorem tokenize_error_points_second_line :
    tokenize "\n'\\q'" = .error ⟨.unknownEscape 'q', ⟨2, 2, 2⟩⟩ ∧ 2 < "\n'\\q'".toList.length ∧
      ((Position.mk 2 2 2).Points "\n'\\q'".toList ∨
        ∃ c, LexicalProblem.unknownEscape 'q' = .unknownEscape c) ∧
      ∃ found q rest i, Reaches .start "\n'\\q'".toList found q rest ∧
        Stuck rest (.unknownEscape 'q') i ∧ 2 = q.offset + i ∧
        ((Position.mk 2 2 2).Points "\n'\\q'".toList ↔ '\n' ∉ rest.take i) := by
  have htext : "\n'\\q'".toList = ['\n', '\'', '\\', 'q', '\''] := rfl
  have hcut : Lexeme.cut? ['\'', '\\', 'q', '\''] =
      some ⟨.string, ['\'', '\\', 'q', '\''], []⟩ := rfl
  have h : tokenize "\n'\\q'" = .error ⟨.unknownEscape 'q', ⟨2, 2, 2⟩⟩ := by
    rw [tokenize_error_iff, htext, Lexeme.scan_space rfl,
      Lexeme.scan_longest (Lexeme.cut?_eq_some_iff.1 hcut)]
    rfl
  exact ⟨h, tokenize_error_points h⟩

/-- An escape in the second line of a text is reported as one in the first line. -/
theorem unknownEscape_behind_line :
    tokenize "'a\n\\q'" = .error ⟨.unknownEscape 'q', ⟨1, 4, 3⟩⟩ ∧
      ¬ (Position.mk 1 4 3).Points "'a\n\\q'".toList := by
  have htext : "'a\n\\q'".toList = ['\'', 'a', '\n', '\\', 'q', '\''] := rfl
  have hcut : Lexeme.cut? ['\'', 'a', '\n', '\\', 'q', '\''] =
      some ⟨.string, ['\'', 'a', '\n', '\\', 'q', '\''], []⟩ := rfl
  constructor
  · rw [tokenize_error_iff, htext, Lexeme.scan_longest (Lexeme.cut?_eq_some_iff.1 hcut)]
    rfl
  · intro h
    rw [htext] at h
    exact absurd h.line (by decide)

end TemplateExpr
