import Mathlib.Data.List.Forall2
import TemplateExpr.Proofs.Lexing.Denotation
import TemplateExpr.Token.Tokenize

namespace TemplateExpr

namespace Lexeme

/-- From a place in a text to a later one, and the lexemes between them with their places. -/
inductive Reaches : Position → List Char → List (Position × Lexeme) → Position → List Char → Prop
  | here {p : Position} {cs : List Char} : Reaches p cs [] p cs
  | space {p q : Position} {c : Char} {cs rest : List Char} {found : List (Position × Lexeme)}
      (hc : isSpace c = true) (h : Reaches (p.next c) cs found q rest) :
      Reaches p (c :: cs) found q rest
  | lexeme {p q : Position} {cs rest : List Char} {x : Lexeme} {found : List (Position × Lexeme)}
      (hx : Longest cs x) (h : Reaches (p.advance x.text) x.rest found q rest) :
      Reaches p cs ((p, x) :: found) q rest

/-- What is wrong at the front of a text, and how many characters further on. -/
inductive Stuck : List Char → LexicalProblem → Nat → Prop
  | unterminated {c : Char} {cs : List Char} (hq : isQuote c = true) (h : Barren (c :: cs)) :
      Stuck (c :: cs) .unterminatedString 0
  | invalid {c : Char} {cs : List Char} (hs : isSpace c = false) (hq : isQuote c = false)
      (h : Barren (c :: cs)) : Stuck (c :: cs) (.invalidCharacter c) 0
  | literal {cs : List Char} {x : Lexeme} {problem : LexicalProblem} {i : Nat} (hx : Longest cs x)
      (h : Spoils x.shape x.text problem i) : Stuck cs problem i

def StuckAt (p : Position) (cs : List Char) (q : Position) (problem : LexicalProblem) (i : Nat) :
    Prop :=
  ∃ found rest, Reaches p cs found q rest ∧ Stuck rest problem i

def Gives (found : Position × Lexeme) (t : Token) : Prop :=
  ∃ kind, Denotes found.2.shape found.2.text kind ∧
    t = ⟨kind, String.ofList found.2.text, found.1⟩

variable {p q : Position} {c : Char} {cs rest : List Char} {x : Lexeme} {kind : Token.Kind}
  {found : List (Position × Lexeme)} {problem : LexicalProblem} {i : Nat}

theorem cut?_space (h : isSpace c = true) (cs : List Char) : cut? (c :: cs) = none := by
  simp only [isSpace, Bool.or_eq_true, decide_eq_true_eq] at h
  rcases h with (((rfl | rfl) | rfl) | rfl) | rfl <;> cases cs <;> rfl

theorem Longest.isSpace_eq_false (h : Longest (c :: cs) x) : isSpace c = false := by
  rw [Bool.eq_false_iff]
  intro hc
  cases (cut?_space hc cs).symm.trans (cut?_eq_some_iff.2 h)

theorem Longest.unique {y : Lexeme} (hx : Longest cs x) (hy : Longest cs y) : x = y :=
  Option.some.inj ((cut?_eq_some_iff.2 hx).symm.trans (cut?_eq_some_iff.2 hy))

theorem isSpace_of_isQuote (h : isQuote c = true) : isSpace c = false := by
  simp only [isQuote, Bool.or_eq_true, decide_eq_true_eq] at h
  rcases h with rfl | rfl <;> rfl

theorem Stuck.isSpace_eq_false (h : Stuck (c :: cs) problem i) : isSpace c = false := by
  cases h with
  | unterminated hq _ => exact isSpace_of_isQuote hq
  | invalid hs _ _ => exact hs
  | literal hx _ => exact hx.isSpace_eq_false

theorem isSeparating_of_isSpace (h : isSpace c = true) : Text.isSeparating c = true := by
  simp only [isSpace, Bool.or_eq_true, decide_eq_true_eq] at h
  rcases h with (((rfl | rfl) | rfl) | rfl) | rfl <;> rfl

theorem Spells.visible {text : List Char} {shape : Shape} (h : Spells (c :: text) shape) :
    0x20 < c.toNat ∧ c.toNat < 0x7F := by
  generalize htext : c :: text = written at h
  cases h with
  | sign h =>
      subst htext
      rcases mem_signs_iff.1 h with ⟨c', d, hcd, hk⟩ | ⟨c', hc, hk⟩
      · obtain ⟨rfl, rfl⟩ := List.cons.inj hcd
        unfold pairedSign? at hk
        split at hk <;> first | decide | cases hk
      · obtain ⟨rfl, rfl⟩ := List.cons.inj hc
        unfold singleSign? at hk
        split at hk <;> first | decide | cases hk
  | integer h =>
      have hdigit := isDigit_iff.1 (h.2 c (htext ▸ List.mem_cons_self))
      omega
  | @float whole places hw hp =>
      obtain ⟨d, digits, rfl⟩ := List.exists_cons_of_ne_nil hw.1
      obtain ⟨rfl, -⟩ := List.cons.inj htext
      have hdigit := isDigit_iff.1 (hw.2 c List.mem_cons_self)
      omega
  | string hq h =>
      obtain ⟨rfl, -⟩ := List.cons.inj htext
      simp only [isQuote, Bool.or_eq_true, decide_eq_true_eq] at hq
      rcases hq with rfl | rfl <;> decide
  | word hc h =>
      obtain ⟨rfl, -⟩ := List.cons.inj htext
      have hletter := isWordStart_iff.1 hc
      omega

theorem Longest.isSeparating_eq_false (h : Longest (c :: cs) x) : Text.isSeparating c = false := by
  obtain ⟨d, text, hx⟩ := List.exists_cons_of_ne_nil (cut?_text_ne_nil (cut?_eq_some_iff.2 h))
  obtain ⟨rfl, -⟩ := List.cons.inj (hx ▸ h.append)
  have hvisible := Spells.visible (hx ▸ h.spells)
  simp only [Text.isSeparating, Text.isWhiteSpace, Bool.or_eq_false_iff, Bool.and_eq_false_iff,
    decide_eq_false_iff_not]
  omega

theorem longest_blockStart (rest : List Char) :
    Longest ('<' :: '%' :: rest) ⟨.sign .blockStart, ['<', '%'], rest⟩ :=
  cut?_eq_some_iff.1 rfl

theorem Longest.isBlockStart_iff (hx : Longest cs x) (hd : Denotes x.shape x.text kind) :
    kind.isBlockStart = true ↔ ['<', '%'] <+: cs := by
  constructor
  · intro h
    obtain rfl : kind = .blockStart := by cases kind <;> cases h; rfl
    have hs := hx.spells
    refine ⟨x.rest, ?_⟩
    rw [← hx.append]
    generalize x.text = text, x.shape = shape at hs hd
    cases hd with
    | sign =>
        cases hs with
        | sign h => simp_all [signs]
    | keyword h => simp [keywords] at h
  · rintro ⟨rest, rfl⟩
    cases hx.unique (longest_blockStart rest)
    cases hd
    rfl

theorem scan_space (hc : isSpace c = true) (p : Position) (cs : List Char) :
    scan p (c :: cs) = scan (p.next c) cs := by
  rw [scan, if_pos hc]

theorem scan_longest (hx : Longest cs x) (p : Position) :
    scan p cs = match x.kind p with
      | .error e => .error e
      | .ok kind =>
        (scan (p.advance x.text) x.rest).map (⟨kind, String.ofList x.text, p⟩ :: ·) := by
  have hcut := cut?_eq_some_iff.2 hx
  cases cs with
  | nil => cases hcut
  | cons c cs =>
      rw [scan, if_neg (Bool.eq_false_iff.1 hx.isSpace_eq_false)]
      split
      · rename_i h
        cases h.symm.trans hcut
      · rename_i y h
        cases Option.some.inj (h.symm.trans hcut)
        rfl

theorem scan_denotes (hx : Longest cs x) (hd : Denotes x.shape x.text kind) (p : Position) :
    scan p cs =
      (scan (p.advance x.text) x.rest).map (⟨kind, String.ofList x.text, p⟩ :: ·) := by
  rw [scan_longest hx, kind_of_denotes hx.spells hd]

theorem scan_denotes_ok {ts : List Token} (hx : Longest cs x) (hd : Denotes x.shape x.text kind)
    (h : scan p cs = .ok ts) : ∃ us, scan (p.advance x.text) x.rest = .ok us ∧
      ts = ⟨kind, String.ofList x.text, p⟩ :: us := by
  rw [scan_denotes hx hd] at h
  cases hrest : scan (p.advance x.text) x.rest with
  | error e =>
      rw [hrest] at h
      cases h
  | ok us =>
      rw [hrest] at h
      exact ⟨us, rfl, (Except.ok.inj h).symm⟩

theorem scan_barren (hs : isSpace c = false) (h : Barren (c :: cs)) (p : Position) :
    scan p (c :: cs) =
      .error ⟨if isQuote c then .unterminatedString else .invalidCharacter c, p⟩ := by
  rw [scan, if_neg (Bool.eq_false_iff.1 hs)]
  split
  · rfl
  · rename_i y hy
    cases hy.symm.trans (cut?_eq_none_iff.2 h)

theorem scan_stuck (h : Stuck cs problem i) (p : Position) :
    scan p cs = .error ⟨problem, p.right i⟩ := by
  cases h with
  | unterminated hq h => simp [scan_barren (isSpace_of_isQuote hq) h, hq]
  | invalid hs hq h => simp [scan_barren hs h, hq]
  | literal hx h => rw [scan_longest hx, kind_of_spoils hx.spells h]

theorem not_stuck_of_denotes (hx : Longest cs x) (hd : Denotes x.shape x.text kind) :
    ¬ Stuck cs problem i := by
  intro h
  have hcut := cut?_eq_some_iff.2 hx
  cases h with
  | unterminated _ h | invalid _ _ h => cases hcut.symm.trans (cut?_eq_none_iff.2 h)
  | literal hy hs =>
      cases hx.unique hy
      exact hd.not_spoils hx.spells hs

/-- A scan follows the text: it is at its end, at a space, at a lexeme that denotes something, or
where it does not go on. -/
theorem scan_induction {motive : Position → List Char → Prop} (nil : ∀ p, motive p [])
    (space : ∀ p c cs, isSpace c = true → motive (p.next c) cs → motive p (c :: cs))
    (lexeme : ∀ p cs x kind, Longest cs x → Denotes x.shape x.text kind →
      motive (p.advance x.text) x.rest → motive p cs)
    (stuck : ∀ p cs problem i, Stuck cs problem i → motive p cs) (p : Position) (cs : List Char) :
    motive p cs := by
  induction p, cs using scan.induct with
  | case1 p => exact nil p
  | case2 p c cs hc ih => exact space p c cs hc ih
  | case3 p c cs hc hcut =>
      have hnone := cut?_eq_none_iff.1 hcut
      by_cases hq : isQuote c = true
      · exact stuck p _ _ _ (.unterminated hq hnone)
      · exact stuck p _ _ _ (.invalid (Bool.eq_false_iff.2 hc) (Bool.eq_false_iff.2 hq) hnone)
  | case4 p c cs hc x hcut e he =>
      have hx := cut?_eq_some_iff.1 hcut
      rcases hx.spells.denotes_or_spoils with ⟨kind, hd⟩ | ⟨problem, i, hs⟩
      · cases he.symm.trans (kind_of_denotes hx.spells hd p)
      · exact stuck p _ problem i (.literal hx hs)
  | case5 p c cs hc x hcut kind hk ih =>
      have hx := cut?_eq_some_iff.1 hcut
      rcases hx.spells.denotes_or_spoils with ⟨kind, hd⟩ | ⟨problem, i, hs⟩
      · exact lexeme p _ x kind hx hd ih
      · cases hk.symm.trans (kind_of_spoils hx.spells hs p)

theorem stuckAt_space_iff (hc : isSpace c = true) :
    StuckAt p (c :: cs) q problem i ↔ StuckAt (p.next c) cs q problem i := by
  constructor
  · rintro ⟨found, rest, hr, h⟩
    cases hr with
    | here => cases hc.symm.trans h.isSpace_eq_false
    | space _ hr => exact ⟨found, rest, hr, h⟩
    | lexeme hx _ => cases hc.symm.trans hx.isSpace_eq_false
  · rintro ⟨found, rest, hr, h⟩
    exact ⟨found, rest, .space hc hr, h⟩

theorem stuckAt_denotes_iff (hx : Longest cs x) (hd : Denotes x.shape x.text kind) :
    StuckAt p cs q problem i ↔ StuckAt (p.advance x.text) x.rest q problem i := by
  constructor
  · rintro ⟨found, rest, hr, h⟩
    cases hr with
    | here => exact absurd h (not_stuck_of_denotes hx hd)
    | space hc _ => cases hc.symm.trans hx.isSpace_eq_false
    | lexeme hy hr =>
        cases hx.unique hy
        exact ⟨_, rest, hr, h⟩
  · rintro ⟨found, rest, hr, h⟩
    exact ⟨_, rest, .lexeme hx hr, h⟩

theorem Reaches.split (h : Reaches p cs found q rest) :
    ∃ before, before ++ rest = cs ∧ q = p.advance before := by
  induction h with
  | here => exact ⟨[], rfl, rfl⟩
  | @space p q c cs rest found _ _ ih =>
      obtain ⟨before, rfl, rfl⟩ := ih
      exact ⟨c :: before, rfl, rfl⟩
  | @lexeme p q cs rest x found hx _ ih =>
      obtain ⟨before, hbefore, rfl⟩ := ih
      refine ⟨x.text ++ before, ?_, (p.advance_append _ _).symm⟩
      rw [List.append_assoc, hbefore, hx.append]

theorem StuckAt.offset_le (h : StuckAt p cs q problem i) : p.offset ≤ q.offset := by
  obtain ⟨found, rest, hr, -⟩ := h
  obtain ⟨before, -, rfl⟩ := hr.split
  rw [Position.advance_offset]
  exact Nat.le_add_right _ _

theorem StuckAt.unique {q' : Position} {problem' : LexicalProblem} {i' : Nat}
    (h : StuckAt p cs q problem i) (h' : StuckAt p cs q' problem' i')
    (hq : q.offset = q'.offset) : problem = problem' ∧ i = i' := by
  obtain ⟨found, rest, hr, hstuck⟩ := h
  obtain ⟨found', rest', hr', hstuck'⟩ := h'
  obtain ⟨before, hb, rfl⟩ := hr.split
  obtain ⟨before', hb', rfl⟩ := hr'.split
  simp only [Position.advance_offset, Nat.add_left_cancel_iff] at hq
  obtain rfl := (List.append_inj (hb.trans hb'.symm) hq).2
  have he := (scan_stuck hstuck .start).symm.trans (scan_stuck hstuck' .start)
  simpa [Position.right] using he

theorem Reaches.scan_map {ts : List Token} (h : Reaches p cs found q rest)
    (hg : List.Forall₂ Gives found ts) : scan p cs = (scan q rest).map (ts ++ ·) := by
  induction h generalizing ts with
  | @here p cs =>
      cases hg
      cases scan p cs <;> rfl
  | space hc _ ih => rw [scan_space hc, ih hg]
  | @lexeme p q cs rest x found hx _ ih =>
      cases hg with
      | cons ht hts =>
          obtain ⟨kind, hd, rfl⟩ := ht
          rw [scan_denotes hx hd, ih hts]
          cases scan q rest <;> rfl

theorem Reaches.scan_ok {ts : List Token} (h : Reaches p cs found q rest)
    (hok : scan p cs = .ok ts) : ∃ us, scan q rest = .ok us := by
  induction h generalizing ts with
  | here => exact ⟨ts, hok⟩
  | space hc _ ih => exact ih (scan_space hc .. ▸ hok)
  | @lexeme p q cs rest x found hx _ ih =>
      rw [scan_longest hx] at hok
      split at hok
      · cases hok
      · cases hs : scan (p.advance x.text) x.rest with
        | error e => simp [hs, Except.map] at hok
        | ok us => exact ih hs

theorem StuckAt.not_ok {ts : List Token} (h : StuckAt p cs q problem i) :
    scan p cs ≠ .ok ts := by
  obtain ⟨found, rest, hr, hstuck⟩ := h
  intro hok
  obtain ⟨us, hus⟩ := hr.scan_ok hok
  cases hus.symm.trans (scan_stuck hstuck q)

/-- There are tokens, or the scan does not go on at some place and at none further left. -/
theorem scan_outcome (p : Position) (cs : List Char) :
    (∃ found q ts, Reaches p cs found q [] ∧ List.Forall₂ Gives found ts ∧ scan p cs = .ok ts) ∨
      ∃ q problem i, StuckAt p cs q problem i ∧ scan p cs = .error ⟨problem, q.right i⟩ ∧
        ∀ q' problem' i', StuckAt p cs q' problem' i' → q.offset ≤ q'.offset := by
  induction p, cs using scan_induction with
  | nil p => exact .inl ⟨[], p, [], .here, .nil, by rw [scan]⟩
  | space p c cs hc ih =>
      simp only [scan_space hc, stuckAt_space_iff hc]
      rcases ih with ⟨found, q, ts, hr, hg, hs⟩ | hstuck
      · exact .inl ⟨found, q, ts, .space hc hr, hg, hs⟩
      · exact .inr hstuck
  | lexeme p cs x kind hx hd ih =>
      simp only [scan_denotes hx hd, stuckAt_denotes_iff hx hd]
      rcases ih with ⟨found, q, ts, hr, hg, hs⟩ | ⟨q, problem, i, h, hs, hleft⟩
      · refine .inl ⟨_, q, _, .lexeme hx hr, .cons ⟨kind, hd, rfl⟩ hg, ?_⟩
        rw [hs, Except.map]
      · exact .inr ⟨q, problem, i, h, by rw [hs, Except.map], hleft⟩
  | stuck p cs problem i h =>
      exact .inr ⟨p, problem, i, ⟨[], cs, .here, h⟩, scan_stuck h p, fun _ _ _ h => h.offset_le⟩

theorem scan_ok_iff {ts : List Token} : scan p cs = .ok ts ↔
    ∃ found q, Reaches p cs found q [] ∧ List.Forall₂ Gives found ts := by
  constructor
  · intro h
    rcases scan_outcome p cs with ⟨found, q, us, hr, hg, hs⟩ | ⟨q, problem, i, hstuck, -, -⟩
    · cases h.symm.trans hs
      exact ⟨found, q, hr, hg⟩
    · exact absurd h hstuck.not_ok
  · rintro ⟨found, q, hr, hg⟩
    rw [hr.scan_map hg, scan, Except.map, List.append_nil]

theorem scan_fails_iff : (∃ e, scan p cs = .error e) ↔ ∃ q problem i, StuckAt p cs q problem i := by
  constructor
  · rintro ⟨e, he⟩
    rcases scan_outcome p cs with ⟨_, _, _, _, _, hs⟩ | ⟨q, problem, i, h, -, -⟩
    · cases he.symm.trans hs
    · exact ⟨q, problem, i, h⟩
  · rintro ⟨q, problem, i, h⟩
    cases hs : scan p cs with
    | error e => exact ⟨e, rfl⟩
    | ok ts => exact absurd hs h.not_ok

theorem scan_error_iff {offset : Nat} :
    (∃ e, scan p cs = .error e ∧ e.problem = problem ∧ e.position.offset = offset) ↔
      ∃ q i, StuckAt p cs q problem i ∧ offset = q.offset + i ∧
        ∀ q' problem' i', StuckAt p cs q' problem' i' → q.offset ≤ q'.offset := by
  constructor
  · rintro ⟨e, he, rfl, rfl⟩
    rcases scan_outcome p cs with ⟨_, _, _, _, _, hs⟩ | ⟨q, problem, i, h, hs, hleft⟩
    · cases he.symm.trans hs
    · cases he.symm.trans hs
      exact ⟨q, i, h, rfl, hleft⟩
  · rintro ⟨q, i, h, rfl, hleft⟩
    rcases scan_outcome p cs with ⟨_, _, _, _, _, hs⟩ | ⟨q', problem', i', h', hs', hleft'⟩
    · exact absurd hs h.not_ok
    · -- both places are leftmost, so the same is wrong at both
      have hq : q.offset = q'.offset :=
        Nat.le_antisymm (hleft _ _ _ h') (hleft' _ _ _ h)
      obtain ⟨rfl, rfl⟩ := h.unique h' hq
      exact ⟨_, hs', rfl, congrArg (· + i) hq.symm⟩

end Lexeme

open Lexeme (Gives Longest Reaches StuckAt isSpace)

/-- The first token says whether a text begins as a block, whatever else is taken for a gap in front
of it. -/
theorem isBlock_iff_of_gap {p : Position} {cs : List Char} {ts : List Token} {isGap : Char → Bool}
    (hspace : ∀ c, isSpace c = true → isGap c = true)
    (hlexeme : ∀ c cs x, Longest (c :: cs) x → isGap c = false) (h : scan p cs = .ok ts) :
    Token.isBlock ts = true ↔ ['<', '%'] <+: cs.dropWhile isGap := by
  induction p, cs using Lexeme.scan_induction with
  | nil p =>
      rw [scan] at h
      cases h
      simp [Token.isBlock]
  | space p c cs hc ih =>
      rw [Lexeme.scan_space hc] at h
      rw [ih h, List.dropWhile_cons_of_pos (hspace c hc)]
  | lexeme p cs x kind hx hd ih =>
      obtain ⟨us, -, rfl⟩ := Lexeme.scan_denotes_ok hx hd h
      have hdrop : cs.dropWhile isGap = cs := by
        cases cs with
        | nil => rfl
        | cons c cs => exact List.dropWhile_cons_of_neg (Bool.eq_false_iff.1 (hlexeme c cs x hx))
      rw [hdrop, ← hx.isBlockStart_iff hd, Token.isBlock]
  | stuck p cs problem i hstuck => cases h.symm.trans (Lexeme.scan_stuck hstuck p)

theorem isBlock_iff {p : Position} {cs : List Char} {ts : List Token} (h : scan p cs = .ok ts) :
    Token.isBlock ts = true ↔ ['<', '%'] <+: cs.dropWhile isSpace :=
  isBlock_iff_of_gap (fun _ => id) (fun _ _ _ hx => hx.isSpace_eq_false) h

/-- White space that is no space of the grammar is nowhere in front of a source that has tokens. -/
theorem startsBlock_eq {source : String} {ts : List Token} (h : scan .start source.toList = .ok ts) :
    startsBlock source = Token.isBlock ts := by
  rw [Bool.eq_iff_iff, startsBlock, List.isPrefixOf_iff_prefix]
  exact (isBlock_iff_of_gap (fun _ => Lexeme.isSeparating_of_isSpace)
    (fun _ _ _ hx => hx.isSeparating_eq_false) h).symm

theorem tokenize_eq (source : String) :
    tokenize source = (scan .start source.toList).map fun ts =>
      if Token.isBlock ts then ts
      else ⟨.blockStart, "", .start⟩ :: ts ++
        [⟨.blockEnd, "", Position.start.advance source.toList⟩] := by
  rw [tokenize]
  cases h : scan .start source.toList with
  | error e => rfl
  | ok ts => rw [Except.map, Except.map, startsBlock_eq h]

theorem tokenize_ok_iff {source : String} {tokens : List Token} : tokenize source = .ok tokens ↔
    ∃ ts, scan .start source.toList = .ok ts ∧
      tokens = if Token.isBlock ts then ts
        else ⟨.blockStart, "", .start⟩ :: ts ++
          [⟨.blockEnd, "", Position.start.advance source.toList⟩] := by
  rw [tokenize_eq]
  cases scan .start source.toList with
  | error e => simp [Except.map]
  | ok ts =>
      constructor
      · rintro ⟨⟩
        exact ⟨ts, rfl, rfl⟩
      · rintro ⟨us, hus, rfl⟩
        cases hus
        rfl

theorem tokenize_error_iff {source : String} {e : LexicalError} :
    tokenize source = .error e ↔ scan .start source.toList = .error e := by
  unfold tokenize
  cases scan .start source.toList <;> simp [Except.map]

/-- At every place that is not a space the longest lexeme is taken, and the tokens are what the
lexemes give. There are none if a place is reached where no lexeme begins or one that denotes
nothing, and the leftmost of these places is reported. -/
theorem tokenize_longest (source : String) :
    (∀ tokens, tokenize source = .ok tokens ↔
      ∃ found q ts, Reaches .start source.toList found q [] ∧ List.Forall₂ Gives found ts ∧
        tokens = if Token.isBlock ts then ts
          else ⟨.blockStart, "", .start⟩ :: ts ++
            [⟨.blockEnd, "", Position.start.advance source.toList⟩]) ∧
    ((∃ e, tokenize source = .error e) ↔
      ∃ q problem i, StuckAt .start source.toList q problem i) ∧
    ∀ problem offset,
      (∃ e, tokenize source = .error e ∧ e.problem = problem ∧ e.position.offset = offset) ↔
        ∃ q i, StuckAt .start source.toList q problem i ∧ offset = q.offset + i ∧
          ∀ q' problem' i', StuckAt .start source.toList q' problem' i' →
            q.offset ≤ q'.offset := by
  refine ⟨fun tokens => ?_, (exists_congr fun _ => tokenize_error_iff).trans Lexeme.scan_fails_iff,
    fun _ _ => (exists_congr fun _ => and_congr_left' tokenize_error_iff).trans
      Lexeme.scan_error_iff⟩
  rw [tokenize_ok_iff]
  constructor
  · rintro ⟨ts, hs, rfl⟩
    obtain ⟨found, q, hr, hg⟩ := Lexeme.scan_ok_iff.1 hs
    exact ⟨found, q, ts, hr, hg, rfl⟩
  · rintro ⟨found, q, ts, hr, hg, rfl⟩
    exact ⟨ts, Lexeme.scan_ok_iff.2 ⟨found, q, hr, hg⟩, rfl⟩

end TemplateExpr
