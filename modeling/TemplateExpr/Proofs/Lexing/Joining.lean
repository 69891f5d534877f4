import TemplateExpr.Proofs.Lexing.Scan

namespace TemplateExpr

namespace Lexeme

/-- A character that is only ever the first one of a lexeme, or inside a quoted text. -/
def Divides (d : Char) : Prop :=
  ∀ c text shape, Spells (c :: text) shape → isQuote c = false → d ∉ text

/-- A text that does not lengthen a lexeme in front of it. -/
def Divided (tail : List Char) : Prop := ∀ d ∈ tail.head?, Divides d

variable {c d quote : Char} {cs text other rest tail : List Char} {kind : Token.Kind}
  {shape : Shape} {x : Lexeme}

theorem mem_of_pairedSign (h : pairedSign? c d = some kind) : d ∈ ['%', '>', '&', '|', '='] := by
  unfold pairedSign? at h
  split at h <;> cases h <;> simp

theorem divides_of (hpart : isWordPart d = false) (hpoint : d ≠ '.')
    (hsecond : d ∉ ['%', '>', '&', '|', '=']) : Divides d := by
  have hdigit : isDigit d = false := (Bool.or_eq_false_iff.1 hpart).2
  intro c text shape h hq hd
  have hmem : d ∈ c :: text := List.mem_cons_of_mem c hd
  generalize hwhole : c :: text = whole at h hmem
  cases h with
  | sign h =>
      rcases mem_signs_iff.1 h with ⟨c', d', rfl, hk⟩ | ⟨c', rfl, -⟩
      · cases hwhole
        rw [← List.mem_singleton.1 hd] at hk
        exact hsecond (mem_of_pairedSign hk)
      · cases hwhole
        cases hd
  | integer h => cases hdigit.symm.trans (h.2 d hmem)
  | float hw hp =>
      rcases List.mem_append.1 hmem with hmem | hmem
      · cases hdigit.symm.trans (hw.2 d hmem)
      · rcases List.mem_cons.1 hmem with hmem | hmem
        · exact hpoint hmem
        · cases hdigit.symm.trans (hp.2 d hmem)
  | string hq' _ =>
      cases hwhole
      cases hq.symm.trans hq'
  | word _ h =>
      cases hwhole
      cases hpart.symm.trans (h d hd)

theorem divides_space (h : isSpace d = true) : Divides d := by
  simp only [isSpace, Bool.or_eq_true, decide_eq_true_eq] at h
  rcases h with (((rfl | rfl) | rfl) | rfl) | rfl
  all_goals exact divides_of rfl (by decide) (by decide)

theorem divides_roundOpen : Divides '(' := divides_of rfl (by decide) (by decide)

theorem divides_roundClose : Divides ')' := divides_of rfl (by decide) (by decide)

theorem divided_nil : Divided [] := by simp [Divided]

theorem divided_cons (h : Divides d) (rest : List Char) : Divided (d :: rest) := by
  simpa [Divided] using h

theorem divided_spaces {gap : List Char} (hgap : ∀ c ∈ gap, isSpace c = true) (h : Divided tail) :
    Divided (gap ++ tail) := by
  cases gap with
  | nil => exact h
  | cons c gap => exact divided_cons (divides_space (hgap c List.mem_cons_self)) _

theorem Spells.body (h : Spells (quote :: text) shape) (hq : isQuote quote = true) :
    ∃ body, Quotable quote body ∧ text = body ++ [quote] := by
  have hdigit := isDigit_of_isQuote hq
  generalize hwhole : quote :: text = whole at h
  cases h with
  | sign h =>
      rcases mem_signs_iff.1 h with ⟨c, d, rfl, hk⟩ | ⟨c, rfl, hk⟩
      · cases hwhole
        cases hq.symm.trans (not_other_of_pairedSign hk).2.1
      · cases hwhole
        cases hq.symm.trans (not_other_of_singleSign hk).2.1
  | integer h => cases hdigit.symm.trans (h.2 quote (hwhole ▸ List.mem_cons_self))
  | float hw hp =>
      obtain ⟨c, digits, rfl⟩ := List.exists_cons_of_ne_nil hw.1
      cases hwhole
      cases hdigit.symm.trans (hw.2 quote List.mem_cons_self)
  | string _ h =>
      cases hwhole
      exact ⟨_, h, rfl⟩
  | word hc _ =>
      cases hwhole
      cases hq.symm.trans (isQuote_of_isWordStart hc)

theorem Spells.eq_of_quote {shape' : Shape} {rest' : List Char} (hq : isQuote quote = true)
    (h : Spells (quote :: text) shape) (h' : Spells (quote :: other) shape')
    (he : text ++ rest = other ++ rest') : text = other := by
  obtain ⟨body, hbody, rfl⟩ := h.body hq
  obtain ⟨body', hbody', rfl⟩ := h'.body hq
  rw [List.append_assoc, List.append_assoc, List.singleton_append, List.singleton_append] at he
  have hread := quotedBody_of_quotable hq hbody rest
  rw [he, quotedBody_of_quotable hq hbody' rest'] at hread
  exact (Prod.mk.inj (Option.some.inj hread)).1.symm

theorem Longest.length_le_of_divided (h : Longest cs x) (hd : Divides d)
    (hs : Spells (cs ++ d :: rest) shape) : (cs ++ d :: rest).length ≤ x.text.length := by
  have hne := cut?_text_ne_nil (cut?_eq_some_iff.2 h)
  obtain ⟨c, front, hfront⟩ := List.exists_cons_of_ne_nil hne
  have hcs : cs = c :: (front ++ x.rest) := by rw [← h.append, hfront, List.cons_append]
  rw [hcs, List.cons_append] at hs
  cases hq : isQuote c with
  | false => exact absurd (by simp) (hd c _ shape hs hq)
  | true =>
      -- both begin with the quote, so they are the same quoted text
      have hx := h.spells
      rw [hfront] at hx
      have hwhole : front ++ (x.rest ++ d :: rest) = front ++ x.rest ++ d :: rest ++ [] := by simp
      have he := hx.eq_of_quote hq hs hwhole
      rw [hcs, hfront, List.cons_append, ← he]

theorem Longest.append_divided (h : Longest cs x) (ht : Divided tail) :
    Longest (cs ++ tail) ⟨x.shape, x.text, x.rest ++ tail⟩ where
  spells := h.spells
  append := by rw [← List.append_assoc, h.append]
  longest := by
    intro text shape hs hprefix
    rcases List.prefix_or_prefix_of_prefix hprefix (List.prefix_append cs tail) with hle | ⟨more, rfl⟩
    · exact h.longest text shape hs hle
    · cases more with
      | nil =>
          rw [List.append_nil] at hs ⊢
          exact h.longest cs shape hs (List.prefix_refl cs)
      | cons d more =>
          obtain ⟨rest, rfl⟩ := (List.prefix_append_right_inj cs).1 hprefix
          exact h.length_le_of_divided (ht d rfl) hs

/-- Nothing that comes behind a text without a lexeme in front completes one. A quoted text would have
to end behind it, so there must be no quote. -/
theorem Barren.append_divided (h : Barren (c :: cs)) (ht : Divided tail)
    (hquote : ∀ d ∈ tail, isQuote d = false) : Barren (c :: cs ++ tail) := by
  intro text shape hs hprefix
  rcases List.prefix_or_prefix_of_prefix hprefix (List.prefix_append (c :: cs) tail) with
    hle | ⟨more, rfl⟩
  · exact h text shape hs hle
  · cases more with
    | nil =>
        rw [List.append_nil] at hs
        exact h _ shape hs (List.prefix_refl _)
    | cons d more =>
        obtain ⟨rest, rfl⟩ := (List.prefix_append_right_inj (c :: cs)).1 hprefix
        cases hc : isQuote c with
        | false => exact ht d rfl c _ shape hs hc (by simp)
        | true =>
            obtain ⟨body, -, hbody⟩ := Spells.body hs hc
            have hlast : (d :: more).getLast? = some c := by
              simpa using congrArg List.getLast? hbody
            have hmem := List.mem_of_getLast? hlast
            cases hc.symm.trans (hquote c (List.mem_append_left rest hmem))

theorem Stuck.append_divided {problem : LexicalProblem} {i : Nat} (h : Stuck cs problem i)
    (ht : Divided tail) (hquote : ∀ d ∈ tail, isQuote d = false) : Stuck (cs ++ tail) problem i := by
  cases h with
  | unterminated hq h => exact .unterminated hq (h.append_divided ht hquote)
  | invalid hs hq h => exact .invalid hs hq (h.append_divided ht hquote)
  | literal hx h => exact .literal (hx.append_divided ht) h

theorem Spells.longest (h : Spells text shape) : Longest text ⟨shape, text, []⟩ where
  spells := h
  append := List.append_nil text
  longest := fun _ _ _ hprefix => hprefix.length_le

theorem longest_roundOpen (rest : List Char) :
    Longest ('(' :: rest) ⟨.sign .roundOpen, ['('], rest⟩ :=
  cut?_eq_some_iff.1 (by cases rest <;> rfl)

theorem longest_roundClose (rest : List Char) :
    Longest (')' :: rest) ⟨.sign .roundClose, [')'], rest⟩ :=
  cut?_eq_some_iff.1 (by cases rest <;> rfl)

end Lexeme

open Lexeme (Denotes Divided Longest Spells isSpace)

def Token.unplaced (t : Token) : Kind × String := (t.kind, t.text)

theorem scan_append {p : Position} {cs tail : List Char} {ts : List Token}
    (h : scan p cs = .ok ts) (ht : Divided tail) (q : Position) :
    ∃ us, us.map Token.unplaced = ts.map Token.unplaced ∧
      scan q (cs ++ tail) = (scan (q.advance cs) tail).map (us ++ ·) := by
  induction p, cs using Lexeme.scan_induction generalizing ts q with
  | nil p =>
      rw [scan] at h
      cases h
      refine ⟨[], rfl, ?_⟩
      cases hs : scan q tail <;> simp [hs, Except.map]
  | space p c cs hc ih =>
      rw [Lexeme.scan_space hc] at h
      obtain ⟨us, hus, hs⟩ := ih h (q.next c)
      exact ⟨us, hus, (Lexeme.scan_space hc _ _).trans hs⟩
  | lexeme p cs x kind hx hd ih =>
      obtain ⟨ts, hrest, rfl⟩ := Lexeme.scan_denotes_ok hx hd h
      obtain ⟨us, hus, hs⟩ := ih hrest (q.advance x.text)
      refine ⟨⟨kind, String.ofList x.text, q⟩ :: us, by simp [Token.unplaced, hus], ?_⟩
      rw [Lexeme.scan_denotes (hx.append_divided ht) hd, hs, ← Position.advance_append, hx.append]
      cases scan (q.advance cs) tail <;> rfl
  | stuck p cs problem i hstuck => cases h.symm.trans (Lexeme.scan_stuck hstuck p)

/-- What is wrong with a text is wrong with it in front of another one too, and at any place. -/
theorem scan_error_append {p : Position} {cs tail : List Char} {e : LexicalError}
    (h : scan p cs = .error e) (ht : Divided tail) (hquote : ∀ d ∈ tail, Lexeme.isQuote d = false)
    (q : Position) : ∃ e', scan q (cs ++ tail) = .error e' ∧ e'.problem = e.problem := by
  induction p, cs using Lexeme.scan_induction generalizing q with
  | nil p =>
      rw [scan] at h
      cases h
  | space p c cs hc ih =>
      rw [Lexeme.scan_space hc] at h
      obtain ⟨e', he', hproblem⟩ := ih h (q.next c)
      exact ⟨e', (Lexeme.scan_space hc _ _).trans he', hproblem⟩
  | lexeme p cs x kind hx hd ih =>
      rw [Lexeme.scan_denotes hx hd] at h
      cases hrest : scan (p.advance x.text) x.rest with
      | ok ts =>
          rw [hrest] at h
          cases h
      | error e₀ =>
          rw [hrest] at h
          cases h
          obtain ⟨e', he', hproblem⟩ := ih hrest (q.advance x.text)
          refine ⟨e', ?_, hproblem⟩
          rw [Lexeme.scan_denotes (hx.append_divided ht) hd, he', Except.map]
  | stuck p cs problem i hstuck =>
      cases h.symm.trans (Lexeme.scan_stuck hstuck p)
      exact ⟨_, Lexeme.scan_stuck (hstuck.append_divided ht hquote) q, rfl⟩

/-- A text that is scanned into these tokens wherever it stands. -/
def Scans (cs : List Char) (found : List (Token.Kind × String)) : Prop :=
  ∀ p, ∃ ts, scan p cs = .ok ts ∧ ts.map Token.unplaced = found

namespace Scans

variable {c : Char} {cs tail text : List Char} {found others : List (Token.Kind × String)}
  {kind : Token.Kind} {x : Lexeme}

theorem of_scan {p : Position} {ts : List Token} (h : scan p cs = .ok ts) :
    Scans cs (ts.map Token.unplaced) := by
  intro q
  obtain ⟨us, hus, hs⟩ := scan_append h Lexeme.divided_nil q
  rw [List.append_nil, scan, Except.map, List.append_nil] at hs
  exact ⟨us, hs, hus⟩

theorem append (h : Scans cs found) (h' : Scans tail others) (ht : Divided tail) :
    Scans (cs ++ tail) (found ++ others) := by
  intro p
  obtain ⟨ts, hs, rfl⟩ := h p
  obtain ⟨us, hus, hscan⟩ := scan_append hs ht p
  obtain ⟨vs, hvs, rfl⟩ := h' (p.advance cs)
  refine ⟨us ++ vs, ?_, by rw [List.map_append, hus]⟩
  rw [hscan, hvs, Except.map]

theorem space (hc : isSpace c = true) (h : Scans cs found) : Scans (c :: cs) found := by
  intro p
  obtain ⟨ts, hs, hts⟩ := h (p.next c)
  exact ⟨ts, (Lexeme.scan_space hc p cs).trans hs, hts⟩

theorem spaces {gap : List Char} (hgap : ∀ c ∈ gap, isSpace c = true) (h : Scans cs found) :
    Scans (gap ++ cs) found := by
  induction gap with
  | nil => exact h
  | cons c gap ih =>
      obtain ⟨hc, hgap⟩ := List.forall_mem_cons.1 hgap
      exact (ih hgap).space hc

theorem lexeme (hx : Longest cs x) (hd : Denotes x.shape x.text kind) (h : Scans x.rest found) :
    Scans cs ((kind, String.ofList x.text) :: found) := by
  intro p
  obtain ⟨ts, hs, rfl⟩ := h (p.advance x.text)
  refine ⟨⟨kind, String.ofList x.text, p⟩ :: ts, ?_, rfl⟩
  rw [Lexeme.scan_denotes hx hd, hs, Except.map]

theorem nil : Scans [] [] := fun _ => ⟨[], by rw [scan], rfl⟩

theorem of_spells {shape : Lexeme.Shape} (hs : Spells text shape) (hd : Denotes shape text kind) :
    Scans text [(kind, String.ofList text)] :=
  nil.lexeme hs.longest hd

theorem enclosed (h : Scans cs found) (h' : Scans tail others) :
    Scans ('(' :: (cs ++ ')' :: tail)) ((.roundOpen, "(") :: (found ++ (.roundClose, ")") :: others)) := by
  have hclose : Scans (')' :: tail) ((.roundClose, ")") :: others) :=
    lexeme (Lexeme.longest_roundClose tail) .sign h'
  have hinner := h.append hclose (Lexeme.divided_cons Lexeme.divides_roundClose tail)
  exact lexeme (Lexeme.longest_roundOpen _) .sign hinner

end Scans

end TemplateExpr
