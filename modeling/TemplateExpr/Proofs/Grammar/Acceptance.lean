import TemplateExpr.Proofs.Grammar.Completeness
import TemplateExpr.Proofs.Grammar.Soundness
import TemplateExpr.Source

namespace TemplateExpr.Grammar

open Parse

theorem parse_yields_iff {ts rest : List Token} {e : Expr} :
    (parse ts).Yields e rest ↔ ∃ p, ts = p ++ rest ∧ AtEnd rest ∧ Derives maxNesting 1 p e := by
  rw [parse_yields]
  constructor
  · rintro ⟨he, hend⟩
    obtain ⟨p, hp, hd, -⟩ := expression_sound (Nat.zero_le 5) he
    exact ⟨p, hp, hend, hd⟩
  · rintro ⟨p, rfl, hend, hd⟩
    exact ⟨(reads_of_derives hd).expression Nat.zero_lt_one hend.stops, hend⟩

theorem parseBlock_eq_ok_iff {ts : List Token} {e : Expr} :
    parseBlock ts = .ok e ↔
      ∃ opening p closing, ts = opening :: (p ++ [closing]) ∧ opening.kind = .blockStart ∧
        closing.kind = .blockEnd ∧ Derives maxNesting 1 p e := by
  constructor
  · intro h
    unfold parseBlock at h
    split at h
    · cases h
    · rename_i t ts
      cases ht : t.kind.isBlockStart with
      | false => simp [ht] at h
      | true =>
          simp only [ht, if_true] at h
          split at h
          · cases h
          · cases h
          · rename_i closing hr hrest
            obtain rfl := Except.ok.inj h
            obtain ⟨p, rfl, hend, hd⟩ := parse_yields_iff.1 ⟨hr, hrest⟩
            exact ⟨t, p, closing, rfl, Token.Kind.isBlockStart_iff.1 ht, hend closing rfl, hd⟩
          · cases h
  · rintro ⟨opening, p, closing, rfl, ho, hc, hd⟩
    have hend : AtEnd [closing] := by simpa [AtEnd] using hc
    obtain ⟨hr, hrest⟩ := parse_yields_iff.2 ⟨p, rfl, hend, hd⟩
    simp [parseBlock, Token.Kind.isBlockStart_iff.2 ho, hr, hrest]

theorem mapError_eq_ok_iff {ε ε' α : Type} {f : ε → ε'} {x : Except ε α} {a : α} :
    x.mapError f = .ok a ↔ x = .ok a := by
  cases x with
  | error e => exact ⟨nofun, nofun⟩
  | ok b =>
      change Except.ok b = Except.ok a ↔ _
      rw [Except.ok.injEq, Except.ok.injEq]

theorem parseSource_eq_ok_iff {source : String} {e : Expr} :
    parseSource source = .ok e ↔ ∃ ts, tokenize source = .ok ts ∧ parseBlock ts = .ok e := by
  unfold parseSource
  cases tokenize source with
  | error i => simp
  | ok ts => simp [mapError_eq_ok_iff]

/-- A stream is read up to the end of a phrase, which has to be the end of the tokens or of a block;
and a source has a tree when a phrase with this tree makes up its block. -/
theorem parse_iff_derives :
    (∀ ts rest e, TokenStream.parse ⟨ts⟩ = (.ok e, ⟨rest⟩) ↔
      ∃ p, ts = p ++ rest ∧ (rest = [] ∨ ∃ t more, rest = t :: more ∧ t.kind = .blockEnd) ∧
        (∀ t ∈ p, t.kind ≠ .blockEnd) ∧ Derives 64 1 p e) ∧
    (∀ source e, parseSource source = .ok e ↔
      ∃ opening p closing, tokenize source = .ok (opening :: (p ++ [closing])) ∧
        opening.kind = .blockStart ∧ closing.kind = .blockEnd ∧
        (∀ t ∈ p, t.kind ≠ .blockEnd) ∧ Derives 64 1 p e) := by
  constructor
  · intro ts rest e
    have hstream : TokenStream.parse ⟨ts⟩ = (.ok e, ⟨rest⟩) ↔ (parse ts).Yields e rest := by
      simp [TokenStream.parse, Reading.Yields]
    have hend : (rest = [] ∨ ∃ t more, rest = t :: more ∧ t.kind = .blockEnd) ↔ AtEnd rest := by
      cases rest <;> simp [AtEnd]
    rw [hstream, parse_yields_iff, hend]
    constructor
    · rintro ⟨p, hp, hr, hd⟩
      exact ⟨p, hp, hr, hd.kind_ne_blockEnd, hd⟩
    · rintro ⟨p, hp, hr, -, hd⟩
      exact ⟨p, hp, hr, hd⟩
  · intro source e
    rw [parseSource_eq_ok_iff]
    constructor
    · rintro ⟨ts, ht, hb⟩
      obtain ⟨opening, p, closing, rfl, ho, hc, hd⟩ := parseBlock_eq_ok_iff.1 hb
      exact ⟨opening, p, closing, ht, ho, hc, hd.kind_ne_blockEnd, hd⟩
    · rintro ⟨opening, p, closing, ht, ho, hc, -, hd⟩
      exact ⟨_, ht, parseBlock_eq_ok_iff.2 ⟨opening, p, closing, rfl, ho, hc, hd⟩⟩

end TemplateExpr.Grammar
