import Mathlib.Data.Nat.Digits.Lemmas
import TemplateExpr.Proofs.Lexing.Joining

namespace TemplateExpr

namespace Lexeme

def baseTen (digits : List Char) : Nat := Nat.ofDigits 10 (digits.reverse.map fun c => c.toNat - 48)

theorem decimal_eq_baseTen (digits : List Char) : decimal digits = baseTen digits := by
  induction digits with
  | nil => rfl
  | cons c digits ih =>
      rw [decimal, Nat.ofDigitChars_cons, Nat.ofDigitChars_eq_ofDigitChars_zero, ← decimal, ih,
        baseTen, baseTen, List.reverse_cons, List.map_append, Nat.ofDigits_append, List.length_map,
        List.length_reverse, List.map_singleton, Nat.ofDigits_singleton, Nat.mul_zero, Nat.zero_add,
        Nat.add_comm]
      rfl

theorem decimal_lt_pow {digits : List Char} (h : ∀ c ∈ digits, isDigit c = true) :
    decimal digits < 10 ^ digits.length := by
  have hvalues : ∀ d ∈ digits.reverse.map fun c => c.toNat - 48, d < 10 := by
    intro d hd
    obtain ⟨c, hc, rfl⟩ := List.mem_map.1 hd
    have := isDigit_iff.1 (h c (List.mem_reverse.1 hc))
    omega
  have hlt := Nat.ofDigits_lt_base_pow_length (by decide : 1 < 10) hvalues
  rwa [List.length_map, List.length_reverse, ← baseTen, ← decimal_eq_baseTen] at hlt

theorem digits_toDigits (n : Nat) : Digits (Nat.toDigits 10 n) := by
  refine ⟨Nat.toDigits_ne_nil, fun c hc => ?_⟩
  have hdigit := Nat.isDigit_of_mem_toDigits (by decide) (by decide) hc
  simpa [isDigit, Char.isDigit, Char.le_def] using hdigit

theorem decimal_toDigits (n : Nat) : decimal (Nat.toDigits 10 n) = n :=
  Nat.ofDigitChars_ten_toDigits

theorem spells_repr (n : Nat) : Spells n.repr.toList .integer := by
  rw [Nat.repr_eq_ofList_toDigits, String.toList_ofList]
  exact .integer (digits_toDigits n)

theorem decimal_repr (n : Nat) : decimal n.repr.toList = n := by
  rw [Nat.repr_eq_ofList_toDigits, String.toList_ofList, decimal_toDigits]

theorem denotes_repr {n : Nat} (h : n ≤ 2 ^ 63 - 1) :
    Denotes .integer n.repr.toList (.value (.integer n)) := by
  have hd : Denotes .integer n.repr.toList (.value (.integer (decimal n.repr.toList))) :=
    .integer (by rwa [decimal_repr])
  rwa [decimal_repr] at hd

end Lexeme

namespace Literal

open Lexeme (Digits baseTen decimal decimal_eq_baseTen)

variable {source : String}

theorem tokenize_of_fits (h : Digits source.toList) (hle : decimal source.toList ≤ 2 ^ 63 - 1) :
    tokenize source = .ok [⟨.blockStart, "", .start⟩,
      ⟨.value (.integer (decimal source.toList)), source, .start⟩,
      ⟨.blockEnd, "", Position.start.advance source.toList⟩] := by
  have hspells : Lexeme.Spells source.toList .integer := .integer h
  rw [tokenize_ok_iff]
  refine ⟨[⟨.value (.integer (decimal source.toList)), source, .start⟩], ?_, rfl⟩
  have hscan := Lexeme.scan_denotes hspells.longest (.integer hle) .start
  rw [scan, String.ofList_toList] at hscan
  exact hscan

theorem tokenize_of_too_large (h : Digits source.toList) (hlt : 2 ^ 63 - 1 < decimal source.toList) :
    tokenize source = .error ⟨.integerTooLarge source, .start⟩ := by
  have hspells : Lexeme.Spells source.toList .integer := .integer h
  have hstuck := Lexeme.scan_stuck (.literal hspells.longest (.integer hlt)) .start
  rwa [tokenize_error_iff, ← Position.right_zero .start, ← String.ofList_toList (s := source),
    String.toList_ofList]

/-- Digits are read as the number they are in base ten, and refused where they begin when it is beyond
64 bits. Those refused by their count are too large, and for all others it is the comparison with the
bound that decides, on a number of no more than nineteen digits. -/
theorem digits_read_back (h : Digits source.toList) :
    let n := baseTen source.toList
    let significant := source.toList.dropWhile (· = '0')
    ((∃ tokens, tokenize source = .ok tokens) ↔ n ≤ 2 ^ 63 - 1) ∧
    (n ≤ 2 ^ 63 - 1 → tokenize source = .ok [⟨.blockStart, "", .start⟩,
      ⟨.value (.integer n), source, .start⟩,
      ⟨.blockEnd, "", Position.start.advance source.toList⟩]) ∧
    (2 ^ 63 - 1 < n → tokenize source = .error ⟨.integerTooLarge source, .start⟩) ∧
    (mostDigits < significant.length → 2 ^ 63 - 1 < n) ∧
    (significant.length ≤ mostDigits → n < 10 ^ 19 ∧
      ((∃ tokens, tokenize source = .ok tokens) ↔ Value.inRange n = true)) := by
  intro n significant
  have hn : n = decimal source.toList := (decimal_eq_baseTen _).symm
  have haccepted : (∃ tokens, tokenize source = .ok tokens) ↔ n ≤ 2 ^ 63 - 1 := by
    constructor
    · rintro ⟨tokens, ht⟩
      by_contra hlt
      cases ht.symm.trans (tokenize_of_too_large h (hn ▸ Nat.lt_of_not_le hlt))
    · exact fun hle => ⟨_, tokenize_of_fits h (hn ▸ hle)⟩
  refine ⟨haccepted, fun hle => ?_, fun hlt => tokenize_of_too_large h (hn ▸ hlt), fun hl => ?_,
    fun hl => ⟨?_, ?_⟩⟩
  · rw [hn]
    exact tokenize_of_fits h (hn ▸ hle)
  · rw [hn]
    exact lt_decimal_of_mostDigits_lt h hl
  · have hdigits : ∀ c ∈ significant, Lexeme.isDigit c = true := fun c hc =>
      h.2 c ((List.dropWhile_sublist _).subset hc)
    calc n = decimal significant := hn.trans (decimal_dropWhile _).symm
      _ < 10 ^ significant.length := Lexeme.decimal_lt_pow hdigits
      _ ≤ 10 ^ 19 := Nat.pow_le_pow_right (by decide) hl
  · rw [haccepted, Value.inRange, Value.bound, Bool.and_eq_true, decide_eq_true_eq,
      decide_eq_true_eq]
    omega

theorem digits_read_back_bound :
    Digits "0009223372036854775807".toList ∧ Digits "9223372036854775808".toList ∧
      tokenize "0009223372036854775807" = .ok [⟨.blockStart, "", .start⟩,
        ⟨.value (.integer 9223372036854775807), "0009223372036854775807", .start⟩,
        ⟨.blockEnd, "", ⟨1, 23, 22⟩⟩] ∧
      tokenize "9223372036854775808" =
        .error ⟨.integerTooLarge "9223372036854775808", .start⟩ := by
  have hfits : Digits "0009223372036854775807".toList := by simp [Digits, Lexeme.isDigit]
  have hlarge : Digits "9223372036854775808".toList := by simp [Digits, Lexeme.isDigit]
  exact ⟨hfits, hlarge, (digits_read_back hfits).2.1 (by decide),
    (digits_read_back hlarge).2.2.1 (by decide)⟩

end Literal

end TemplateExpr
