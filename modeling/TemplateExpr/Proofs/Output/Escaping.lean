import Mathlib.Algebra.Order.Ring.Nat
import Mathlib.Tactic.NormNum
import TemplateExpr.Json

namespace TemplateExpr.Json

open Text (hex hexDigit)

def hexDigitValue (c : Char) : Nat := if c.toNat < 58 then c.toNat - 48 else c.toNat - 87

def hexValue (digits : List Char) : Nat := digits.foldl (fun n c => 16 * n + hexDigitValue c) 0

def fromSurrogates (high low : Nat) : Nat := 0x10000 + (high - 0xD800) * 0x400 + (low - 0xDC00)

def short : Char → Char
  | 'n' => '\n'
  | 'r' => '\r'
  | 't' => '\t'
  | 'b' => '\x08'
  | 'f' => '\x0c'
  | c => c

def readChar : List Char → Char × List Char
  | '\\' :: 'u' :: cs =>
    let unit := hexValue (cs.take 4)
    if 0xD800 ≤ unit ∧ unit < 0xDC00 then
      (Char.ofNat (fromSurrogates unit (hexValue ((cs.drop 6).take 4))), cs.drop 10)
    else (Char.ofNat unit, cs.drop 4)
  | '\\' :: c :: cs => (short c, cs)
  | c :: cs => (c, cs)
  | [] => (default, [])

variable {c d : Char} {cs ds tail tail' : List Char} {s t : String}

theorem hexDigitValue_hexDigit {n : Nat} (h : n < 16) : hexDigitValue (hexDigit n) = n := by
  revert n
  decide

theorem hexValue_hex (width n : Nat) : hexValue (hex width n) = n % 16 ^ width := by
  induction width generalizing n with
  | zero => simp [hex, hexValue, Nat.mod_one]
  | succ width ih =>
      have hlow := hexDigitValue_hexDigit (Nat.mod_lt n (by decide : 0 < 16))
      have hhigh := ih (n / 16)
      rw [hexValue] at hhigh
      rw [hex, hexValue, List.foldl_append, hhigh, List.foldl_cons, List.foldl_nil, hlow, pow_succ',
        Nat.mod_mul, Nat.add_comm]

theorem readChar_plain (h : c ≠ '\\') (tail : List Char) : readChar (c :: tail) = (c, tail) := by
  unfold readChar
  split <;> simp_all

theorem hexValue_take {n : Nat} (h : n < 0x10000) (tail : List Char) :
    hexValue ((hex 4 n ++ tail).take 4) = n := by
  rw [List.take_left' (Text.length_hex 4 n), hexValue_hex]
  exact Nat.mod_eq_of_lt h

theorem readChar_unit {n : Nat} (h : n < 0x10000) (hn : n < 0xD800 ∨ 0xDC00 ≤ n) (tail : List Char) :
    readChar ('\\' :: 'u' :: (hex 4 n ++ tail)) = (Char.ofNat n, tail) := by
  simp only [readChar, hexValue_take h, List.drop_left' (Text.length_hex 4 n)]
  exact if_neg (by omega)

theorem readChar_surrogates {n : Nat} (hlow : 0x10000 ≤ n) (hhigh : n < 0x110000) (tail : List Char) :
    readChar ('\\' :: 'u' :: (hex 4 (surrogates n).1 ++
      '\\' :: 'u' :: (hex 4 (surrogates n).2 ++ tail))) = (Char.ofNat n, tail) := by
  have hunit : 0xD800 ≤ (surrogates n).1 ∧ (surrogates n).1 < 0xDC00 := by
    simp only [surrogates]
    omega
  have hsecond : (surrogates n).2 < 0x10000 := by
    simp only [surrogates]
    omega
  have hjoined : fromSurrogates (surrogates n).1 (surrogates n).2 = n := by
    unfold fromSurrogates surrogates
    omega
  -- Four digits and the two characters in front of the other half.
  have hskip (k : Nat) : (hex 4 (surrogates n).1 ++
      '\\' :: 'u' :: (hex 4 (surrogates n).2 ++ tail)).drop (4 + (2 + k)) =
        (hex 4 (surrogates n).2 ++ tail).drop k := by
    rw [← List.drop_drop, List.drop_left' (Text.length_hex 4 _), ← List.drop_drop]
    rfl
  have hfirst := hskip 0
  have hboth := hskip 4
  rw [List.drop_left' (Text.length_hex 4 _)] at hboth
  simp only [readChar, hexValue_take (by omega : (surrogates n).1 < 0x10000)]
  rw [if_pos hunit, hboth, hfirst, List.drop_zero, hexValue_take hsecond, hjoined]

/-- Escaping can be undone without knowing where the character ends. -/
theorem readChar_escape (c : Char) (tail : List Char) : readChar (escape c ++ tail) = (c, tail) := by
  have hvalid : c.toNat < 0xD800 ∨ 0xDFFF < c.toNat ∧ c.toNat < 0x110000 := c.valid
  unfold escape
  split
  · rename_i hc
    rcases Bool.or_eq_true_iff.1 hc with hc | hc <;> rw [of_decide_eq_true hc] <;> rfl
  split_ifs with hn hr ht hb hf hplain hunit
  · rw [hn]; rfl
  · rw [hr]; rfl
  · rw [ht]; rfl
  · rw [hb]; rfl
  · rw [hf]; rfl
  · exact readChar_plain (by rintro rfl; simp_all) tail
  · have hread := readChar_unit hunit (hvalid.imp_right fun h => by omega) tail
    rwa [Char.ofNat_toNat] at hread
  · have hread := readChar_surrogates (Nat.le_of_not_lt hunit) (by omega) tail
    rw [Char.ofNat_toNat] at hread
    simpa using hread

theorem head_escape (c : Char) (tail : List Char) : (escape c ++ tail).head? ≠ some '"' := by
  unfold escape
  split_ifs <;> simp_all

theorem flatMap_escape_inj
    (h : cs.flatMap escape ++ '"' :: tail = ds.flatMap escape ++ '"' :: tail') :
    cs = ds ∧ tail = tail' := by
  induction cs generalizing ds with
  | nil =>
      cases ds with
      | nil => exact ⟨rfl, (List.cons.inj h).2⟩
      | cons d ds =>
          rw [List.flatMap_cons, List.append_assoc] at h
          exact absurd (congrArg List.head? h).symm (head_escape d _)
  | cons c cs ih =>
      cases ds with
      | nil =>
          rw [List.flatMap_cons, List.append_assoc] at h
          exact absurd (congrArg List.head? h) (head_escape c _)
      | cons d ds =>
          have hread := congrArg readChar h
          rw [List.flatMap_cons, List.flatMap_cons, List.append_assoc, List.append_assoc,
            readChar_escape, readChar_escape, Prod.mk.injEq] at hread
          obtain ⟨rfl, hrest⟩ := hread
          obtain ⟨rfl, rfl⟩ := ih hrest
          exact ⟨rfl, rfl⟩

theorem stringText_append_inj
    (h : (stringText s).toList ++ tail = (stringText t).toList ++ tail') : s = t ∧ tail = tail' := by
  simp only [stringText, String.toList_ofList, List.cons_append, List.append_assoc,
    List.nil_append, List.cons.injEq, true_and] at h
  obtain ⟨hs, htail⟩ := flatMap_escape_inj h
  exact ⟨String.toList_injective hs, htail⟩

end TemplateExpr.Json
