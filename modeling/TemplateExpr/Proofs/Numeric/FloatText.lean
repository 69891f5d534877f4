import TemplateExpr.Numeric.FloatText
import TemplateExpr.Proofs.Lexing.Digits
import TemplateExpr.Proofs.Numeric.Shortest

namespace TemplateExpr.FloatText

open Binary64 (exponentField fraction steps isNegative Place)
open Lexeme (Digits decimal isDigit)
open Shortest (Binary)

inductive Power : List Char → ℤ → Prop
  | none : Power [] 0
  | up {digits : List Char} (h : Digits digits) : Power ('e' :: '+' :: digits) (decimal digits)
  | down {digits : List Char} (h : Digits digits) : Power ('e' :: '-' :: digits) (-decimal digits)

/-- Digits with a point or a power of ten, or with both, and the number they stand for. -/
inductive Numeral : List Char → ℚ → Prop
  | point {whole places tail : List Char} {k : ℤ} (hw : Digits whole) (hp : Digits places)
      (ht : Power tail k) : Numeral (whole ++ '.' :: (places ++ tail))
        (decimal (whole ++ places) * 10 ^ (k - places.length))
  | power {whole tail : List Char} {k : ℤ} (hw : Digits whole) (ht : Power tail k)
      (hne : tail ≠ []) : Numeral (whole ++ tail) (decimal whole * 10 ^ k)

def readPower : List Char → ℤ
  | 'e' :: '+' :: digits => decimal digits
  | 'e' :: '-' :: digits => -decimal digits
  | _ => 0

def read (cs : List Char) : ℚ :=
  let whole := cs.takeWhile isDigit
  match cs.dropWhile isDigit with
  | '.' :: rest =>
    let places := rest.takeWhile isDigit
    decimal (whole ++ places) * 10 ^ (readPower (rest.dropWhile isDigit) - places.length)
  | rest => decimal whole * 10 ^ readPower rest

variable {c : Char} {cs digits tail : List Char} {r : ℚ} {k : ℤ} {x y : Float}

theorem Power.read_eq (h : Power tail k) : readPower tail = k := by
  cases h <;> rfl

theorem Power.takeWhile_eq (h : Power tail k) : tail.takeWhile isDigit = [] := by
  cases h <;> rfl

theorem Power.dropWhile_eq (h : Power tail k) : tail.dropWhile isDigit = tail := by
  cases h <;> rfl

theorem Numeral.read_eq (h : Numeral cs r) : read cs = r := by
  have hpoint : ¬ isDigit '.' = true := by decide
  cases h with
  | point hw hp ht =>
      simp only [read, List.takeWhile_append_of_pos hw.2, List.dropWhile_append_of_pos hw.2,
        List.takeWhile_cons_of_neg hpoint, List.dropWhile_cons_of_neg hpoint,
        List.takeWhile_append_of_pos hp.2, List.dropWhile_append_of_pos hp.2, ht.takeWhile_eq,
        ht.dropWhile_eq, List.append_nil, ht.read_eq]
  | @power whole tail k hw ht hne =>
      simp only [read, List.takeWhile_append_of_pos hw.2, List.dropWhile_append_of_pos hw.2,
        ht.takeWhile_eq, ht.dropWhile_eq, List.append_nil]
      split
      · cases ht
      · rw [ht.read_eq]

theorem Numeral.marked (h : Numeral cs r) :
    (∀ c ∈ cs.head?, isDigit c = true) ∧ ('.' ∈ cs ∨ 'e' ∈ cs) := by
  cases h with
  | @point whole _ _ _ hw _ _ =>
      obtain ⟨d, more, rfl⟩ := List.exists_cons_of_ne_nil hw.1
      exact ⟨by simpa using hw.2 d List.mem_cons_self, .inl (by simp)⟩
  | @power whole _ _ hw ht hne =>
      obtain ⟨d, more, rfl⟩ := List.exists_cons_of_ne_nil hw.1
      refine ⟨by simpa using hw.2 d List.mem_cons_self, .inr ?_⟩
      cases ht with
      | none => exact absurd rfl hne
      | up _ => simp
      | down _ => simp

theorem Power.mem_cases (h : Power tail k) (hc : c ∈ tail) :
    isDigit c = true ∨ c ∈ ['.', 'e', '+', '-'] := by
  have hcons {digits : List Char} (hd : Digits digits) {sign : Char} (hs : sign ∈ ['+', '-'])
      (hc : c ∈ 'e' :: sign :: digits) : isDigit c = true ∨ c ∈ ['.', 'e', '+', '-'] := by
    rcases List.mem_cons.1 hc with rfl | hc
    · simp
    rcases List.mem_cons.1 hc with rfl | hc
    · exact .inr (List.mem_cons_of_mem _ (List.mem_cons_of_mem _ hs))
    · exact .inl (hd.2 c hc)
  cases h with
  | none => cases hc
  | up hd => exact hcons hd (by simp) hc
  | down hd => exact hcons hd (by simp) hc

theorem Numeral.mem_cases (h : Numeral cs r) (hc : c ∈ cs) :
    isDigit c = true ∨ c ∈ ['.', 'e', '+', '-'] := by
  cases h with
  | point hw hp ht =>
      simp only [List.mem_append, List.mem_cons] at hc
      rcases hc with hc | rfl | hc | hc
      · exact .inl (hw.2 c hc)
      · simp
      · exact .inl (hp.2 c hc)
      · exact ht.mem_cases hc
  | power hw ht hne =>
      rcases List.mem_append.1 hc with hc | hc
      · exact .inl (hw.2 c hc)
      · exact ht.mem_cases hc

theorem decimal_append (ds es : List Char) :
    decimal (ds ++ es) = decimal ds * 10 ^ es.length + decimal es := by
  rw [decimal, Nat.ofDigitChars_append, Nat.ofDigitChars_eq_ofDigitChars_zero, mul_comm]
  rfl

theorem decimal_zeros (n : ℕ) : decimal (zeros n) = 0 := by
  rw [decimal, zeros, Nat.ofDigitChars_replicate_zero, Nat.mul_zero]

theorem isDigit_of_mem_zeros {n : ℕ} (h : c ∈ zeros n) : isDigit c = true := by
  rw [List.eq_of_mem_replicate h]
  rfl

theorem digits_zeros_append (n : ℕ) (h : Digits digits) : Digits (zeros n ++ digits) := by
  refine ⟨by simp [h.1], fun c hc => ?_⟩
  rcases List.mem_append.1 hc with hc | hc
  · exact isDigit_of_mem_zeros hc
  · exact h.2 c hc

theorem exponentText_power (style : Style) (e : ℤ) : Power ('e' :: exponentText style e) e := by
  have hdigits := digits_zeros_append (style.exponentWidth - (Nat.toDigits 10 e.natAbs).length)
    (Lexeme.digits_toDigits e.natAbs)
  have hvalue : decimal (zeros (style.exponentWidth - (Nat.toDigits 10 e.natAbs).length) ++
      Nat.toDigits 10 e.natAbs) = e.natAbs := by
    rw [decimal_append, decimal_zeros, Lexeme.decimal_toDigits, Nat.zero_mul, Nat.zero_add]
  rw [exponentText]
  split
  · have h := Power.down hdigits
    rw [hvalue] at h
    rwa [show -(e.natAbs : ℤ) = e by omega] at h
  · have h := Power.up hdigits
    rw [hvalue] at h
    rwa [show (e.natAbs : ℤ) = e by omega] at h

theorem digits_zero : Digits ['0'] := ⟨by simp, by simp [isDigit]⟩

@[simp]
theorem decimal_zero : decimal ['0'] = 0 := rfl

theorem positional_numeral (h : Digits digits) (places : ℤ) :
    Numeral (positional digits places) (decimal digits * 10 ^ (places - digits.length)) := by
  unfold positional
  split
  · -- The point stands in front of all digits.
    rename_i hplaces
    have hn := Numeral.point digits_zero (digits_zeros_append (-places).toNat h) .none
    have hvalue : decimal (['0'] ++ (zeros (-places).toNat ++ digits)) = decimal digits := by
      rw [decimal_append, decimal_append, decimal_zeros]
      simp
    have hplace : (0 : ℤ) - (zeros (-places).toNat ++ digits).length = places - digits.length := by
      rw [List.length_append, zeros, List.length_replicate]
      omega
    rw [hvalue, hplace] at hn
    simpa using hn
  · rename_i hplaces
    obtain ⟨n, rfl⟩ := Int.eq_ofNat_of_zero_le (Int.le_of_lt (Int.not_le.1 hplaces))
    simp only [Int.toNat_natCast]
    split
    · -- It stands behind all of them.
      rename_i hlen
      have hwhole : Digits (digits ++ zeros (n - digits.length)) := by
        refine ⟨by simp [h.1], fun c hc => ?_⟩
        rcases List.mem_append.1 hc with hc | hc
        · exact h.2 c hc
        · exact isDigit_of_mem_zeros hc
      have hn := Numeral.point hwhole digits_zero .none
      have hvalue : decimal (digits ++ zeros (n - digits.length) ++ ['0']) =
          decimal digits * 10 ^ (n - digits.length) * 10 := by
        rw [decimal_append, decimal_append, decimal_zeros, zeros, List.length_replicate]
        simp
      have hpower : ((decimal digits * 10 ^ (n - digits.length) * 10 : ℕ) : ℚ) *
          10 ^ ((0 : ℤ) - (['0'] : List Char).length) =
            decimal digits * 10 ^ ((n : ℤ) - digits.length) := by
        rw [← Nat.cast_sub hlen, zpow_natCast]
        push_cast
        rw [mul_assoc]
        norm_num
      rw [hvalue, hpower] at hn
      simpa using hn
    · rename_i hlen
      have hlt : n < digits.length := Nat.lt_of_not_le hlen
      have hwhole : Digits (digits.take n) :=
        ⟨by simp [h.1]; omega, fun c hc => h.2 c (List.mem_of_mem_take hc)⟩
      have hplaces : Digits (digits.drop n) :=
        ⟨by simp; omega, fun c hc => h.2 c (List.mem_of_mem_drop hc)⟩
      have hn := Numeral.point hwhole hplaces .none
      have hplace : (0 : ℤ) - (digits.drop n).length = n - digits.length := by
        rw [List.length_drop]
        omega
      rw [List.take_append_drop, hplace] at hn
      simpa using hn

theorem scientific_numeral (style : Style) (h : Digits digits) (e : ℤ) :
    Numeral (scientific style digits e) (decimal digits * 10 ^ (e - (digits.length - 1))) := by
  have hpower := exponentText_power style e
  obtain ⟨d, more, rfl⟩ := List.exists_cons_of_ne_nil h.1
  cases more with
  | nil =>
      have hn := Numeral.power h hpower (by simp)
      simpa [scientific] using hn
  | cons d' more =>
      have hwhole : Digits [d] := ⟨by simp, by simpa using h.2 d List.mem_cons_self⟩
      have hplaces : Digits (d' :: more) :=
        ⟨by simp, fun c hc => h.2 c (List.mem_cons_of_mem d hc)⟩
      have hn := Numeral.point hwhole hplaces hpower
      simpa [scientific] using hn

/-- What is written stands for the shortest decimal. -/
theorem magnitudeText_numeral (x : Float) :
    Numeral (magnitudeText x) (Binary.ofFloat x).shortest.value := by
  have hdigits := Lexeme.digits_toDigits (Binary.ofFloat x).shortest.digits
  simp only [magnitudeText]
  generalize (Binary.ofFloat x).shortest = d at hdigits ⊢
  have hvalue (e : ℤ) (he : e = d.exponent) :
      (decimal (Nat.toDigits 10 d.digits) : ℚ) * 10 ^ e = d.value := by
    rw [Lexeme.decimal_toDigits, he, Shortest.Decimal.value]
  split
  · have hn := positional_numeral hdigits (d.exponent + (Nat.toDigits 10 d.digits).length - 1 + 1)
    rwa [hvalue _ (by omega)] at hn
  · have hn := scientific_numeral standard hdigits
      (d.exponent + (Nat.toDigits 10 d.digits).length - 1)
    rwa [hvalue _ (by omega)] at hn

def unsigned (x : Float) : List Char :=
  if exponentField x = 2047 then ['i', 'n', 'f']
  else if steps x = 0 then ['0', '.', '0'] else magnitudeText x

theorem toList_text (h : Place.ofFloat? x ≠ none) :
    (text x).toList = if isNegative x then '-' :: unsigned x else unsigned x := by
  unfold text unsigned Place.ofFloat?
  unfold Place.ofFloat? at h
  by_cases he : exponentField x = 2047
  · simp only [if_pos he] at h ⊢
    split at h
    · exact absurd rfl h
    · rename_i hf
      rw [if_neg hf]
      cases isNegative x <;> simp
  · simp only [if_neg he, String.toList_ofList]
    cases isNegative x <;> simp

theorem unsigned_cases (h : Place.ofFloat? x ≠ none) :
    (exponentField x = 2047 ∧ fraction x = 0 ∧ unsigned x = ['i', 'n', 'f']) ∨
      (exponentField x = 0 ∧ fraction x = 0 ∧ unsigned x = ['0', '.', '0']) ∨
      (Binary.ofFloat x).Proper ∧ unsigned x = magnitudeText x := by
  unfold Place.ofFloat? at h
  unfold unsigned
  by_cases he : exponentField x = 2047
  · have hf : fraction x = 0 := by simpa [he] using h
    exact .inl ⟨he, hf, if_pos he⟩
  · rw [if_neg he]
    by_cases hz : steps x = 0
    · obtain ⟨hexponent, hfraction⟩ := Binary64.steps_eq_zero_iff.1 hz
      exact .inr (.inl ⟨hexponent, hfraction, if_pos hz⟩)
    · exact .inr (.inr ⟨Binary.ofFloat_proper he hz, if_neg hz⟩)

theorem read_inf : read ['i', 'n', 'f'] = 0 := by
  simp [read, isDigit, decimal]

theorem read_zero : read ['0', '.', '0'] = 0 := by
  have hread := (Numeral.point digits_zero digits_zero .none).read_eq
  rw [decimal_append] at hread
  simpa using hread

theorem read_magnitudeText_pos (h : (Binary.ofFloat x).Proper) : 0 < read (magnitudeText x) := by
  rw [(magnitudeText_numeral x).read_eq]
  exact h.shortest_pos

theorem magnitudeText_ne (h : (Binary.ofFloat x).Proper) :
    magnitudeText x ≠ ['i', 'n', 'f'] ∧ magnitudeText x ≠ ['0', '.', '0'] := by
  have hpos := read_magnitudeText_pos h
  constructor <;> intro heq
  · exact hpos.ne' (heq ▸ read_inf)
  · exact hpos.ne' (heq ▸ read_zero)

theorem head_unsigned (h : Place.ofFloat? x ≠ none) :
    ∀ c ∈ (unsigned x).head?, isDigit c = true ∨ c = 'i' := by
  rcases unsigned_cases h with ⟨-, -, hu⟩ | ⟨-, -, hu⟩ | ⟨-, hu⟩ <;> rw [hu]
  · simp
  · simp [isDigit]
  · exact fun c hc => .inl ((magnitudeText_numeral x).marked.1 c hc)

theorem unsigned_ne_cons (h : Place.ofFloat? x ≠ none) (hdigit : isDigit c = false) (hi : c ≠ 'i') :
    unsigned x ≠ c :: cs := by
  intro heq
  rcases head_unsigned h c (by rw [heq]; rfl) with hc | hc
  · exact Bool.false_ne_true (hdigit.symm.trans hc)
  · exact hi hc

theorem fields_eq_of_unsigned (hx : Place.ofFloat? x ≠ none) (hy : Place.ofFloat? y ≠ none)
    (h : unsigned x = unsigned y) :
    exponentField x = exponentField y ∧ fraction x = fraction y := by
  rcases unsigned_cases hx with ⟨hex, hfx, hux⟩ | ⟨hex, hfx, hux⟩ | ⟨hpx, hux⟩ <;>
    rcases unsigned_cases hy with ⟨hey, hfy, huy⟩ | ⟨hey, hfy, huy⟩ | ⟨hpy, huy⟩ <;>
    rw [hux, huy] at h
  · exact ⟨hex.trans hey.symm, hfx.trans hfy.symm⟩
  · cases h
  · exact absurd h.symm (magnitudeText_ne hpy).1
  · cases h
  · exact ⟨hex.trans hey.symm, hfx.trans hfy.symm⟩
  · exact absurd h.symm (magnitudeText_ne hpy).2
  · exact absurd h (magnitudeText_ne hpx).1
  · exact absurd h (magnitudeText_ne hpx).2
  · have hvalue : (Binary.ofFloat x).shortest.value = (Binary.ofFloat y).shortest.value := by
      rw [← (magnitudeText_numeral x).read_eq, h, (magnitudeText_numeral y).read_eq]
    have hrounds := hpx.shortest_rounds
    rw [hvalue] at hrounds
    exact Binary.fields_eq_of_ofFloat (hrounds.unique hpx hpy hpy.shortest_rounds)

theorem text_numeral (he : exponentField x ≠ 2047) : ∃ cs r, Numeral cs r ∧
    (text x).toList = if isNegative x then '-' :: cs else cs := by
  have h : Place.ofFloat? x ≠ none := by simp [Place.ofFloat?, he]
  rw [toList_text h]
  rcases unsigned_cases h with ⟨hexponent, -, -⟩ | ⟨-, -, hu⟩ | ⟨-, hu⟩
  · exact absurd hexponent he
  · exact ⟨_, _, .point digits_zero digits_zero .none, by rw [hu]; rfl⟩
  · exact ⟨_, _, magnitudeText_numeral x, by rw [hu]⟩

theorem mem_text (he : exponentField x ≠ 2047) (hc : c ∈ (text x).toList) :
    isDigit c = true ∨ c ∈ ['.', 'e', '+', '-'] := by
  obtain ⟨cs, r, hcs, htext⟩ := text_numeral he
  rw [htext] at hc
  split at hc
  · rcases List.mem_cons.1 hc with rfl | hc
    · simp
    · exact hcs.mem_cases hc
  · exact hcs.mem_cases hc

theorem text_ne_nan (h : Place.ofFloat? x ≠ none) : text x ≠ "nan" := by
  intro heq
  have htext := toList_text h
  rw [heq] at htext
  cases hn : isNegative x <;> rw [hn] at htext
  · exact unsigned_ne_cons h (by decide) (by decide) htext.symm
  · exact absurd (List.cons.inj htext).1 (by decide)

theorem text_inj (h : text x = text y) :
    Place.ofFloat? x = none ∧ Place.ofFloat? y = none ∨ x = y := by
  have hnan {z : Float} (hz : Place.ofFloat? z = none) : text z = "nan" := by rw [text, hz]
  by_cases hx : Place.ofFloat? x = none
  · refine .inl ⟨hx, ?_⟩
    by_contra hy
    exact text_ne_nan hy (h.symm.trans (hnan hx))
  by_cases hy : Place.ofFloat? y = none
  · exact absurd (h.trans (hnan hy)) (text_ne_nan hx)
  have htext := congrArg String.toList h
  rw [toList_text hx, toList_text hy] at htext
  have hsign : isNegative x = isNegative y ∧ unsigned x = unsigned y := by
    cases hnx : isNegative x <;> cases hny : isNegative y <;> rw [hnx, hny] at htext
    · exact ⟨rfl, htext⟩
    · exact absurd htext (unsigned_ne_cons hx (by decide) (by decide))
    · exact absurd htext.symm (unsigned_ne_cons hy (by decide) (by decide))
    · exact ⟨rfl, (List.cons.inj htext).2⟩
  obtain ⟨hexponent, hfraction⟩ := fields_eq_of_unsigned hx hy hsign.2
  have hbits : x.toBits.toNat = y.toBits.toNat := by
    have hnegative := hsign.1
    simp only [isNegative, exponentField, fraction, Nat.pow_eq] at hnegative hexponent hfraction
    have hltx := x.toBits.toNat_lt
    have hlty := y.toBits.toNat_lt
    rw [decide_eq_decide] at hnegative
    omega
  exact .inr (Binary64.toBits_injective (UInt64.toNat_inj.1 hbits))

end TemplateExpr.FloatText
