import Mathlib.Algebra.Group.Nat.Defs
import TemplateExpr.Proofs.Lexing.Longest
import TemplateExpr.Token.Literal

namespace TemplateExpr

namespace Lexeme

def keywords : List (String × Token.Kind) :=
  [("and", .operator .and), ("or", .operator .or), ("not", .operator .not),
    ("true", .value (.boolean true)), ("false", .value (.boolean false))]

def escapes : List (Char × Char) :=
  [('n', '\n'), ('t', '\t'), ('r', '\r'), ('0', '\x00'), ('\\', '\\'), ('"', '"'), ('\'', '\'')]

def decimal (digits : List Char) : Nat := Nat.ofDigitChars 10 digits 0

inductive Unescapes : List Char → List Char → Prop
  | nil : Unescapes [] []
  | plain {c : Char} {body decoded : List Char} (hc : c ≠ '\\') (h : Unescapes body decoded) :
      Unescapes (c :: body) (c :: decoded)
  | escape {c e : Char} {body decoded : List Char} (hc : (c, e) ∈ escapes)
      (h : Unescapes body decoded) : Unescapes ('\\' :: c :: body) (e :: decoded)

inductive Denotes : Shape → List Char → Token.Kind → Prop
  | sign {text : List Char} {kind : Token.Kind} : Denotes (.sign kind) text kind
  | keyword {text : List Char} {kind : Token.Kind} (h : (String.ofList text, kind) ∈ keywords) :
      Denotes .word text kind
  | name {text : List Char} (h : ∀ kind, (String.ofList text, kind) ∉ keywords) :
      Denotes .word text .name
  | integer {text : List Char} (h : decimal text ≤ 2 ^ 63 - 1) :
      Denotes .integer text (.value (.integer (decimal text)))
  | float {whole places : List Char} (hw : Digits whole) :
      Denotes .float (whole ++ '.' :: places)
        (.value (.float (.ofScientific (decimal (whole ++ places)) true places.length)))
  | string {quote : Char} {body decoded : List Char} (h : Unescapes body decoded) :
      Denotes .string (quote :: (body ++ [quote])) (.value (.string (String.ofList decoded)))

/-- What is wrong with a lexeme that denotes nothing, and at which of its characters. -/
inductive Spoils : Shape → List Char → LexicalProblem → Nat → Prop
  | integer {text : List Char} (h : 2 ^ 63 - 1 < decimal text) :
      Spoils .integer text (.integerTooLarge (String.ofList text)) 0
  | string {quote c : Char} {before decoded behind : List Char} (h : Unescapes before decoded)
      (hc : ∀ e, (c, e) ∉ escapes) :
      Spoils .string (quote :: ((before ++ '\\' :: c :: behind) ++ [quote])) (.unknownEscape c)
        (before.length + 1)

variable {quote c : Char} {text body decoded : List Char} {kind : Token.Kind} {shape : Shape}

theorem Quotable.unescapes_or (h : Quotable quote body) :
    (∃ decoded, Unescapes body decoded) ∨
      ∃ before decoded c behind, body = before ++ '\\' :: c :: behind ∧
        Unescapes before decoded ∧ ∀ e, (c, e) ∉ escapes := by
  induction h with
  | nil => exact .inl ⟨[], .nil⟩
  | @plain c body _ hc _ ih =>
      rcases ih with ⟨decoded, ih⟩ | ⟨before, decoded, d, behind, rfl, ih, hd⟩
      · exact .inl ⟨c :: decoded, .plain hc ih⟩
      · exact .inr ⟨c :: before, c :: decoded, d, behind, rfl, .plain hc ih, hd⟩
  | @escape c body _ _ ih =>
      by_cases he : ∃ e, (c, e) ∈ escapes
      · obtain ⟨e, he⟩ := he
        rcases ih with ⟨decoded, ih⟩ | ⟨before, decoded, d, behind, rfl, ih, hd⟩
        · exact .inl ⟨e :: decoded, .escape he ih⟩
        · exact .inr ⟨'\\' :: c :: before, e :: decoded, d, behind, rfl, .escape he ih, hd⟩
      · exact .inr ⟨[], [], c, body, rfl, .nil, not_exists.1 he⟩

theorem Spells.denotes_or_spoils (h : Spells text shape) :
    (∃ kind, Denotes shape text kind) ∨ ∃ problem i, Spoils shape text problem i := by
  cases h with
  | sign h => exact .inl ⟨_, .sign⟩
  | integer h =>
      by_cases hle : decimal text ≤ 2 ^ 63 - 1
      · exact .inl ⟨_, .integer hle⟩
      · exact .inr ⟨_, _, .integer (Nat.lt_of_not_le hle)⟩
  | float hw hp => exact .inl ⟨_, .float hw⟩
  | string hq h =>
      rcases h.unescapes_or with ⟨decoded, h⟩ | ⟨before, decoded, c, behind, rfl, h, hc⟩
      · exact .inl ⟨_, .string h⟩
      · exact .inr ⟨_, _, .string h hc⟩
  | @word c text hc h =>
      by_cases hk : ∃ kind, (String.ofList (c :: text), kind) ∈ keywords
      · obtain ⟨kind, hk⟩ := hk
        exact .inl ⟨kind, .keyword hk⟩
      · exact .inl ⟨_, .name (not_exists.1 hk)⟩

theorem Spoils.lt_length {problem : LexicalProblem} {i : Nat} (h : Spoils shape text problem i)
    (hne : text ≠ []) : i < text.length := by
  cases h with
  | integer => exact List.length_pos_iff.2 hne
  | string => simp

end Lexeme

namespace Literal

open Lexeme (Digits escapes keywords decimal Unescapes)

variable {c e : Char} {cs body decoded text : List Char} {kind : Token.Kind}

theorem escape?_eq_some_iff : escape? c = some e ↔ (c, e) ∈ escapes := by
  constructor
  · intro h
    unfold escape? at h
    split at h <;> cases h <;> simp [escapes]
  · intro h
    simp only [escapes, List.mem_cons, Prod.mk.injEq, List.not_mem_nil, or_false] at h
    rcases h with h | h | h | h | h | h | h <;> obtain ⟨rfl, rfl⟩ := h <;> rfl

theorem escape?_eq_none_iff : escape? c = none ↔ ∀ e, (c, e) ∉ escapes := by
  simp only [← escape?_eq_some_iff, Option.eq_none_iff_forall_ne_some, Ne]

theorem unescape_append (h : Unescapes body decoded) (p : Position) (rest : List Char) :
    unescape p (body ++ rest) = (unescape (p.right body.length) rest).map (decoded ++ ·) := by
  induction h generalizing p with
  | nil => cases h : unescape p rest <;> simp [h, Except.map]
  | @plain c body decoded hc _ ih =>
      rw [List.cons_append, unescape.eq_def]
      simp only [if_neg hc]
      rw [ih, Position.right_right, List.length_cons,
        Nat.add_comm 1]
      cases unescape (p.right (body.length + 1)) rest <;> rfl
  | @escape c e body decoded hc _ ih =>
      simp only [List.cons_append, unescape, ↓reduceIte, escape?_eq_some_iff.2 hc, ih,
        Position.right_right, List.length_cons]
      rw [show 2 + body.length = body.length + 1 + 1 by omega]
      cases unescape (p.right (body.length + 1 + 1)) rest <;> rfl

theorem unescape_of_unescapes (h : Unescapes body decoded) (p : Position) :
    unescape p body = .ok decoded := by
  have happend := unescape_append h p []
  rwa [List.append_nil, unescape, Except.map, List.append_nil] at happend

theorem unescape_unknown (h : Unescapes body decoded) (hc : ∀ e, (c, e) ∉ escapes) (p : Position)
    (behind : List Char) :
    unescape p (body ++ '\\' :: c :: behind) =
      .error ⟨.unknownEscape c, p.right body.length⟩ := by
  simp [unescape_append h, unescape, escape?_eq_none_iff.2 hc, Except.map]

theorem string_quoted (p : Position) (quote : Char) (body : List Char) :
    string p (quote :: (body ++ [quote])) =
      (unescape (p.right 1) body).map fun cs => .string (String.ofList cs) := by
  rw [string, List.drop_one, List.tail_cons, List.dropLast_concat]

theorem decimal_dropWhile (text : List Char) :
    decimal (text.dropWhile (· = '0')) = decimal text := by
  induction text with
  | nil => rfl
  | cons c text ih =>
      by_cases hc : c = '0'
      · subst hc
        simpa [decimal, Nat.ofDigitChars_cons] using ih
      · simp [hc]

theorem pow_le_decimal (hc : Lexeme.isDigit c = true) (hne : c ≠ '0') (cs : List Char) :
    10 ^ cs.length ≤ decimal (c :: cs) := by
  have hpos : 1 ≤ c.toNat - 48 := by
    have hzero : c.toNat ≠ 48 := fun h => hne (Char.toNat_inj.1 h)
    have := Lexeme.isDigit_iff.1 hc
    omega
  rw [decimal, Nat.ofDigitChars_cons, Nat.ofDigitChars_eq_ofDigitChars_zero]
  calc 10 ^ cs.length = 10 ^ cs.length * 1 := (Nat.mul_one _).symm
    _ ≤ 10 ^ cs.length * (c.toNat - 48) := Nat.mul_le_mul_left _ hpos
    _ ≤ _ := by simp

theorem lt_decimal_of_mostDigits_lt (h : Digits text)
    (hl : mostDigits < (text.dropWhile (· = '0')).length) : 2 ^ 63 - 1 < decimal text := by
  rw [← decimal_dropWhile text]
  have hdigits : ∀ c ∈ text.dropWhile (· = '0'), Lexeme.isDigit c = true := fun c hc =>
    h.2 c ((List.dropWhile_sublist _).subset hc)
  have hhead := List.head?_dropWhile_not (· = '0') text
  cases hs : text.dropWhile (· = '0') with
  | nil => simp [hs] at hl
  | cons c cs =>
      rw [hs] at hdigits hhead hl
      have hne : c ≠ '0' := by simpa using hhead
      have hlen : 19 ≤ cs.length := Nat.lt_succ_iff.1 hl
      calc 2 ^ 63 - 1 < 10 ^ 19 := by decide
        _ ≤ 10 ^ cs.length := Nat.pow_le_pow_right (by decide) hlen
        _ ≤ decimal (c :: cs) := pow_le_decimal (hdigits c List.mem_cons_self) hne cs

theorem integer_eq (h : Digits text) (p : Position) :
    integer p text = if decimal text ≤ 2 ^ 63 - 1 then .ok (.integer (decimal text))
      else .error ⟨.integerTooLarge (String.ofList text), p⟩ := by
  have hvalue : Nat.ofDigitChars 10 (text.dropWhile (· = '0')) 0 = decimal text :=
    decimal_dropWhile text
  have hrange : Value.inRange (decimal text) = true ↔ decimal text ≤ 2 ^ 63 - 1 := by
    unfold Value.inRange Value.bound
    rw [Bool.and_eq_true, decide_eq_true_eq, decide_eq_true_eq]
    omega
  by_cases hl : mostDigits < (text.dropWhile (· = '0')).length
  · rw [if_neg (Nat.not_le.2 (lt_decimal_of_mostDigits_lt h hl))]
    simp [integer, hl]
  · by_cases hle : decimal text ≤ 2 ^ 63 - 1
    · rw [if_pos hle]
      simp [integer, hl, hvalue, hrange.2 hle]
    · rw [if_neg hle]
      simp [integer, hl, hvalue, Bool.eq_false_iff.2 (mt hrange.1 hle)]

theorem float_eq {whole places : List Char} (hw : Digits whole) :
    float (whole ++ '.' :: places) =
      .float (.ofScientific (decimal (whole ++ places)) true places.length) := by
  have hpoint : ¬ Lexeme.isDigit '.' = true := by decide
  simp [float, decimal, List.takeWhile_append_of_pos hw.2, List.dropWhile_append_of_pos hw.2,
    List.takeWhile_cons_of_neg hpoint, List.dropWhile_cons_of_neg hpoint]

theorem word_eq_of_keyword {s : String} (h : (s, kind) ∈ keywords) : word s = kind := by
  simp only [keywords, List.mem_cons, Prod.mk.injEq, List.not_mem_nil, or_false] at h
  rcases h with h | h | h | h | h <;> obtain ⟨rfl, rfl⟩ := h <;> rfl

theorem word_eq_name {s : String} (h : ∀ kind, (s, kind) ∉ keywords) : word s = .name := by
  unfold word
  split
  case h_6 => rfl
  all_goals simp [keywords] at h

end Literal

namespace Lexeme

variable {x : Lexeme} {kind : Token.Kind} {problem : LexicalProblem} {i : Nat}

theorem kind_of_denotes (hs : Spells x.text x.shape) (h : Denotes x.shape x.text kind)
    (p : Position) : x.kind p = .ok kind := by
  obtain ⟨shape, text, rest⟩ := x
  cases h with
  | sign => rfl
  | keyword h => exact congrArg Except.ok (Literal.word_eq_of_keyword h)
  | name h => exact congrArg Except.ok (Literal.word_eq_name h)
  | integer h =>
      cases hs with
      | integer hd =>
          have hvalue := (Literal.integer_eq hd p).trans (if_pos h)
          exact congrArg (Except.map Token.Kind.value) hvalue
  | float hw => simp [Lexeme.kind, Literal.float_eq hw]
  | string h =>
      simp only [Lexeme.kind, Literal.string_quoted, Literal.unescape_of_unescapes h, Except.map]

theorem kind_of_spoils (hs : Spells x.text x.shape) (h : Spoils x.shape x.text problem i)
    (p : Position) : x.kind p = .error ⟨problem, p.right i⟩ := by
  obtain ⟨shape, text, rest⟩ := x
  cases h with
  | integer h =>
      cases hs with
      | integer hd =>
          have hvalue := (Literal.integer_eq hd p).trans (if_neg (Nat.not_le.2 h))
          exact congrArg (Except.map Token.Kind.value) hvalue
  | string h hc =>
      simp only [Lexeme.kind, Literal.string_quoted, Literal.unescape_unknown h hc, Except.map,
        Position.right_right, Nat.add_comm 1]

theorem Denotes.not_spoils (hs : Spells x.text x.shape) (hd : Denotes x.shape x.text kind) :
    ¬ Spoils x.shape x.text problem i := by
  intro h
  cases (kind_of_denotes hs hd .start).symm.trans (kind_of_spoils hs h .start)

end Lexeme

end TemplateExpr
