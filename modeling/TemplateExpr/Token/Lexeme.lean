import TemplateExpr.Token.Basic

namespace TemplateExpr

inductive Lexeme.Shape where
  | float
  | integer
  | string
  | word
  | sign (kind : Token.Kind)

/-- A lexeme cut off the front of a text, and what follows it. -/
structure Lexeme where
  shape : Lexeme.Shape
  text : List Char
  rest : List Char

namespace Lexeme

def isDigit (c : Char) : Bool := '0' ≤ c && c ≤ '9'

def isWordStart (c : Char) : Bool := ('A' ≤ c && c ≤ 'Z') || ('a' ≤ c && c ≤ 'z') || c = '_'

def isWordPart (c : Char) : Bool := isWordStart c || isDigit c

def isSpace (c : Char) : Bool := c = ' ' || c = '\t' || c = '\x0c' || c = '\r' || c = '\n'

def isQuote (c : Char) : Bool := c = '"' || c = '\''

/-- A quoted text up to its closing quote and what follows it. A backslash takes the next character
along, which must not be a line feed. -/
def quotedBody (quote : Char) : List Char → Option (List Char × List Char)
  | [] => none
  | c :: rest =>
    if c = quote then some ([c], rest)
    else if c = '\\' then
      match rest with
      | [] => none
      | d :: rest =>
        if d = '\n' then none else (quotedBody quote rest).map fun r => (c :: d :: r.1, r.2)
    else (quotedBody quote rest).map fun r => (c :: r.1, r.2)

def number (cs : List Char) : Lexeme :=
  let digits := cs.takeWhile isDigit
  match cs.dropWhile isDigit with
  | '.' :: rest =>
    match rest.takeWhile isDigit with
    | [] => ⟨.integer, digits, '.' :: rest⟩
    | places => ⟨.float, digits ++ '.' :: places, rest.dropWhile isDigit⟩
  | rest => ⟨.integer, digits, rest⟩

def word (cs : List Char) : Lexeme := ⟨.word, cs.takeWhile isWordPart, cs.dropWhile isWordPart⟩

def pairedSign? : Char → Char → Option Token.Kind
  | '<', '%' => some .blockStart
  | '%', '>' => some .blockEnd
  | '&', '&' => some (.operator .and)
  | '|', '|' => some (.operator .or)
  | '=', '=' => some (.operator .eq)
  | '!', '=' => some (.operator .ne)
  | '>', '=' => some (.operator .ge)
  | '<', '=' => some (.operator .le)
  | _, _ => none

def singleSign? : Char → Option Token.Kind
  | '>' => some (.operator .gt)
  | '<' => some (.operator .lt)
  | '!' => some (.operator .not)
  | '+' => some (.operator .add)
  | '-' => some (.operator .sub)
  | '*' => some (.operator .mul)
  | '/' => some (.operator .div)
  | '%' => some (.operator .mod)
  | '(' => some .roundOpen
  | ')' => some .roundClose
  | '[' => some .squareOpen
  | ']' => some .squareClose
  | ',' => some .comma
  | _ => none

def paired? : List Char → Option Lexeme
  | c :: d :: rest => (pairedSign? c d).map fun kind => ⟨.sign kind, [c, d], rest⟩
  | _ => none

def single? : List Char → Option Lexeme
  | c :: rest => (singleSign? c).map fun kind => ⟨.sign kind, [c], rest⟩
  | [] => none

def sign? (cs : List Char) : Option Lexeme := (paired? cs).or (single? cs)

def cut? : List Char → Option Lexeme
  | [] => none
  | c :: rest =>
    if isDigit c then some (number (c :: rest))
    else if isQuote c then (quotedBody c rest).map fun r => ⟨.string, c :: r.1, r.2⟩
    else if isWordStart c then some (word (c :: rest))
    else sign? (c :: rest)

theorem quotedBody_append {quote : Char} {cs body rest : List Char}
    (h : quotedBody quote cs = some (body, rest)) : body ++ rest = cs := by
  fun_induction quotedBody quote cs generalizing body rest with
  | case1 => simp at h
  | case2 =>
      obtain ⟨rfl, rfl⟩ := Prod.mk.inj (Option.some.inj h)
      rfl
  | case3 => simp at h
  | case4 => simp at h
  | case5 _ _ _ _ ih =>
      obtain ⟨⟨b, r⟩, hb, he⟩ := Option.map_eq_some_iff.1 h
      simp only [Prod.mk.injEq] at he
      obtain ⟨rfl, rfl⟩ := he
      simp [ih hb]
  | case6 _ _ _ _ ih =>
      obtain ⟨⟨b, r⟩, hb, he⟩ := Option.map_eq_some_iff.1 h
      simp only [Prod.mk.injEq] at he
      obtain ⟨rfl, rfl⟩ := he
      simp [ih hb]

theorem number_append (cs : List Char) : (number cs).text ++ (number cs).rest = cs := by
  have digits := List.takeWhile_append_dropWhile (p := isDigit) (l := cs)
  unfold number
  split
  · rename_i rest h
    have places := List.takeWhile_append_dropWhile (p := isDigit) (l := rest)
    split <;> simp_all
  · simp_all

theorem sign?_cases {cs : List Char} {x : Lexeme} (h : sign? cs = some x) :
    x.text ++ x.rest = cs ∧ x.text ≠ [] := by
  rcases Option.or_eq_some_iff.1 h with h | ⟨-, h⟩
  · unfold paired? at h
    split at h
    · obtain ⟨_, _, rfl⟩ := Option.map_eq_some_iff.1 h
      simp
    · simp at h
  · unfold single? at h
    split at h
    · obtain ⟨_, _, rfl⟩ := Option.map_eq_some_iff.1 h
      simp
    · simp at h

theorem cut?_append {cs : List Char} {x : Lexeme} (h : cut? cs = some x) :
    x.text ++ x.rest = cs := by
  unfold cut? at h
  split at h
  · simp at h
  · rename_i c cs
    split at h
    · rw [← Option.some.inj h, number_append]
    · split at h
      · obtain ⟨⟨b, r⟩, hb, rfl⟩ := Option.map_eq_some_iff.1 h
        simp [quotedBody_append hb]
      · split at h
        · rw [← Option.some.inj h]
          exact List.takeWhile_append_dropWhile
        · exact (sign?_cases h).1

theorem cut?_text_ne_nil {cs : List Char} {x : Lexeme} (h : cut? cs = some x) : x.text ≠ [] := by
  unfold cut? at h
  split at h
  · simp at h
  · rename_i c cs
    split at h
    · rename_i hd
      rw [← Option.some.inj h]
      unfold number
      split
      · split <;> simp [hd]
      · simp [hd]
    · split at h
      · obtain ⟨_, _, rfl⟩ := Option.map_eq_some_iff.1 h
        simp
      · split at h
        · rename_i hw
          rw [← Option.some.inj h]
          simp [word, isWordPart, hw]
        · exact (sign?_cases h).2

theorem cut?_rest_length_lt {cs : List Char} {x : Lexeme} (h : cut? cs = some x) :
    x.rest.length < cs.length := by
  have whole := congrArg List.length (cut?_append h)
  have some_text := List.length_pos_iff.2 (cut?_text_ne_nil h)
  simp only [List.length_append] at whole
  omega

end Lexeme

end TemplateExpr
