import TemplateExpr.Proofs.Numeric.FloatText
import TemplateExpr.Proofs.Output.Escaping
import TemplateExpr.Report.Output

namespace TemplateExpr

open Binary64 (Place exponentField)
open Lexeme (decimal isDigit)

namespace Value

/-- One value twice, except that floats which are not numbers are not distinguished. -/
inductive Same : Value → Value → Prop
  | integer (n : Int) : Same (.integer n) (.integer n)
  | nan {x y : Float} (hx : Place.ofFloat? x = none) (hy : Place.ofFloat? y = none) :
      Same (.float x) (.float y)
  | float {x y : Float} (h : x.toBits = y.toBits) : Same (.float x) (.float y)
  | boolean (b : Bool) : Same (.boolean b) (.boolean b)
  | string (s : String) : Same (.string s) (.string s)
  | list {items others : List Value} (h : List.Forall₂ Same items others) :
      Same (.list items) (.list others)

end Value

namespace Json

def readInteger : List Char → Int
  | '-' :: digits => -decimal digits
  | digits => decimal digits

def named : List (String × String) := [("NaN", "nan"), ("Infinity", "inf"), ("-Infinity", "-inf")]

def plainText (s : String) : String := (named.lookup s).getD s

def isEnd (c : Char) : Bool := c = ',' || c = '\n'

def inInteger (c : Char) : Bool := isDigit c || c = '-'

def kindOf : List Char → Kind
  | '[' :: _ => .list
  | '"' :: _ => .string
  | 't' :: _ => .boolean
  | 'f' :: _ => .boolean
  | cs => if (cs.takeWhile (!isEnd ·)).all inInteger then .integer else .float

def chars (depth : Nat) (v : Value) : List Char := (render indented depth (ofValue v)).toList

def charsBehind (depth : Nat) (items : List Value) : List Char :=
  (renderItems indented depth (ofValues items)).toList

def Ended (tail : List Char) : Prop := ∃ c ∈ tail.head?, isEnd c = true

structure Word (cs : List Char) (integral : Bool) : Prop where
  head : ∃ c ∈ cs.head?, inInteger c = true ∨ c ∈ ['N', 'I']
  endless : ∀ c ∈ cs, isEnd c = false
  all_eq : cs.all inInteger = integral

variable {depth : Nat} {x y : Float} {v w : Value} {items others : List Value} {c : Char}
  {cs ds tail tail' : List Char} {integral : Bool}

theorem chars_nil : chars depth (.list []) = ['[', ']'] := by
  simp [chars, ofValue, ofValues, render]

theorem chars_cons : chars depth (.list (v :: items)) =
    '[' :: ((lineBreak (depth + 1)).toList ++ (chars (depth + 1) v ++
      (charsBehind depth items ++ ((lineBreak depth).toList ++ [']'])))) := by
  simp [chars, charsBehind, ofValue, ofValues, render, indented]

theorem charsBehind_nil : charsBehind depth [] = [] := by
  simp [charsBehind, ofValues, renderItems]

theorem charsBehind_cons : charsBehind depth (v :: items) =
    ',' :: ((lineBreak (depth + 1)).toList ++ (chars (depth + 1) v ++ charsBehind depth items)) := by
  simp [chars, charsBehind, ofValues, renderItems, indented]

theorem toList_lineBreak : (lineBreak depth).toList = '\n' :: List.replicate (2 * depth) ' ' := by
  simp [lineBreak]

theorem isEnd_of_isDigit (h : isDigit c = true) : isEnd c = false := by
  rw [isEnd, Bool.or_eq_false_iff, decide_eq_false_iff_not, decide_eq_false_iff_not]
  constructor <;> rintro rfl <;> cases h

theorem takeWhile_endless (hcs : ∀ c ∈ cs, isEnd c = false) (ht : Ended tail) :
    (cs ++ tail).takeWhile (!isEnd ·) = cs := by
  rw [List.takeWhile_append_of_pos fun c hc => by rw [hcs c hc]; rfl]
  obtain ⟨c, hc, hend⟩ := ht
  obtain ⟨rest, rfl⟩ := List.head?_eq_some_iff.1 hc
  rw [List.takeWhile_cons_of_neg (by simp [hend]), List.append_nil]

theorem endless_append_inj (hcs : ∀ c ∈ cs, isEnd c = false) (hds : ∀ c ∈ ds, isEnd c = false)
    (ht : Ended tail) (ht' : Ended tail') (h : cs ++ tail = ds ++ tail') : cs = ds ∧ tail = tail' := by
  have htake := congrArg (List.takeWhile (!isEnd ·)) h
  rw [takeWhile_endless hcs ht, takeWhile_endless hds ht'] at htake
  exact ⟨htake, List.append_cancel_left (htake ▸ h)⟩

theorem Word.kindOf_eq (h : Word cs integral) (ht : Ended tail) :
    kindOf (cs ++ tail) = if integral then .integer else .float := by
  obtain ⟨c, hc, hhead⟩ := h.head
  obtain ⟨rest, rfl⟩ := List.head?_eq_some_iff.1 hc
  have htake := takeWhile_endless h.endless ht
  unfold kindOf
  split
  case h_5 => rw [htake, h.all_eq]
  -- No number begins as a string, an array or a truth value does.
  all_goals
    rename_i heq
    obtain rfl := (List.cons.inj heq).1
    exact absurd hhead (by decide)

theorem Word.minus (h : Word cs integral) : Word ('-' :: cs) integral where
  head := ⟨'-', rfl, .inl rfl⟩
  endless c hc := by
    rcases List.mem_cons.1 hc with rfl | hc
    · rfl
    · exact h.endless c hc
  all_eq := h.all_eq

theorem inInteger_of_isDigit (h : isDigit c = true) : inInteger c = true := by
  rw [inInteger, h, Bool.true_or]

theorem word_digits (h : Lexeme.Digits cs) : Word cs true where
  head := by
    obtain ⟨c, rest, rfl⟩ := List.exists_cons_of_ne_nil h.1
    exact ⟨c, rfl, .inl (inInteger_of_isDigit (h.2 c List.mem_cons_self))⟩
  endless c hc := isEnd_of_isDigit (h.2 c hc)
  all_eq := List.all_eq_true.2 fun c hc => inInteger_of_isDigit (h.2 c hc)

theorem word_integer (n : Int) : Word n.repr.toList true := by
  rw [Int.repr_eq_if]
  split
  · rw [Nat.repr_eq_ofList_toDigits, String.toList_ofList]
    exact word_digits (Lexeme.digits_toDigits _)
  · simpa [Nat.repr_eq_ofList_toDigits] using (word_digits (Lexeme.digits_toDigits _)).minus

theorem readInteger_repr (n : Int) : readInteger n.repr.toList = n := by
  cases n with
  | ofNat m =>
      change readInteger m.repr.toList = m
      unfold readInteger
      split
      · rename_i digits heq
        have hdigits := (Lexeme.digits_toDigits m).2 '-'
        rw [Nat.repr_eq_ofList_toDigits, String.toList_ofList] at heq
        exact absurd (hdigits (by simp [heq])) (by decide)
      · rw [Lexeme.decimal_repr]
  | negSucc m =>
      change readInteger ("-" ++ (m + 1).repr).toList = Int.negSucc m
      simp only [String.toList_append, String.reduceToList, List.singleton_append, readInteger,
        Lexeme.decimal_repr]
      rfl

theorem word_numeral {r : ℚ} (h : FloatText.Numeral cs r) : Word cs false where
  head := by
    cases cs with
    | nil => exact absurd h.marked.2 (by simp)
    | cons c cs => exact ⟨c, rfl, .inl (inInteger_of_isDigit (h.marked.1 c rfl))⟩
  endless c hc := by
    rcases h.mem_cases hc with hd | hc
    · exact isEnd_of_isDigit hd
    · have hmarks : ∀ c ∈ ['.', 'e', '+', '-'], isEnd c = false := by simp [isEnd]
      exact hmarks c hc
  all_eq := by
    rw [List.all_eq_false]
    rcases h.marked.2 with hm | hm
    · exact ⟨'.', hm, by decide⟩
    · exact ⟨'e', hm, by decide⟩

theorem floatText_cases (x : Float) : (floatText x, FloatText.text x) ∈ named ∨
    floatText x = FloatText.text x ∧ exponentField x ≠ 2047 := by
  unfold floatText FloatText.text
  cases h : Place.ofFloat? x with
  | none => simp [named]
  | some p =>
      cases p with
      | below => simp [named]
      | above => simp [named]
      | «at» n =>
          refine .inr ⟨rfl, fun he => ?_⟩
          rw [Place.ofFloat?, if_pos he] at h
          split_ifs at h <;> simp at h

theorem word_named {p : String × String} (h : p ∈ named) : Word p.1.toList false := by
  simp only [named, List.mem_cons, List.not_mem_nil, or_false] at h
  rcases h with rfl | rfl | rfl <;> exact ⟨⟨_, rfl, by decide⟩, by simp [isEnd], rfl⟩

theorem word_float (x : Float) : Word (floatText x).toList false := by
  rcases floatText_cases x with h | ⟨h, he⟩
  · exact word_named h
  · obtain ⟨cs, r, hcs, htext⟩ := FloatText.text_numeral he
    rw [h, htext]
    split
    · exact (word_numeral hcs).minus
    · exact word_numeral hcs

theorem plainText_text (he : exponentField x ≠ 2047) :
    plainText (FloatText.text x) = FloatText.text x := by
  have hname : ∀ p ∈ named, 'N' ∈ p.1.toList ∨ 'n' ∈ p.1.toList := by decide
  have hnone : named.lookup (FloatText.text x) = none := by
    refine List.lookup_eq_none_iff.2 fun p hp => bne_iff_ne.2 fun heq => ?_
    rcases hname p hp with hc | hc
    · exact absurd (FloatText.mem_text he (heq ▸ hc)) (by decide)
    · exact absurd (FloatText.mem_text he (heq ▸ hc)) (by decide)
  rw [plainText, hnone, Option.getD_none]

theorem plainText_floatText (x : Float) : plainText (floatText x) = FloatText.text x := by
  rcases floatText_cases x with h | ⟨h, he⟩
  · exact (by decide : ∀ p ∈ named, plainText p.1 = p.2) _ h
  · rw [h, plainText_text he]

theorem same_of_floatText (h : floatText x = floatText y) : Value.Same (.float x) (.float y) := by
  have htext := congrArg plainText h
  rw [plainText_floatText, plainText_floatText] at htext
  rcases FloatText.text_inj htext with ⟨hx, hy⟩ | rfl
  · exact .nan hx hy
  · exact .float rfl

theorem kindOf_chars (ht : Ended tail) : kindOf (chars depth v ++ tail) = v.kind := by
  cases v with
  | integer n => exact (word_integer n).kindOf_eq ht
  | float x => exact (word_float x).kindOf_eq ht
  | boolean b => cases b <;> simp [chars, ofValue, render, kindOf, Value.kind]
  | string s => simp [chars, ofValue, render, stringText, kindOf, Value.kind]
  | list items =>
      cases items with
      | nil => rw [chars_nil]; rfl
      | cons v items => rw [chars_cons]; rfl

theorem kind_eq_of_chars (ht : Ended tail) (ht' : Ended tail')
    (h : chars depth v ++ tail = chars depth w ++ tail') : v.kind = w.kind := by
  rw [← kindOf_chars ht, h, kindOf_chars ht']

/-- A text that begins with the value is not to be read as any other. -/
def Determined (v : Value) : Prop := ∀ ⦃w depth tail tail'⦄, Ended tail → Ended tail' →
  chars depth v ++ tail = chars depth w ++ tail' → Value.Same v w ∧ tail = tail'

theorem determined_integer (n : Int) : Determined (.integer n) := by
  intro w depth tail tail' ht ht' h
  have hkind := kind_eq_of_chars ht ht' h
  cases w <;> simp only [Value.kind, reduceCtorEq] at hkind
  rename_i m
  obtain ⟨hrepr, htail⟩ :=
    endless_append_inj (word_integer n).endless (word_integer m).endless ht ht' h
  have hread := congrArg readInteger hrepr
  rw [readInteger_repr, readInteger_repr] at hread
  obtain rfl := hread
  exact ⟨.integer n, htail⟩

theorem determined_float (x : Float) : Determined (.float x) := by
  intro w depth tail tail' ht ht' h
  have hkind := kind_eq_of_chars ht ht' h
  cases w <;> simp only [Value.kind, reduceCtorEq] at hkind
  rename_i y
  obtain ⟨htext, htail⟩ := endless_append_inj (word_float x).endless (word_float y).endless ht ht' h
  exact ⟨same_of_floatText (String.toList_injective htext), htail⟩

theorem determined_boolean (b : Bool) : Determined (.boolean b) := by
  intro w depth tail tail' ht ht' h
  have hkind := kind_eq_of_chars ht ht' h
  cases w <;> simp only [Value.kind, reduceCtorEq] at hkind
  rename_i b'
  cases b <;> cases b' <;> simp [chars, ofValue, render] at h
  · exact ⟨.boolean false, h⟩
  · exact ⟨.boolean true, h⟩

theorem determined_string (s : String) : Determined (.string s) := by
  intro w depth tail tail' ht ht' h
  have hkind := kind_eq_of_chars ht ht' h
  cases w <;> simp only [Value.kind, reduceCtorEq] at hkind
  obtain ⟨rfl, htail⟩ := stringText_append_inj h
  exact ⟨.string s, htail⟩

theorem ended_lineBreak (depth : Nat) (tail : List Char) : Ended ((lineBreak depth).toList ++ tail) :=
  ⟨'\n', by rw [toList_lineBreak]; rfl, rfl⟩

theorem ended_charsBehind (depth : Nat) (items : List Value) (tail : List Char) :
    Ended (charsBehind depth items ++ ((lineBreak depth).toList ++ tail)) := by
  cases items with
  | nil => exact ended_lineBreak depth tail
  | cons v items => exact ⟨',', by rw [charsBehind_cons]; rfl, rfl⟩

theorem charsBehind_append_inj (hitems : ∀ v ∈ items, Determined v)
    (h : charsBehind depth items ++ ((lineBreak depth).toList ++ tail) =
      charsBehind depth others ++ ((lineBreak depth).toList ++ tail')) :
    List.Forall₂ Value.Same items others ∧ tail = tail' := by
  induction items generalizing others with
  | nil =>
      cases others with
      | nil => exact ⟨.nil, List.append_cancel_left (List.append_cancel_left h)⟩
      | cons w others => simp [charsBehind_nil, charsBehind_cons, toList_lineBreak] at h
  | cons v items ih =>
      cases others with
      | nil => simp [charsBehind_nil, charsBehind_cons, toList_lineBreak] at h
      | cons w others =>
          simp only [charsBehind_cons, List.cons_append, List.append_assoc, List.cons.injEq, true_and,
            List.append_cancel_left_eq] at h
          obtain ⟨hv, hrest⟩ := hitems v List.mem_cons_self (ended_charsBehind depth items tail)
            (ended_charsBehind depth others tail') h
          obtain ⟨hitems, htail⟩ := ih (fun v hv => hitems v (List.mem_cons_of_mem _ hv)) hrest
          exact ⟨.cons hv hitems, htail⟩

theorem determined_list (hitems : ∀ v ∈ items, Determined v) : Determined (.list items) := by
  intro w depth tail tail' ht ht' h
  have hkind := kind_eq_of_chars ht ht' h
  cases w <;> simp only [Value.kind, reduceCtorEq] at hkind
  rename_i others
  cases items with
  | nil =>
      cases others with
      | nil => exact ⟨.list .nil, List.append_cancel_left h⟩
      | cons w others => simp [chars_nil, chars_cons, toList_lineBreak] at h
  | cons v items =>
      cases others with
      | nil => simp [chars_nil, chars_cons, toList_lineBreak] at h
      | cons w others =>
          -- Behind the bracket the first element is as the others are behind their commas.
          have hbehind : charsBehind depth (v :: items) ++ ((lineBreak depth).toList ++ ']' :: tail) =
              charsBehind depth (w :: others) ++ ((lineBreak depth).toList ++ ']' :: tail') := by
            simpa [chars_cons, charsBehind_cons] using h
          obtain ⟨hsame, htail⟩ := charsBehind_append_inj hitems hbehind
          exact ⟨.list hsame, (List.cons.inj htail).2⟩

theorem determined : (v : Value) → Determined v
  | .integer n => determined_integer n
  | .float x => determined_float x
  | .boolean b => determined_boolean b
  | .string s => determined_string s
  | .list _ => determined_list fun v _ => determined v

theorem chars_list_congr
    (h : List.Forall₂ (fun v w => ∀ depth, chars depth v = chars depth w) items others) :
    chars depth (.list items) = chars depth (.list others) := by
  have hbehind {items others : List Value}
      (h : List.Forall₂ (fun v w => ∀ depth, chars depth v = chars depth w) items others) :
      charsBehind depth items = charsBehind depth others := by
    induction h with
    | nil => rfl
    | cons hv _ ih => rw [charsBehind_cons, charsBehind_cons, hv, ih]
  cases h with
  | nil => rfl
  | cons hv hrest => rw [chars_cons, chars_cons, hv, hbehind hrest]

theorem chars_eq_of_same {v w : Value} (h : Value.Same v w) (depth : Nat) :
    chars depth v = chars depth w := by
  cases h with
  | integer n => rfl
  | nan hx hy => simp [chars, ofValue, render, floatText, hx, hy]
  | float hbits => rw [Binary64.toBits_injective hbits]
  | boolean b => rfl
  | string s => rfl
  | @list items others hsame =>
      refine chars_list_congr (List.forall₂_iff_zip.2 ⟨hsame.length_eq, fun hmem depth => ?_⟩)
      have hitem := (List.of_mem_zip hmem).1
      exact chars_eq_of_same ((List.forall₂_iff_zip.1 hsame).2 hmem) depth
termination_by v

theorem kind_eq_of_same (h : Value.Same v w) : v.kind = w.kind := by
  cases h <;> rfl

theorem toList_formatValue (v : Value) : (formatValue v .json).toList =
    ("\x7b" ++ lineBreak 1 ++ stringText "kind" ++ ": ").toList ++
      ((stringText v.kind.name).toList ++
        (("," ++ lineBreak 1 ++ stringText "value" ++ ": ").toList ++
          (chars 1 v ++ ((lineBreak 0).toList ++ ['\x7d'])))) := by
  simp [formatValue, pretty, render, renderFields, indented, chars]

end Json

open Json in
/-- Two values are printed alike in JSON exactly if they are the same. -/
theorem formatValue_json_eq_iff (v w : Value) :
    formatValue v .json = formatValue w .json ↔ Value.Same v w := by
  rw [← String.toList_inj, toList_formatValue, toList_formatValue]
  constructor
  · intro h
    obtain ⟨-, hvalue⟩ := stringText_append_inj (List.append_cancel_left h)
    exact (determined v (ended_lineBreak 0 _) (ended_lineBreak 0 _) (List.append_cancel_left hvalue)).1
  · intro h
    rw [kind_eq_of_same h, chars_eq_of_same h]

theorem formatValue_json_eq_nested :
    let v : Value := .list [.string "\"😀", .list [.float (0.0 / 0.0), .integer (-1)]]
    let w : Value := .list [.string "\"😀", .list [.float (1.0 / 0.0 - 1.0 / 0.0), .integer (-1)]]
    formatValue v .json = "\x7b\n  \"kind\": \"list\",\n  \"value\": [\n    " ++
      "\"\\\"\\ud83d\\ude00\",\n    [\n      NaN,\n      -1\n    ]\n  ]\n\x7d" ∧
    formatValue v .json = formatValue w .json ∧ Value.Same v w := by
  intro v w
  have h : formatValue v .json = formatValue w .json := by decide +kernel
  exact ⟨by decide +kernel, h, (formatValue_json_eq_iff v w).1 h⟩

end TemplateExpr
