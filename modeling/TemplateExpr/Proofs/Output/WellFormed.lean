import TemplateExpr.Proofs.Output.Document
import TemplateExpr.Proofs.Output.Json
import TemplateExpr.Source

namespace TemplateExpr

open Binary64 (Place exponentField)
open Document (Forms Magnitude Number Blank Whole Characters Clear)
open Json (chars charsBehind lineBreak escape stringText floatText)
open Lexeme (Digits)

inductive Value.Finite : Value → Prop
  | integer {n : Int} : Finite (.integer n)
  | float {x : Float} {n : Int} (h : Place.ofFloat? x = some (.at n)) : Finite (.float x)
  | boolean {b : Bool} : Finite (.boolean b)
  | string {s : String} : Finite (.string s)
  | list {items : List Value} (h : ∀ v ∈ items, Finite v) : Finite (.list items)

namespace FloatText

variable {digits cs tail : List Char} {k : ℤ} {r : ℚ} {x : Float}

theorem head_toDigits {n : Nat} (h : 0 < n) : (Nat.toDigits 10 n).head? ≠ some '0' := by
  induction n using Nat.strongRecOn with
  | _ n ih =>
      by_cases hn : n < 10
      · rw [Nat.toDigits_of_lt_base hn]
        interval_cases n <;> decide
      · have hle : 10 ≤ n := Nat.le_of_not_lt hn
        rw [Nat.toDigits_of_base_le (by decide) hle, List.head?_append_of_ne_nil _ Nat.toDigits_ne_nil]
        exact ih (n / 10) (Nat.div_lt_self h (by decide)) (Nat.div_pos hle (by decide))

theorem whole_toDigits (n : Nat) : Whole (Nat.toDigits 10 n) := by
  refine ⟨Lexeme.digits_toDigits n, fun h => ?_⟩
  rcases Nat.eq_zero_or_pos n with rfl | hn
  · rfl
  · exact absurd h (head_toDigits hn)

theorem Power.document (h : Power tail k) : Document.Power tail := by
  cases h with
  | none => exact .none
  | up h => exact .signed (by simp) (by simp) h
  | down h => exact .signed (by simp) (by simp) h

/-- A numeral is as in a document if behind a zero in front there is the point. -/
theorem Numeral.magnitude (h : Numeral cs r)
    (hz : ∀ rest, cs = '0' :: rest → rest.head? = some '.') : Magnitude cs := by
  have hwhole {whole behind : List Char} (hw : Digits whole) (hcs : cs = whole ++ behind) :
      Whole whole := by
    refine ⟨hw, fun hzero => ?_⟩
    obtain ⟨more, rfl⟩ := List.head?_eq_some_iff.1 hzero
    cases more with
    | nil => rfl
    | cons c more =>
        obtain rfl : c = '.' := Option.some.inj (hz _ hcs)
        exact absurd (hw.2 '.' (by simp)) (by decide)
  cases h with
  | point hw hp ht => exact .parts (hwhole hw rfl) (.places hp) ht.document
  | power hw ht _ => exact .parts (hwhole hw rfl) .none ht.document

theorem positional_zero (h : Digits digits) (hz : digits.head? ≠ some '0') {places : ℤ}
    {rest : List Char} (hrest : positional digits places = '0' :: rest) : rest.head? = some '.' := by
  obtain ⟨d, more, rfl⟩ := List.exists_cons_of_ne_nil h.1
  unfold positional at hrest
  split at hrest
  · rw [← (List.cons.inj hrest).2]
    rfl
  · rename_i hplaces
    obtain ⟨n, rfl⟩ := Int.eq_succ_of_zero_lt (Int.not_le.1 hplaces)
    dsimp only at hrest
    split at hrest
    · exact absurd (congrArg some (List.cons.inj hrest).1) hz
    · exact absurd (congrArg some (List.cons.inj hrest).1) hz

theorem scientific_zero (h : Digits digits) (hz : digits.head? ≠ some '0') {style : Style} {e : ℤ}
    {rest : List Char} : scientific style digits e ≠ '0' :: rest := by
  obtain ⟨d, more, rfl⟩ := List.exists_cons_of_ne_nil h.1
  intro hrest
  cases more with
  | nil => exact hz (congrArg some (List.cons.inj hrest).1)
  | cons c more => exact hz (congrArg some (List.cons.inj hrest).1)

theorem magnitudeText_zero (h : (Shortest.Binary.ofFloat x).Proper) {rest : List Char}
    (hrest : magnitudeText x = '0' :: rest) : rest.head? = some '.' := by
  have hpos : 0 < (Shortest.Binary.ofFloat x).shortest.digits := by
    have hvalue := h.shortest_pos
    rw [Shortest.Decimal.value] at hvalue
    exact Nat.pos_of_ne_zero fun hzero => by simp [hzero] at hvalue
  have hdigits := Lexeme.digits_toDigits (Shortest.Binary.ofFloat x).shortest.digits
  simp only [magnitudeText] at hrest
  split at hrest
  · exact positional_zero hdigits (head_toDigits hpos) hrest
  · exact absurd hrest (scientific_zero hdigits (head_toDigits hpos))

theorem unsigned_magnitude (he : exponentField x ≠ 2047) : Magnitude (unsigned x) := by
  have h : Place.ofFloat? x ≠ none := by simp [Place.ofFloat?, he]
  have hzero : Whole ['0'] := ⟨digits_zero, fun _ => rfl⟩
  rcases unsigned_cases h with ⟨hexponent, -, -⟩ | ⟨-, -, hu⟩ | ⟨hp, hu⟩
  · exact absurd hexponent he
  · rw [hu]
    exact .parts hzero (.places digits_zero) .none
  · rw [hu]
    exact (magnitudeText_numeral x).magnitude fun _ => magnitudeText_zero hp

theorem text_number (he : exponentField x ≠ 2047) : Number (text x).toList := by
  have h : Place.ofFloat? x ≠ none := by simp [Place.ofFloat?, he]
  rw [toList_text h]
  split
  · exact .minus (unsigned_magnitude he)
  · exact .plain (unsigned_magnitude he)

end FloatText

namespace Json

variable {c : Char} {depth : Nat} {v : Value} {items : List Value}

theorem hex_digit {width n : Nat} (hc : c ∈ Text.hex width n) :
    c ∈ "0123456789abcdefABCDEF".toList := by
  induction width generalizing n with
  | zero => cases hc
  | succ width ih =>
      rw [Text.hex] at hc
      rcases List.mem_append.1 hc with hc | hc
      · exact ih hc
      · have hdigit : ∀ k < 16, Text.hexDigit k ∈ "0123456789abcdefABCDEF".toList := by decide
        rw [List.mem_singleton.1 hc]
        exact hdigit _ (Nat.mod_lt n (by decide))

theorem code_character (n : Nat) : Document.Character ('\\' :: 'u' :: Text.hex 4 n) :=
  .code (Text.length_hex 4 n) fun _ => hex_digit

theorem escape_characters (c : Char) : Characters (escape c) := by
  have hone {cs : List Char} (h : Document.Character cs) : Characters cs := by
    have hcons := Characters.cons h .nil
    rwa [List.append_nil] at hcons
  unfold escape
  split
  · rename_i hc
    rcases Bool.or_eq_true_iff.1 hc with hc | hc <;> rw [of_decide_eq_true hc] <;>
      exact hone (.short (by simp))
  split_ifs with hn hr ht hb hf hplain hunit
  · exact hone (.short (by simp))
  · exact hone (.short (by simp))
  · exact hone (.short (by simp))
  · exact hone (.short (by simp))
  · exact hone (.short (by simp))
  · refine hone (.plain (of_decide_eq_true (Bool.and_eq_true_iff.1 hplain).1) ?_ ?_) <;>
      rintro rfl <;> simp_all
  · exact hone (code_character _)
  · exact .cons (code_character _) (hone (code_character _))

theorem stringText_quoted (s : String) : Document.Quoted (stringText s).toList := by
  have hall (cs : List Char) : Characters (cs.flatMap escape) := by
    induction cs with
    | nil => exact .nil
    | cons c cs ih => exact (escape_characters c).append ih
  rw [stringText, String.toList_ofList]
  exact .quotes (hall s.toList)

theorem integer_number (n : Int) : Number n.repr.toList := by
  have hnat (m : Nat) : Magnitude (Nat.toDigits 10 m) := by
    have h := Magnitude.parts (FloatText.whole_toDigits m) .none .none
    rwa [List.append_nil, List.append_nil] at h
  rw [Int.repr_eq_if]
  split
  · rw [Nat.repr_eq_ofList_toDigits, String.toList_ofList]
    exact .plain (hnat _)
  · simpa [Nat.repr_eq_ofList_toDigits] using Number.minus (hnat _)

theorem exponentField_ne_iff {x : Float} :
    exponentField x ≠ 2047 ↔ ∃ n, Place.ofFloat? x = some (.at n) := by
  unfold Place.ofFloat?
  split
  · rename_i he
    split_ifs <;> simp [he]
  · rename_i he
    simp [he]

theorem lineBreak_blank (depth : Nat) : Blank (lineBreak depth).toList := by
  intro c hc
  rw [toList_lineBreak] at hc
  rcases List.mem_cons.1 hc with rfl | hc
  · simp
  · rw [List.eq_of_mem_replicate hc]
    simp

theorem blank_nil : Blank [] := fun _ hc => absurd hc List.not_mem_nil

theorem elements_form (hv : Forms .value (chars (depth + 1) v))
    (hitems : ∀ w ∈ items, Forms .value (chars (depth + 1) w)) {b : List Char} (hb : Blank b) :
    Forms .elements (b ++ (chars (depth + 1) v ++
      (charsBehind depth items ++ (lineBreak depth).toList))) := by
  induction items generalizing v b with
  | nil =>
      rw [charsBehind_nil]
      exact .element (.spaced hb hv (lineBreak_blank depth))
  | cons w items ih =>
      have hfirst : Forms .spaced (b ++ (chars (depth + 1) v ++ [])) := .spaced hb hv blank_nil
      have hrest := ih (hitems w List.mem_cons_self) (fun u hu => hitems u (List.mem_cons_of_mem _ hu))
        (lineBreak_blank (depth + 1))
      simpa [charsBehind_cons] using Forms.elements hfirst hrest

theorem chars_form (h : v.Finite) : ∀ depth, Forms .value (chars depth v) := by
  induction h with
  | integer => exact fun depth => .number (integer_number _)
  | @float x n h =>
      intro depth
      have htext : floatText x = FloatText.text x := by rw [floatText, h]
      rw [chars, ofValue, render, htext]
      exact .number (FloatText.text_number (exponentField_ne_iff.2 ⟨n, h⟩))
  | @boolean b =>
      intro depth
      rw [chars, ofValue, render]
      cases b
      · exact .false
      · exact .true
  | string => exact fun depth => .string (stringText_quoted _)
  | @list items _ ih =>
      intro depth
      cases items with
      | nil =>
          rw [chars_nil]
          exact .emptyArray blank_nil
      | cons v items =>
          have helements := elements_form (ih v List.mem_cons_self (depth + 1))
            (fun w hw => ih w (List.mem_cons_of_mem _ hw) (depth + 1)) (lineBreak_blank (depth + 1))
          rw [chars_cons]
          simpa using Forms.array helements

theorem tells_charsBehind (depth : Nat)
    (hitems : ∀ v ∈ items, ∀ depth, Document.Tells (chars depth v) v.Finite) :
    Document.Tells (charsBehind depth items) (∀ v ∈ items, v.Finite) := by
  induction items with
  | nil =>
      rw [charsBehind_nil]
      exact blank_nil.clear.tells.imp fun _ v hv => absurd hv List.not_mem_nil
  | cons v items ih =>
      have hcomma := Document.clear_singleton (by decide : Document.Ordinary ',')
      have hbreak := (lineBreak_blank (depth + 1)).clear
      have hrest := ih fun w hw => hitems w (List.mem_cons_of_mem _ hw)
      rw [charsBehind_cons]
      refine (hcomma.tells.append (hbreak.tells.append
        ((hitems v List.mem_cons_self (depth + 1)).append hrest))).imp ?_
      rintro ⟨-, -, hv, hall⟩
      exact List.forall_mem_cons.2 ⟨hv, hall⟩

theorem tells_float (x : Float) : Document.Tells (floatText x).toList (Value.float x).Finite := by
  rcases floatText_cases x with h | ⟨h, he⟩
  · have hname : ∀ p ∈ named, '"' ∉ p.1.toList ∧ ('N' ∈ p.1.toList ∨ 'I' ∈ p.1.toList) := by decide
    obtain ⟨hquote, hletter⟩ := hname _ h
    obtain ⟨hclosed, hbare⟩ := Document.unquoted_closed hquote
    refine ⟨hclosed, fun hclear => ?_⟩
    have hletters := hclear.letters
    rw [hbare] at hletters
    rcases hletter with hc | hc
    · exact absurd (by simp) (hletters 'N' hc)
    · exact absurd (by simp) (hletters 'I' hc)
  · obtain ⟨n, hn⟩ := exponentField_ne_iff.1 he
    rw [h]
    exact (FloatText.text_number he).clear.tells.imp fun _ => .float hn

theorem tells_list (hitems : ∀ v ∈ items, ∀ depth, Document.Tells (chars depth v) v.Finite)
    (depth : Nat) : Document.Tells (chars depth (.list items)) (Value.list items).Finite := by
  cases items with
  | nil =>
      rw [chars_nil]
      exact (Forms.emptyArray blank_nil).clear.tells.imp fun _ => .list (by simp)
  | cons v items =>
      have hopening := (lineBreak_blank (depth + 1)).clear.cons (by decide : Document.Ordinary '[')
      have hclosing := (lineBreak_blank depth).clear.append
        (Document.clear_singleton (by decide : Document.Ordinary ']'))
      have hrest := tells_charsBehind depth fun w hw => hitems w (List.mem_cons_of_mem _ hw)
      rw [chars_cons]
      refine (hopening.tells.append ((hitems v List.mem_cons_self (depth + 1)).append
        (hrest.append hclosing.tells))).imp ?_
      rintro ⟨-, hv, hall, -⟩
      exact .list (List.forall_mem_cons.2 ⟨hv, hall⟩)

theorem tells_chars : (v : Value) → ∀ depth, Document.Tells (chars depth v) v.Finite
  | .integer n => fun depth => (chars_form .integer depth).clear.tells.imp fun _ => .integer
  | .float x => fun _ => tells_float x
  | .boolean b => fun depth => (chars_form .boolean depth).clear.tells.imp fun _ => .boolean
  | .string s => fun depth => (chars_form .string depth).clear.tells.imp fun _ => .string
  | .list _ => tells_list fun v _ => tells_chars v

end Json

open Json

theorem finite_of_wellFormed {v : Value} (h : Document.WellFormed (formatValue v .json)) :
    v.Finite := by
  have hbreak := (lineBreak_blank 1).clear
  have hcolon : Clear ": ".toList := Document.clear_of_forall (by simp [Document.Ordinary])
  have hbrace : Clear ['\x7b'] := Document.clear_singleton (by decide)
  have hcomma : Clear [','] := Document.clear_singleton (by decide)
  have hopening := ((hbrace.append hbreak).append (stringText_quoted "kind").clear).append hcolon
  have hmiddle := ((hcomma.append hbreak).append (stringText_quoted "value").clear).append hcolon
  have hclosing := (lineBreak_blank 0).clear.append
    (Document.clear_singleton (by decide : Document.Ordinary '\x7d'))
  have hall := hopening.tells.append ((stringText_quoted v.kind.name).clear.tells.append
    (hmiddle.tells.append ((tells_chars v 1).append hclosing.tells)))
  rw [Document.WellFormed, toList_formatValue] at h
  simp only [String.toList_append] at h
  exact (hall.holds h.clear).2.2.2.1

/-- What is printed as JSON is a document exactly if all floats in the value are finite. -/
theorem wellFormed_formatValue_iff (v : Value) :
    Document.WellFormed (formatValue v .json) ↔ v.Finite := by
  refine ⟨finite_of_wellFormed, fun h => ?_⟩
  have hblank : Blank [' '] := by simp [Document.Blank]
  have hname := Forms.spaced hblank (.string (stringText_quoted v.kind.name)) blank_nil
  have hkind := Forms.member (lineBreak_blank 1) (stringText_quoted "kind") blank_nil hname
  have hvalue := Forms.member (lineBreak_blank 1) (stringText_quoted "value") blank_nil
    (.spaced hblank (chars_form h 1) (lineBreak_blank 0))
  have hobject := Forms.spaced blank_nil (.object (.members hkind hvalue)) blank_nil
  rw [Document.WellFormed, toList_formatValue]
  simpa using hobject

theorem evaluateSource_square (x : Float) :
    evaluateSource ⟨[("x", .float x)]⟩ "x * x" = .ok (.float (x * x)) := by
  have hparse : parseSource "x * x" = .ok (.binary .mul (.name "x") (.name "x")) := by
    rw [parseSource, tokenize_eq]
    cbv
  simp only [evaluateSource, hparse, evaluate_eq_eval]
  rfl

/-- The product of two finite floats is printed as a word that no document has. -/
theorem product_not_wellFormed :
    evaluateSource ⟨[("x", .float 1e200)]⟩ "x * x" = .ok (.float (1e200 * 1e200)) ∧
      ¬ Document.WellFormed (formatValue (.float (1e200 * 1e200)) .json) := by
  have hplace : Place.ofFloat? (1e200 * 1e200) = some .above := by decide +kernel
  refine ⟨evaluateSource_square 1e200, fun h => ?_⟩
  have hfinite := finite_of_wellFormed h
  generalize (1e200 * 1e200 : Float) = x at hplace hfinite
  cases hfinite with
  | float hat =>
      rw [hplace] at hat
      cases hat

end TemplateExpr
