import TemplateExpr.Proofs.Evaluation.Fitting
import TemplateExpr.Proofs.Lexing.Digits
import TemplateExpr.Proofs.Spacing
import TemplateExpr.Report.Output

namespace TemplateExpr

open Lexeme (Denotes Divided Longest Quotable Spells Unescapes)

namespace Value

/-- Integers, truth values, and texts that need no escapes between double quotes. -/
inductive Plain : Value → Prop
  | integer (n : Int) : Plain (.integer n)
  | boolean (b : Bool) : Plain (.boolean b)
  | string {s : String} (hq : '"' ∉ s.toList) (hb : '\\' ∉ s.toList) : Plain (.string s)

/-- An integer has to be one that a digit run denotes. -/
def Denotable (v : Value) : Prop := ∀ n, v = .integer n → 0 ≤ n ∧ n ≤ 2 ^ 63 - 1

def element : Value → String
  | .string s => enclosed s
  | v => v.text

def behindOpening : List Value → List Char
  | [] => [']']
  | [v] => v.element.toList ++ [']']
  | v :: w :: more => v.element.toList ++ ',' :: ' ' :: behindOpening (w :: more)

theorem elementTexts_eq (items : List Value) : elementTexts items = items.map element := by
  induction items with
  | nil => rfl
  | cons v items ih => cases v <;> simp [elementTexts, element, ih]

theorem toList_text_list (items : List Value) :
    (list items).text.toList = '[' :: behindOpening items := by
  have hrow : ((", " : String).intercalate (items.map element)).toList ++ [']'] =
      behindOpening items := by
    induction items using behindOpening.induct with
    | case1 => rfl
    | case2 v => simp [behindOpening]
    | case3 v w more ih =>
        rw [behindOpening, ← ih]
        simp [String.intercalate_cons_cons]
  rw [text, elementTexts_eq, ← hrow]
  simp

end Value

namespace Lexeme

variable {cs : List Char}

theorem quotable_of_plain (hq : '"' ∉ cs) (hb : '\\' ∉ cs) : Quotable '"' cs := by
  induction cs with
  | nil => exact .nil
  | cons c cs ih =>
      obtain ⟨hq, hqs⟩ := not_or.1 (mt List.mem_cons.2 hq)
      obtain ⟨hb, hbs⟩ := not_or.1 (mt List.mem_cons.2 hb)
      exact .plain (Ne.symm hq) (Ne.symm hb) (ih hqs hbs)

theorem unescapes_of_plain (hb : '\\' ∉ cs) : Unescapes cs cs := by
  induction cs with
  | nil => exact .nil
  | cons c cs ih =>
      obtain ⟨hb, hbs⟩ := not_or.1 (mt List.mem_cons.2 hb)
      exact .plain (Ne.symm hb) (ih hbs)

theorem divides_comma : Divides ',' := divides_of rfl (by decide) (by decide)

theorem divides_squareClose : Divides ']' := divides_of rfl (by decide) (by decide)

theorem longest_squareOpen (rest : List Char) :
    Longest ('[' :: rest) ⟨.sign .squareOpen, ['['], rest⟩ :=
  cut?_eq_some_iff.1 (by cases rest <;> rfl)

theorem longest_minus (rest : List Char) :
    Longest ('-' :: rest) ⟨.sign (.operator .sub), ['-'], rest⟩ :=
  cut?_eq_some_iff.1 (by cases rest <;> rfl)

end Lexeme

namespace Value

variable {v : Value} {n : Int} {m : Nat} {tail : List Char} {items : List Value}

theorem element_ofNat (m : Nat) : (integer m).element = m.repr := by
  rw [element, text]
  · rfl
  · nofun

theorem text_neg (h : 0 < m) : (integer (-m)).text = "-" ++ m.repr := by
  obtain ⟨k, rfl⟩ := Nat.exists_eq_succ_of_ne_zero (Nat.ne_of_gt h)
  rw [text]
  rfl

theorem Plain.reads (h : v.Plain) (hw : v.Denotable) : Reads (.value v, v.element) := by
  cases h with
  | integer n =>
      obtain ⟨hpos, hle⟩ := hw n rfl
      obtain ⟨m, rfl⟩ := Int.eq_ofNat_of_zero_le hpos
      rw [element_ofNat]
      exact ⟨.integer, Lexeme.spells_repr m, Lexeme.denotes_repr (by omega)⟩
  | boolean b =>
      refine ⟨.word, ?_⟩
      cases b
      · exact ⟨.word rfl (List.all_eq_true.1 rfl), .keyword (by simp [element, text, Lexeme.keywords])⟩
      · exact ⟨.word rfl (List.all_eq_true.1 rfl), .keyword (by simp [element, text, Lexeme.keywords])⟩
  | @string s hq hb =>
      have htext : (Value.string s).element.toList = '"' :: (s.toList ++ ['"']) := by
        simp [element, enclosed]
      have hd : Denotes .string ('"' :: (s.toList ++ ['"']))
          (.value (.string (String.ofList s.toList))) := .string (Lexeme.unescapes_of_plain hb)
      rw [String.ofList_toList] at hd
      exact ⟨.string, htext ▸ .string rfl (Lexeme.quotable_of_plain hq hb), htext ▸ hd⟩

def row : List Value → List Token
  | [] => []
  | [v] => [⟨.value v, v.element, .start⟩]
  | v :: w :: more => ⟨.value v, v.element, .start⟩ :: ⟨.comma, ",", .start⟩ :: row (w :: more)

theorem row_contents (items : List Value) : Grammar.Contents (row items) (items.map .constant) := by
  have hrow (v : Value) (more : List Value) :
      Grammar.Row (row (v :: more)) ((v :: more).map .constant) := by
    induction more generalizing v with
    | nil => exact .last (.value rfl)
    | cons w more ih => exact .more (.value rfl) rfl (ih w)
  cases items with
  | nil => exact .empty
  | cons v more => exact .row (hrow v more)

theorem behindOpening_scans (hp : ∀ v ∈ items, v.Plain) (hw : ∀ v ∈ items, v.Denotable) :
    Scans (behindOpening items) ((row items).map Token.unplaced ++ [(.squareClose, "]")]) := by
  have hclose : Scans [']'] [(.squareClose, "]")] :=
    .of_spells (.sign (by simp [Lexeme.signs])) .sign
  have helement {v : Value} (hv : v.Plain) (hwv : v.Denotable) :
      Scans v.element.toList [(.value v, v.element)] := by
    obtain ⟨shape, hspells, hdenotes⟩ := hv.reads hwv
    have hscans := Scans.of_spells hspells hdenotes
    rwa [String.ofList_toList] at hscans
  induction items using behindOpening.induct with
  | case1 => exact hclose
  | case2 v =>
      have hv := helement (hp v List.mem_cons_self) (hw v List.mem_cons_self)
      exact hv.append hclose (Lexeme.divided_cons Lexeme.divides_squareClose [])
  | case3 v w more ih =>
      have hv := helement (hp v List.mem_cons_self) (hw v List.mem_cons_self)
      have hmore := ih (fun u hu => hp u (List.mem_cons_of_mem v hu))
        (fun u hu => hw u (List.mem_cons_of_mem v hu))
      have hcomma : Scans [','] [(.comma, ",")] :=
        .of_spells (.sign (by simp [Lexeme.signs])) .sign
      have hbehind := hcomma.append (hmore.space (c := ' ') rfl)
        (Lexeme.divided_cons (Lexeme.divides_space rfl) _)
      exact hv.append hbehind (Lexeme.divided_cons Lexeme.divides_comma _)

theorem parseSource_text (hp : ∀ v ∈ items, v.Plain) (hw : ∀ v ∈ items, v.Denotable) :
    parseSource (list items).text = .ok (.list (items.map .constant)) := by
  have hd : Grammar.Derives maxNesting 6
      (⟨.squareOpen, "[", .start⟩ :: (row items ++ [⟨.squareClose, "]", .start⟩]))
      (.list (items.map .constant)) := .list rfl rfl (row_contents items)
  refine Grammar.parseSource_of_scans ?_ (hd.looser (by decide) (Nat.le_refl 6))
  rw [toList_text_list]
  simpa [Token.unplaced] using
    Scans.lexeme (Lexeme.longest_squareOpen _) .sign (behindOpening_scans hp hw)

/-- If the scan goes on behind an element and an item is read there, it could be written. -/
theorem Plain.denotable_of_items {p : Position} {ts rest : List Token} {es : List Expr} (h : v.Plain)
    (ht : Divided tail) (hs : scan p (v.element.toList ++ tail) = .ok ts)
    (hy : (Parse.items true ts).Yields es rest) :
    v.Denotable ∧ ∃ q us es', scan q tail = .ok us ∧ (Parse.items false us).Yields es' rest := by
  by_cases hw : v.Denotable
  · obtain ⟨shape, hspells, hdenotes⟩ := h.reads hw
    have hlongest := hspells.longest.append_divided ht
    obtain ⟨us, hus, rfl⟩ := Lexeme.scan_denotes_ok hlongest hdenotes hs
    rcases Parse.items_true_cons_yields.1 hy with ⟨hclose, -⟩ | ⟨e, es', -, hes, -⟩
    · cases hclose
    · exact ⟨hw, _, us, es', hus, hes⟩
  · simp only [Denotable, not_forall] at hw
    obtain ⟨n, rfl, hn⟩ := hw
    rcases Int.lt_or_le n 0 with hneg | hpos
    · -- the sign is no item
      obtain ⟨m, rfl⟩ := Int.exists_eq_neg_ofNat hneg.le
      have htext : (Value.integer (-m)).element = "-" ++ m.repr := text_neg (by omega)
      rw [htext, String.toList_append, List.append_assoc] at hs
      obtain ⟨us, -, rfl⟩ := Lexeme.scan_denotes_ok (Lexeme.longest_minus _) .sign hs
      rcases Parse.items_true_cons_yields.1 hy with ⟨hclose, -⟩ | ⟨e, es', hitem, -⟩
      · cases hclose
      · rcases Grammar.item_iff.1 hitem with ⟨_, hkind, -⟩ | ⟨hkind, -⟩ <;> cases hkind
    · obtain ⟨m, rfl⟩ := Int.eq_ofNat_of_zero_le hpos
      have hlarge : 2 ^ 63 - 1 < Lexeme.decimal m.repr.toList := by
        rw [Lexeme.decimal_repr]
        omega
      rw [element_ofNat] at hs
      have hlongest := (Lexeme.spells_repr m).longest.append_divided ht
      cases hs.symm.trans (Lexeme.scan_stuck (.literal hlongest (.integer hlarge)) p)

theorem denotable_of_items {p : Position} {ts rest : List Token} {es : List Expr}
    (hp : ∀ v ∈ items, v.Plain) (hs : scan p (behindOpening items) = .ok ts)
    (hy : (Parse.items true ts).Yields es rest) : ∀ v ∈ items, v.Denotable := by
  induction items using behindOpening.induct generalizing p ts es with
  | case1 => simp
  | case2 v =>
      have hdivided := Lexeme.divided_cons Lexeme.divides_squareClose []
      simpa using ((hp v List.mem_cons_self).denotable_of_items hdivided hs hy).1
  | case3 v w more ih =>
      obtain ⟨hv, hmore⟩ := List.forall_mem_cons.1 hp
      have hdivided := Lexeme.divided_cons Lexeme.divides_comma (' ' :: behindOpening (w :: more))
      obtain ⟨hw, q, us, es', hus, hes⟩ := hv.denotable_of_items hdivided hs hy
      have hcomma : Longest (',' :: ' ' :: behindOpening (w :: more))
          ⟨.sign .comma, [','], ' ' :: behindOpening (w :: more)⟩ := Lexeme.cut?_eq_some_iff.1 rfl
      obtain ⟨vs, hvs, rfl⟩ := Lexeme.scan_denotes_ok hcomma .sign hus
      have hbehind := (Lexeme.scan_space rfl _ _).symm.trans hvs
      rcases Parse.items_false_cons_yields.1 hes with ⟨hclose, -⟩ | ⟨-, hes⟩
      · cases hclose
      · exact List.forall_mem_cons.2 ⟨hw, ih hmore hbehind hes⟩

theorem denotable_of_parseSource {e : Expr} (hp : ∀ v ∈ items, v.Plain)
    (h : parseSource (list items).text = .ok e) : ∀ v ∈ items, v.Denotable := by
  have hbare : Bare (list items).text := by
    rw [Bare, toList_text_list]
    rintro ⟨rest, hrest⟩
    cases hrest
  obtain ⟨opening, ts, closing, hs, -, -, -, hd⟩ := Grammar.derives_of_bare hbare h
  rw [toList_text_list] at hs
  obtain ⟨us, hus, rfl⟩ := Lexeme.scan_denotes_ok (Lexeme.longest_squareOpen _) .sign hs
  have hend : Parse.AtEnd [] := by simp [Parse.AtEnd]
  have hparse := Grammar.parse_yields_iff.2 ⟨_, (List.append_nil _).symm, hend, hd⟩
  obtain ⟨left, mid, hoperand, -⟩ := Parse.expression_yields.1 (Parse.parse_yields.1 hparse).1
  rcases Parse.operand_cons_yields.1 hoperand with
    ⟨hitem, -⟩ | ⟨-, es, hes, -⟩ | ⟨hround, -⟩ | ⟨op, a, hop, -⟩
  · rcases Grammar.item_iff.1 hitem with ⟨_, hkind, -⟩ | ⟨hkind, -⟩ <;> cases hkind
  · exact denotable_of_items hp hus hes
  · cases hround
  · cases hop

theorem evalItems_constants (c : Context) (items : List Value) :
    Expr.evalItems c (items.map .constant) = .ok items := by
  induction items with
  | nil => rfl
  | cons v items ih => simp [Expr.evalItems, Expr.eval, ih, Except.map]

theorem evaluateSource_text_list (c : Context) (hp : ∀ v ∈ items, v.Plain)
    (hw : ∀ v ∈ items, v.Denotable) : evaluateSource c (list items).text = .ok (list items) := by
  rw [evaluateSource_of_parseSource (parseSource_text hp hw), Expr.eval, evalItems_constants]
  rfl

theorem evaluateSource_text_integer (c : Context) (hl : -2 ^ 63 < n) (hu : n ≤ 2 ^ 63 - 1) :
    evaluateSource c (integer n).text = .ok (integer n) := by
  have hscans (m : Nat) (hm : m ≤ 2 ^ 63 - 1) :
      Scans m.repr.toList [(.value (.integer m), m.repr)] := by
    have hscans := Scans.of_spells (Lexeme.spells_repr m) (Lexeme.denotes_repr hm)
    rwa [String.ofList_toList] at hscans
  rcases Int.lt_or_le n 0 with hneg | hpos
  · obtain ⟨m, rfl⟩ := Int.exists_eq_neg_ofNat hneg.le
    have hd : Grammar.Derives maxNesting 6
        [⟨.operator .sub, "-", .start⟩, ⟨.value (.integer m), m.repr, .start⟩]
        (.unary .sub (.constant (.integer m))) := .unary (by decide) rfl (.item (.value rfl))
    have htree : parseSource (integer (-m)).text = .ok (.unary .sub (.constant (.integer m))) := by
      refine Grammar.parseSource_of_scans ?_ (hd.looser (by decide) (Nat.le_refl 6))
      rw [text_neg (by omega), String.toList_append]
      exact Scans.lexeme (Lexeme.longest_minus _) .sign (hscans m (by omega))
    have hfits : inRange (-m) = true := inRange_iff.2 (by omega)
    rw [evaluateSource_of_parseSource htree]
    simp [Expr.eval, Operator.applyUnary, checkRange, hfits, Except.map, Except.mapError]
  · obtain ⟨m, rfl⟩ := Int.eq_ofNat_of_zero_le hpos
    have hd : Grammar.Derives maxNesting 6 [⟨.value (.integer m), m.repr, .start⟩]
        (.constant (.integer m)) := .item (.value rfl)
    have htree : parseSource (integer m).text = .ok (.constant (.integer m)) := by
      refine Grammar.parseSource_of_scans ?_ (hd.looser (by decide) (Nat.le_refl 6))
      have htext : (integer m).text = m.repr := by
        rw [text]
        rfl
      rw [htext]
      exact hscans m (by omega)
    rw [evaluateSource_of_parseSource htree]
    rfl

end Value

open Value (Plain Denotable)

/-- The text of a list of integers, truth values and texts without double quotes and backslashes has a
value if and only if all integers are from zero to the largest one of 64 bits, and this value is the
list. The text of an integer that has 64 bits together with its opposite has this integer as its value. -/
theorem text_reads_back :
    (∀ items : List Value, (∀ v ∈ items, v.Plain) →
      ((∃ w, evaluateSource .empty (formatValue (.list items) .text) = .ok w) ↔
        ∀ n, .integer n ∈ items → 0 ≤ n ∧ n ≤ 2 ^ 63 - 1) ∧
      ∀ w, evaluateSource .empty (formatValue (.list items) .text) = .ok w → w = .list items) ∧
    ∀ n : Int, -2 ^ 63 < n → n ≤ 2 ^ 63 - 1 →
      evaluateSource .empty (formatValue (.integer n) .text) = .ok (.integer n) := by
  refine ⟨fun items hp => ?_, fun n hl hu => Value.evaluateSource_text_integer .empty hl hu⟩
  simp only [formatValue]
  have hdenotable : ∀ w, evaluateSource .empty (Value.list items).text = .ok w →
      ∀ v ∈ items, v.Denotable := by
    intro w hw
    cases htree : parseSource (Value.list items).text with
    | error i => simp [evaluateSource, htree] at hw
    | ok e => exact Value.denotable_of_parseSource hp htree
  have hvalue := Value.evaluateSource_text_list .empty hp
  refine ⟨⟨?_, fun h => ⟨.list items, hvalue ?_⟩⟩, fun w hw => ?_⟩
  · rintro ⟨w, hw⟩ n hn
    exact hdenotable w hw _ hn n rfl
  · rintro v hv n rfl
    exact h n hv
  · have h := hvalue (hdenotable w hw)
    exact Except.ok.inj (hw.symm.trans h)

theorem text_reads_back_largest :
    let items : List Value := [.integer 9223372036854775807, .boolean true, .string "a, ']\n"]
    (∀ v ∈ items, v.Plain) ∧ (∀ n, Value.integer n ∈ items → 0 ≤ n ∧ n ≤ 2 ^ 63 - 1) ∧
      evaluateSource .empty "[9223372036854775807, true, \"a, ']\n\"]" = .ok (.list items) ∧
      (-2 ^ 63 : Int) < -9223372036854775807 ∧ (-9223372036854775807 : Int) ≤ 2 ^ 63 - 1 ∧
      evaluateSource .empty "-9223372036854775807" = .ok (.integer (-9223372036854775807)) := by
  intro items
  have hp : ∀ v ∈ items, v.Plain := by
    simp only [items, List.forall_mem_cons]
    exact ⟨.integer _, .boolean _, .string (by decide) (by decide), by simp⟩
  have hfits : ∀ n, Value.integer n ∈ items → 0 ≤ n ∧ n ≤ 2 ^ 63 - 1 := by simp [items]
  have htext : formatValue (.list items) .text =
      "[9223372036854775807, true, \"a, ']\n\"]" := by rfl
  have hinteger : formatValue (.integer (-9223372036854775807)) .text =
      "-9223372036854775807" := by rfl
  obtain ⟨hiff, hvalue⟩ := text_reads_back.1 items hp
  obtain ⟨w, hw⟩ := hiff.2 hfits
  have hlist := hvalue w hw ▸ hw
  have hleast := text_reads_back.2 (-9223372036854775807) (by decide) (by decide)
  exact ⟨hp, hfits, htext ▸ hlist, by decide, by decide, hinteger ▸ hleast⟩

end TemplateExpr
