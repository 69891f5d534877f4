import TemplateExpr.Proofs.Grammar.Acceptance
import TemplateExpr.Proofs.Grammar.Shape
import TemplateExpr.Proofs.Lexing.Joining

namespace TemplateExpr

/-- A source does not begin as a block, spaces apart. -/
def Bare (source : String) : Prop :=
  ¬ ['<', '%'] <+: source.toList.dropWhile Lexeme.isSpace

instance (source : String) : Decidable (Bare source) := inferInstanceAs (Decidable (¬ _))

/-- A bare source with its tree, in which one more level of brackets is left. -/
structure Part (source : String) (e : Expr) : Prop where
  bare : Bare source
  tree : parseSource source = .ok e
  room : ∃ ts, tokenize source = .ok ts ∧ Grammar.nesting 0 ts < maxNesting

def Operator.Spelled (op : Operator) (text : String) : Prop :=
  text = op.symbol ∨ (text, .operator op) ∈ Lexeme.keywords

def Incident.movedTo (source : String) (i : Incident) : Incident :=
  { i with source := i.source.map fun _ => source }

theorem Incident.movedTo_inSource (source other : String) (f : Fault) :
    ((ofFault f).inSource source).movedTo other = (ofFault f).inSource other := by
  cases h : f.isOfExpression <;> simp [inSource, ofFault, movedTo, Failure.isOfExpression, h]

theorem Operator.Spelled.scans {op : Operator} {text : String} (h : op.Spelled text) :
    Scans text.toList [(.operator op, text)] := by
  rcases h with rfl | h
  · have hsign : (op.symbol.toList, Token.Kind.operator op) ∈ Lexeme.signs := by
      cases op <;> simp [symbol, Lexeme.signs]
    have hscans := Scans.of_spells (.sign hsign) .sign
    rwa [String.ofList_toList] at hscans
  · have hword : Lexeme.Spells text.toList .word := by
      simp only [Lexeme.keywords, List.mem_cons, Prod.mk.injEq, Token.Kind.operator.injEq,
        reduceCtorEq, and_false, or_false, List.not_mem_nil] at h
      rcases h with ⟨rfl, -⟩ | ⟨rfl, -⟩ | ⟨rfl, -⟩
      all_goals exact .word rfl (List.all_eq_true.1 rfl)
    have hkeyword : Lexeme.Denotes .word text.toList (.operator op) :=
      .keyword (by rwa [String.ofList_toList])
    have hscans := Scans.of_spells hword hkeyword
    rwa [String.ofList_toList] at hscans

namespace Token

theorem content_of_unplaced {ts us : List Token} (h : ts.map unplaced = us.map unplaced) :
    ts.map content = us.map content := by
  induction ts generalizing us with
  | nil =>
      rw [List.map_eq_nil_iff.1 h.symm]
  | cons t ts ih =>
      obtain ⟨u, us, rfl, hu, hus⟩ := List.map_eq_cons_iff.1 h.symm
      obtain ⟨hkind, htext⟩ := Prod.mk.inj hu
      rw [List.map_cons, List.map_cons, content_eq hkind.symm htext.symm, ih hus.symm]

end Token

namespace Grammar

variable {depth level : Nat} {p ts : List Token} {e : Expr} {source : String}

theorem Derives.isBlock_eq_false (h : Derives depth level p e) : Token.isBlock p = false := by
  induction h with
  | tighter _ _ ih => exact ih
  | @binary _ _ p _ _ _ _ _ _ ht _ _ ihp _ =>
      cases p with
      | nil => simp [Token.isBlock, ht, Token.Kind.isBlockStart]
      | cons t p => exact ihp
  | unary _ ht _ _ => simp [Token.isBlock, ht, Token.Kind.isBlockStart]
  | item h => cases h <;> simp [Token.isBlock, *, Token.Kind.isBlockStart]
  | list ho _ _ => simp [Token.isBlock, ho, Token.Kind.isBlockStart]
  | group ho _ _ _ => simp [Token.isBlock, ho, Token.Kind.isBlockStart]

theorem tokenize_of_scans (hs : Scans source.toList (ts.map Token.unplaced))
    (hd : Derives depth level ts e) : ∃ opening us closing,
      tokenize source = .ok (opening :: (us ++ [closing])) ∧ opening.kind = .blockStart ∧
        closing.kind = .blockEnd ∧ ts.map Token.content = us.map Token.content := by
  obtain ⟨us, hus, hmap⟩ := hs .start
  have hcontent := Token.content_of_unplaced hmap.symm
  have hblock := (hd.of_content hcontent).isBlock_eq_false
  refine ⟨⟨.blockStart, "", .start⟩, us, ⟨.blockEnd, "", Position.start.advance source.toList⟩,
    tokenize_ok_iff.2 ⟨us, hus, ?_⟩, rfl, rfl, hcontent⟩
  -- a phrase does not begin with the marker of a block, so markers are added
  rw [hblock, if_neg Bool.false_ne_true, List.cons_append]

theorem parseSource_of_scans (hs : Scans source.toList (ts.map Token.unplaced))
    (hd : Derives maxNesting 1 ts e) : parseSource source = .ok e := by
  obtain ⟨opening, us, closing, ht, ho, hc, hcontent⟩ := tokenize_of_scans hs hd
  exact parseSource_eq_ok_iff.2 ⟨_, ht,
    parseBlock_eq_ok_iff.2 ⟨opening, us, closing, rfl, ho, hc, hd.of_content hcontent⟩⟩

theorem derives_of_bare (hbare : Bare source) (h : parseSource source = .ok e) :
    ∃ opening ts closing, scan .start source.toList = .ok ts ∧
      tokenize source = .ok (opening :: (ts ++ [closing])) ∧ opening.kind = .blockStart ∧
        closing.kind = .blockEnd ∧ Derives maxNesting 1 ts e := by
  obtain ⟨tokens, ht, hblock⟩ := parseSource_eq_ok_iff.1 h
  obtain ⟨ts, hscan, rfl⟩ := tokenize_ok_iff.1 ht
  have hfalse : Token.isBlock ts = false := Bool.eq_false_iff.2 (mt (isBlock_iff hscan).1 hbare)
  rw [hfalse, if_neg Bool.false_ne_true] at ht hblock
  obtain ⟨opening, p, closing, htokens, ho, hc, hd⟩ := parseBlock_eq_ok_iff.1 hblock
  obtain ⟨rfl, hp⟩ := List.cons.inj htokens
  obtain ⟨rfl, hclosing⟩ := List.append_inj' hp rfl
  exact ⟨_, ts, closing, hscan, hclosing ▸ ht, ho, hc, hd⟩

theorem nesting_block {opening closing : Token} (ho : opening.kind = .blockStart)
    (hc : closing.kind = .blockEnd) (hd : Derives depth level ts e) :
    nesting 0 (opening :: (ts ++ [closing])) = nesting 0 ts := by
  have hopening : openAfter 0 opening = 0 := by simp [openAfter, ho]
  have hclosing : openAfter 0 closing = 0 := by simp [openAfter, hc]
  rw [nesting_cons hopening, hd.balanced, nesting_cons hclosing, nesting]
  omega

end Grammar

open Grammar

/-- The parts are the bare sources whose tokens are phrases with one level of brackets to spare. -/
theorem part_iff {source : String} {e : Expr} : Part source e ↔
    Bare source ∧ ∃ ts, Scans source.toList (ts.map Token.unplaced) ∧ Derives 63 1 ts e := by
  constructor
  · intro h
    obtain ⟨opening, ts, closing, hscan, ht, ho, hc, hd⟩ := derives_of_bare h.bare h.tree
    obtain ⟨tokens, htokens, hroom⟩ := h.room
    cases ht.symm.trans htokens
    rw [nesting_block ho hc hd] at hroom
    have hinner : Derives 63 1 ts e := derives_iff_nesting_le.2 ⟨⟨_, hd⟩, Nat.le_of_lt_succ hroom⟩
    exact ⟨h.bare, ts, .of_scan hscan, hinner⟩
  · rintro ⟨hbare, ts, hs, hd⟩
    have hroom := Nat.lt_succ_of_le (derives_iff_nesting_le.1 hd).2
    have hmax : Derives maxNesting 1 ts e :=
      derives_iff_nesting_le.2 ⟨⟨_, hd⟩, Nat.le_of_lt hroom⟩
    obtain ⟨opening, us, closing, ht, ho, hc, hcontent⟩ := tokenize_of_scans hs hd
    refine ⟨hbare, parseSource_of_scans hs hmax, _, ht, ?_⟩
    rwa [nesting_block ho hc (hd.of_content hcontent), ← nesting_of_content hcontent]

theorem Part.operand {source : String} {e : Expr} (h : Part source e) :
    ∃ ts, Derives maxNesting 6 ts e ∧ ∀ tail found, Scans tail found →
      Scans ('(' :: (source.toList ++ ')' :: tail)) (ts.map Token.unplaced ++ found) := by
  obtain ⟨-, ts, hs, hd⟩ := part_iff.1 h
  refine ⟨⟨.roundOpen, "(", .start⟩ :: (ts ++ [⟨.roundClose, ")", .start⟩]), .group rfl rfl hd,
    fun tail found htail => ?_⟩
  simpa [Token.unplaced] using hs.enclosed htail

theorem evaluateSource_of_parseSource {source : String} {e : Expr} (h : parseSource source = .ok e)
    (c : Context) : evaluateSource c source =
      (e.eval c).mapError fun f => (Incident.ofFault f).inSource source := by
  simp only [evaluateSource, h, evaluate_eq_eval]

def joinedSource (left operator right : String) : String :=
  "(" ++ left ++ ") " ++ operator ++ " (" ++ right ++ ")"

def frontedSource (operator gap operand : String) : String :=
  operator ++ gap ++ "(" ++ operand ++ ")"

section

variable {c : Context} {s₁ s₂ text gap : String} {e₁ e₂ : Expr} {op : Operator}

theorem parseSource_joined (h₁ : Part s₁ e₁) (h₂ : Part s₂ e₂) (hop : op.isBinary = true)
    (ht : op.Spelled text) : parseSource (joinedSource s₁ text s₂) = .ok (.binary op e₁ e₂) := by
  obtain ⟨ts, hd₁, hs₁⟩ := h₁.operand
  obtain ⟨us, hd₂, hs₂⟩ := h₂.operand
  have hlevel := Operator.precedence_le_five hop
  have hleft := hd₁.looser op.precedence_le_six (Nat.le_refl 6)
  have hright := hd₂.looser (Nat.succ_le_succ hlevel) (Nat.le_refl 6)
  have hd : Derives maxNesting op.precedence (ts ++ ⟨.operator op, text, .start⟩ :: us)
      (.binary op e₁ e₂) := .binary (mem_operators_iff.2 ⟨hop, rfl⟩) rfl hleft hright
  have hbehind := Scans.space (c := ' ') rfl (hs₂ [] [] Scans.nil)
  have hmiddle := ht.scans.append hbehind (Lexeme.divided_cons (Lexeme.divides_space rfl) _)
  have hscans := hs₁ _ _ (Scans.space (c := ' ') rfl hmiddle)
  refine parseSource_of_scans ?_ (hd.looser op.precedence_pos op.precedence_le_six)
  simpa [joinedSource, Token.unplaced] using hscans

theorem parseSource_fronted (h₁ : Part s₁ e₁) (hop : op.isUnary = true) (ht : op.Spelled text)
    (hgap : ∀ ch ∈ gap.toList, Lexeme.isSpace ch = true) :
    parseSource (frontedSource text gap s₁) = .ok (.unary op e₁) := by
  obtain ⟨ts, hd₁, hs₁⟩ := h₁.operand
  have hd : Derives maxNesting 6 (⟨.operator op, text, .start⟩ :: ts) (.unary op e₁) :=
    .unary (mem_frontOperators_iff.2 hop) rfl hd₁
  have hdivided := Lexeme.divided_spaces hgap
    (Lexeme.divided_cons Lexeme.divides_roundOpen (s₁.toList ++ [')']))
  have hscans := ht.scans.append ((hs₁ [] [] Scans.nil).spaces hgap) hdivided
  refine parseSource_of_scans ?_ (hd.looser (by decide) (Nat.le_refl 6))
  simpa [frontedSource, Token.unplaced] using hscans

end

/-- Two parts joined by a binary operator give what it makes of their results, and the failure of the
left one before that of the right one; a part behind a front operator likewise. -/
theorem sources_compose {s₁ s₂ : String} {e₁ e₂ : Expr} (h₁ : Part s₁ e₁) (h₂ : Part s₂ e₂) :
    (∀ op text, op.isBinary = true → op.Spelled text →
      parseSource (joinedSource s₁ text s₂) = .ok (.binary op e₁ e₂) ∧
      ∀ c, evaluateSource c (joinedSource s₁ text s₂) =
        match evaluateSource c s₁, evaluateSource c s₂ with
        | .error i, _ => .error (i.movedTo (joinedSource s₁ text s₂))
        | .ok _, .error i => .error (i.movedTo (joinedSource s₁ text s₂))
        | .ok a, .ok b => (op.applyBinary a b).mapError fun f =>
            (Incident.ofFault f).inSource (joinedSource s₁ text s₂)) ∧
    ∀ op text gap, op.isUnary = true → op.Spelled text →
      (∀ ch ∈ gap.toList, Lexeme.isSpace ch = true) →
        parseSource (frontedSource text gap s₁) = .ok (.unary op e₁) ∧
        ∀ c, evaluateSource c (frontedSource text gap s₁) =
          match evaluateSource c s₁ with
          | .error i => .error (i.movedTo (frontedSource text gap s₁))
          | .ok a => (op.applyUnary a).mapError fun f =>
              (Incident.ofFault f).inSource (frontedSource text gap s₁) := by
  constructor
  · intro op text hop ht
    have hparse := parseSource_joined h₁ h₂ hop ht
    refine ⟨hparse, fun c => ?_⟩
    rw [evaluateSource_of_parseSource hparse, evaluateSource_of_parseSource h₁.tree,
      evaluateSource_of_parseSource h₂.tree, Expr.eval]
    cases e₁.eval c with
    | error f => exact congrArg Except.error (Incident.movedTo_inSource _ _ f).symm
    | ok a =>
        cases e₂.eval c with
        | error f => exact congrArg Except.error (Incident.movedTo_inSource _ _ f).symm
        | ok b => rfl
  · intro op text gap hop ht hgap
    have hparse := parseSource_fronted h₁ hop ht hgap
    refine ⟨hparse, fun c => ?_⟩
    rw [evaluateSource_of_parseSource hparse, evaluateSource_of_parseSource h₁.tree, Expr.eval]
    cases e₁.eval c with
    | error f => exact congrArg Except.error (Incident.movedTo_inSource _ _ f).symm
    | ok a => rfl

theorem sources_compose_words :
    let e₁ : Expr := .name "x"
    let e₂ : Expr := .unary .not (.name "y")
    Part "(x)" e₁ ∧ Part "not y" e₂ ∧ Operator.and.Spelled "and" ∧ Operator.sub.Spelled "-" ∧
      parseSource "((x)) and (not y)" = .ok (.binary .and e₁ e₂) ∧
      evaluateSource ⟨[("x", .integer 3)]⟩ "((x)) and (not y)" =
        .error ⟨.fault (.undefinedVariable "y" ["x"]), some "((x)) and (not y)"⟩ ∧
      parseSource "- ((x))" = .ok (.unary .sub e₁) ∧
      evaluateSource ⟨[("x", .integer 3)]⟩ "- ((x))" = .ok (.integer (-3)) := by
  intro e₁ e₂
  have hx : Scans ['x'] [(.name, "x")] :=
    .of_spells (.word rfl (by simp)) (.name (by simp [Lexeme.keywords]))
  have hy : Scans [' ', 'y'] [(.name, "y")] :=
    Scans.space (c := ' ') rfl (.of_spells (.word rfl (by simp)) (.name (by simp [Lexeme.keywords])))
  have h₁ : Part "(x)" e₁ := by
    have hinner : Derives 62 6 [⟨.name, "x", .start⟩] e₁ := .item (.name rfl)
    have hd : Derives 63 6 [⟨.roundOpen, "(", .start⟩, ⟨.name, "x", .start⟩,
        ⟨.roundClose, ")", .start⟩] e₁ :=
      .group (p := [_]) rfl rfl (hinner.looser (by decide) (by decide))
    refine part_iff.2 ⟨by decide, _, ?_, hd.looser (by decide) (by decide)⟩
    exact hx.enclosed .nil
  have h₂ : Part "not y" e₂ := by
    have hnot : Operator.not.Spelled "not" := .inr (by simp [Lexeme.keywords])
    have hgap := Lexeme.divided_cons (Lexeme.divides_space (d := ' ') rfl) ['y']
    have hd : Derives 63 6 [⟨.operator .not, "not", .start⟩, ⟨.name, "y", .start⟩] e₂ :=
      .unary (by decide) rfl (.item (.name rfl))
    refine part_iff.2 ⟨by decide, _, ?_, hd.looser (by decide) (by decide)⟩
    exact hnot.scans.append hy hgap
  have hand : Operator.and.Spelled "and" := .inr List.mem_cons_self
  have hsub : Operator.sub.Spelled "-" := .inl rfl
  obtain ⟨hjoin, hfront⟩ := sources_compose h₁ h₂
  obtain ⟨hparse, heval⟩ := hjoin .and "and" rfl hand
  obtain ⟨hparse', heval'⟩ := hfront .sub "-" " " rfl hsub (List.all_eq_true.1 rfl)
  refine ⟨h₁, h₂, hand, hsub, hparse, (heval _).trans ?_, hparse', (heval' _).trans ?_⟩
  · rw [evaluateSource_of_parseSource h₁.tree, evaluateSource_of_parseSource h₂.tree]
    rfl
  · rw [evaluateSource_of_parseSource h₁.tree]
    rfl

end TemplateExpr
