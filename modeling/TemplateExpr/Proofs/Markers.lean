import TemplateExpr.Proofs.Composition
import TemplateExpr.Proofs.Grammar.Relocation
import TemplateExpr.Report.Diagnostic
import TemplateExpr.Text.Blank

namespace TemplateExpr

def blockSource (source : String) : String := "<% " ++ source ++ " %>"

/-- The same is wrong, wherever it is. -/
inductive Failure.Alike : Failure → Failure → Prop
  | lexical {e e' : LexicalError} (h : e.problem = e'.problem) : Alike (.lexical e) (.lexical e')
  | grammatical {e e' : SyntaxError} (h : e.Alike e') : Alike (.grammatical e) (.grammatical e')
  | fault (f : Fault) : Alike (.fault f) (.fault f)

namespace Incident

structure Alike (i j : Incident) : Prop where
  label : i.label? = j.label?
  failure : i.failure.Alike j.failure

theorem alike_of_failure {i j : Incident} (h : i.failure.Alike j.failure) : i.Alike j := by
  obtain ⟨failure, source⟩ := i
  obtain ⟨failure', source'⟩ := j
  refine ⟨?_, h⟩
  cases h with
  | lexical _ => rfl
  | grammatical h => cases h <;> rfl
  | fault f => simp [label?, Diagnostic.ofIncident?, Diagnostic.unplaced, Function.comp_def]

end Incident

/-- More counts as white space in front of a source than the grammar takes for spaces. -/
theorem bare_of_separating {source : String}
    (h : ¬ ['<', '%'] <+: source.toList.dropWhile Text.isSeparating) : Bare source := by
  rintro ⟨rest, hrest⟩
  have hspaces : ∀ c ∈ source.toList.takeWhile Lexeme.isSpace, Text.isSeparating c = true :=
    fun c hc => Lexeme.isSeparating_of_isSpace (List.mem_takeWhile_imp hc)
  refine h ⟨rest, ?_⟩
  rw [← List.takeWhile_append_dropWhile (p := Lexeme.isSpace) (l := source.toList),
    List.dropWhile_append_of_pos hspaces, ← hrest]
  rfl

theorem blockSource_toList (source : String) : (blockSource source).toList =
    '<' :: '%' :: ' ' :: (source.toList ++ [' ', '%', '>']) := by
  simp [blockSource]

/-- The scan of a block finds its markers, and between them the tokens of the source. -/
theorem scan_blockSource {source : String} {ts : List Token}
    (h : scan .start source.toList = .ok ts) : ∃ opening us closing,
      scan .start (blockSource source).toList = .ok (opening :: (us ++ [closing])) ∧
        opening.kind = .blockStart ∧ closing.kind = .blockEnd ∧
          ts.map Token.content = us.map Token.content := by
  have hend : Scans [' ', '%', '>'] [(.blockEnd, "%>")] :=
    Scans.space (c := ' ') rfl (.of_spells (.sign (by simp [Lexeme.signs])) .sign)
  have hinner := (Scans.of_scan h).append hend (Lexeme.divided_cons (Lexeme.divides_space rfl) _)
  have hblock := Scans.lexeme (Lexeme.longest_blockStart _) .sign (hinner.space (c := ' ') rfl)
  obtain ⟨tokens, hscan, hmap⟩ := hblock .start
  obtain ⟨opening, more, rfl, hopening, hmore⟩ := List.map_eq_cons_iff.1 hmap
  obtain ⟨us, last, rfl, hus, hlast⟩ := List.map_eq_append_iff.1 hmore
  obtain ⟨closing, rfl, hclosing⟩ := List.map_eq_singleton_iff.1 hlast
  exact ⟨opening, us, closing, blockSource_toList source ▸ hscan, congrArg Prod.fst hopening,
    congrArg Prod.fst hclosing, (Token.content_of_unplaced hus).symm⟩

theorem scan_blockSource_error {source : String} {e : LexicalError}
    (h : scan .start source.toList = .error e) :
    ∃ e', scan .start (blockSource source).toList = .error e' ∧ e.problem = e'.problem := by
  have hdivided := Lexeme.divided_cons (Lexeme.divides_space (d := ' ') rfl) ['%', '>']
  have hquote : ∀ d ∈ [' ', '%', '>'], Lexeme.isQuote d = false := by simp [Lexeme.isQuote]
  obtain ⟨e', he', hproblem⟩ := scan_error_append h hdivided hquote
    ((Position.start.advance ['<', '%']).next ' ')
  refine ⟨e', ?_, hproblem.symm⟩
  rw [blockSource_toList, Lexeme.scan_denotes (Lexeme.longest_blockStart _) .sign,
    Lexeme.scan_space rfl, he', Except.map]

theorem parseSource_parallel_of_content {source other : String} {ts us : List Token}
    (ht : tokenize source = .ok ts) (hu : tokenize other = .ok us)
    (hcontent : ts.map Token.content = us.map Token.content) :
    Parallel Incident.Alike Eq (parseSource source) (parseSource other) := by
  rw [parseSource, parseSource, ht, hu]
  exact (parseBlock_parallel hcontent).mapError fun _ _ he =>
    Incident.alike_of_failure (.grammatical he)

theorem evaluateSource_parallel_of_parse {source other : String}
    (h : Parallel Incident.Alike Eq (parseSource source) (parseSource other)) (c : Context) :
    Parallel Incident.Alike Eq (evaluateSource c source) (evaluateSource c other) := by
  rw [evaluateSource, evaluateSource]
  generalize parseSource source = tree, parseSource other = tree' at h ⊢
  cases h with
  | error h => exact .error h
  | @ok e _ h =>
      obtain rfl := h
      simp only
      cases evaluate c e with
      | ok v => exact .ok rfl
      | error f =>
          refine .error (Incident.alike_of_failure ?_)
          rw [Incident.inSource_failure, Incident.inSource_failure]
          exact .fault f

namespace Bare

variable {source : String}

theorem tokenize_ok {ts : List Token} (hbare : Bare source)
    (h : scan .start source.toList = .ok ts) : ∃ us vs, tokenize source = .ok us ∧
      tokenize (blockSource source) = .ok vs ∧ us.map Token.content = vs.map Token.content := by
  obtain ⟨opening, us, closing, hus, hopening, hclosing, hcontent⟩ := scan_blockSource h
  refine ⟨_, _, tokenize_ok_iff.2 ⟨ts, h, rfl⟩, tokenize_ok_iff.2 ⟨_, hus, rfl⟩, ?_⟩
  -- markers are added to the tokens of the source only, those of the block are there already
  have hblock : Token.isBlock (opening :: (us ++ [closing])) = true :=
    Token.Kind.isBlockStart_iff.2 hopening
  rw [if_neg (mt (isBlock_iff h).1 hbare), if_pos hblock]
  simp [hcontent, Token.content, hopening, hclosing]

theorem parseSource_parallel (hbare : Bare source) :
    Parallel Incident.Alike Eq (parseSource source) (parseSource (blockSource source)) := by
  cases h : scan .start source.toList with
  | error e =>
      obtain ⟨e', he', hproblem⟩ := scan_blockSource_error h
      rw [parseSource, parseSource, tokenize_error_iff.2 h, tokenize_error_iff.2 he']
      exact .error (Incident.alike_of_failure (.lexical hproblem))
  | ok ts =>
      obtain ⟨us, vs, hus, hvs, hcontent⟩ := hbare.tokenize_ok h
      exact parseSource_parallel_of_content hus hvs hcontent

theorem evaluateSource_parallel (hbare : Bare source) (c : Context) :
    Parallel Incident.Alike Eq (evaluateSource c source) (evaluateSource c (blockSource source)) :=
  evaluateSource_parallel_of_parse hbare.parseSource_parallel c

end Bare

/-- A source that does not begin as a block, white space apart, has the tree that its block has and in
every context the value, or fails as its block does. -/
theorem bare_source_means_block {source : String}
    (h : ¬ ['<', '%'] <+: source.toList.dropWhile Text.isSeparating) :
    Parallel Incident.Alike Eq (parseSource source) (parseSource (blockSource source)) ∧
      ∀ c, Parallel Incident.Alike Eq (evaluateSource c source)
        (evaluateSource c (blockSource source)) :=
  have hbare := bare_of_separating h
  ⟨hbare.parseSource_parallel, hbare.evaluateSource_parallel⟩

theorem bare_source_means_block_marked :
    let e : Expr := .binary .add (.name "x") (.constant (.integer 1))
    (¬ ['<', '%'] <+: "x + 1".toList.dropWhile Text.isSeparating ∧
      parseSource "x + 1" = .ok e ∧ parseSource (blockSource "x + 1") = .ok e) ∧
    ¬ ['<', '%'] <+: "1 %>".toList.dropWhile Text.isSeparating ∧
      parseSource "1 %>" = .error
        ⟨.grammatical (.blame .afterBlockEnd ⟨.blockEnd, "", ⟨1, 5, 4⟩⟩), some "1 %>"⟩ ∧
      Parallel Incident.Alike Eq (parseSource "1 %>") (parseSource (blockSource "1 %>")) ∧
      ∀ c, Parallel Incident.Alike Eq (evaluateSource c "1 %>")
        (evaluateSource c (blockSource "1 %>")) := by
  intro e
  have hsum : ¬ ['<', '%'] <+: "x + 1".toList.dropWhile Text.isSeparating := by decide
  have hsumTokens : tokenize "x + 1" = .ok [⟨.blockStart, "", ⟨1, 1, 0⟩⟩, ⟨.name, "x", ⟨1, 1, 0⟩⟩,
      ⟨.operator .add, "+", ⟨1, 3, 2⟩⟩, ⟨.value (.integer 1), "1", ⟨1, 5, 4⟩⟩,
      ⟨.blockEnd, "", ⟨1, 6, 5⟩⟩] := by
    have htext : "x + 1".toList = ['x', ' ', '+', ' ', '1'] := rfl
    have hname : Lexeme.cut? ['x', ' ', '+', ' ', '1'] = some ⟨.word, ['x'], [' ', '+', ' ', '1']⟩ := rfl
    have hsign : Lexeme.cut? ['+', ' ', '1'] = some ⟨.sign (.operator .add), ['+'], [' ', '1']⟩ := rfl
    have hone : Lexeme.cut? ['1'] = some ⟨.integer, ['1'], []⟩ := rfl
    rw [tokenize_eq, htext, Lexeme.scan_longest (Lexeme.cut?_eq_some_iff.1 hname),
      Lexeme.scan_space rfl, Lexeme.scan_longest (Lexeme.cut?_eq_some_iff.1 hsign),
      Lexeme.scan_space rfl, Lexeme.scan_longest (Lexeme.cut?_eq_some_iff.1 hone), scan]
    rfl
  have hparse : parseSource "x + 1" = .ok e := by
    rw [parseSource, hsumTokens]
    cbv
  have hblock : parseSource (blockSource "x + 1") = .ok e := by
    have hsame := (bare_source_means_block hsum).1
    rw [hparse] at hsame
    generalize parseSource (blockSource "x + 1") = tree at hsame ⊢
    cases hsame with
    | ok he => rw [he]
  have h : ¬ ['<', '%'] <+: "1 %>".toList.dropWhile Text.isSeparating := by decide
  refine ⟨⟨hsum, hparse, hblock⟩, h, ?_, bare_source_means_block h⟩
  have htokens : tokenize "1 %>" = .ok [⟨.blockStart, "", ⟨1, 1, 0⟩⟩,
      ⟨.value (.integer 1), "1", ⟨1, 1, 0⟩⟩, ⟨.blockEnd, "%>", ⟨1, 3, 2⟩⟩,
      ⟨.blockEnd, "", ⟨1, 5, 4⟩⟩] := by
    have htext : "1 %>".toList = ['1', ' ', '%', '>'] := rfl
    have hone : Lexeme.cut? ['1', ' ', '%', '>'] = some ⟨.integer, ['1'], [' ', '%', '>']⟩ := rfl
    have hmarker : Lexeme.cut? ['%', '>'] = some ⟨.sign .blockEnd, ['%', '>'], []⟩ := rfl
    rw [tokenize_eq, htext, Lexeme.scan_longest (Lexeme.cut?_eq_some_iff.1 hone),
      Lexeme.scan_space rfl, Lexeme.scan_longest (Lexeme.cut?_eq_some_iff.1 hmarker), scan]
    rfl
  rw [parseSource, htokens]
  cbv

end TemplateExpr
