import TemplateExpr.Proofs.Lexing.Tiling
import TemplateExpr.Proofs.Markers

namespace TemplateExpr

open Lexeme (Denotes Gives Reaches Spells isSpace)

def spaced (front : List Char) (parts : List (String × List Char)) : String :=
  String.ofList (front ++ parts.flatMap fun part => part.1.toList ++ part.2)

/-- All gaps are made of spaces, and between two texts there is at least one. -/
structure Spacing (front : List Char) (parts : List (String × List Char)) : Prop where
  front : ∀ c ∈ front, isSpace c = true
  spaces : ∀ part ∈ parts, ∀ c ∈ part.2, isSpace c = true
  apart : ∀ part ∈ parts.dropLast, part.2 ≠ []

def Reads (found : Token.Kind × String) : Prop :=
  ∃ shape, Spells found.2.toList shape ∧ Denotes shape found.2.toList found.1

section

variable {source : String} {front : List Char} {parts : List (String × List Char)}
  {found : List (Token.Kind × String)} {ts tokens : List Token}

theorem Lexeme.Reaches.reads {p q : Position} {cs rest : List Char} {passed : List (Position × Lexeme)}
    (h : Reaches p cs passed q rest) (hg : List.Forall₂ Gives passed ts) :
    ∀ t ∈ ts, Reads t.unplaced := by
  induction h generalizing ts with
  | here =>
      cases hg
      simp
  | space _ _ ih => exact ih hg
  | @lexeme p q cs rest x passed hx _ ih =>
      cases hg with
      | cons ht hts =>
          obtain ⟨kind, hd, rfl⟩ := ht
          refine List.forall_mem_cons.2 ⟨⟨x.shape, ?_⟩, ih hts⟩
          simpa [Token.unplaced] using And.intro hx.spells hd

theorem Scans.spaced (hread : ∀ f ∈ found, Reads f) (htexts : parts.map Prod.fst = found.map Prod.snd)
    (hspaces : ∀ part ∈ parts, ∀ c ∈ part.2, isSpace c = true)
    (hapart : ∀ part ∈ parts.dropLast, part.2 ≠ []) :
    Scans (parts.flatMap fun part => part.1.toList ++ part.2) found := by
  induction parts generalizing found with
  | nil =>
      obtain rfl := List.map_eq_nil_iff.1 htexts.symm
      exact .nil
  | cons part parts ih =>
      obtain ⟨text, gap⟩ := part
      obtain ⟨⟨kind, text'⟩, found, rfl, rfl, hfound⟩ := List.map_eq_cons_iff.1 htexts.symm
      obtain ⟨⟨shape, hspells, hdenotes⟩, hread⟩ := List.forall_mem_cons.1 hread
      obtain ⟨hgap, hspaces⟩ := List.forall_mem_cons.1 hspaces
      have hrest := ih hread hfound.symm hspaces fun part hpart => hapart part <| by
        cases parts with
        | nil => cases hpart
        | cons other parts => exact List.mem_cons_of_mem _ hpart
      -- without a space behind it the text is the last one
      have hdivided : Lexeme.Divided (gap ++ parts.flatMap fun part => part.1.toList ++ part.2) := by
        cases gap with
        | cons c gap =>
            exact Lexeme.divided_cons (Lexeme.divides_space (hgap c List.mem_cons_self)) _
        | nil =>
            cases parts with
            | nil => exact Lexeme.divided_nil
            | cons other parts => exact absurd rfl (hapart (_, []) List.mem_cons_self)
      have htext := Scans.of_spells hspells hdenotes
      rw [String.ofList_toList] at htext
      simpa using htext.append (hrest.spaces hgap) hdivided

theorem isBlock_eq_of_unplaced {us : List Token} (h : us.map Token.unplaced = ts.map Token.unplaced) :
    Token.isBlock us = Token.isBlock ts := by
  cases ts with
  | nil => rw [List.map_eq_nil_iff.1 h]
  | cons t ts =>
      obtain ⟨u, us, rfl, hu, -⟩ := List.map_eq_cons_iff.1 h
      rw [Token.isBlock, Token.isBlock, (Prod.mk.inj hu).1]

theorem unmarked_eq (hs : scan .start source.toList = .ok ts) (ht : tokenize source = .ok tokens) :
    (tokens.map Token.text).filter (· ≠ "") = ts.map Token.text := by
  obtain ⟨us, hus, rfl⟩ := tokenize_ok_iff.1 ht
  cases hs.symm.trans hus
  obtain ⟨found, q, hr, hg⟩ := Lexeme.scan_ok_iff.1 hs
  have hall : (ts.map Token.text).filter (· ≠ "") = ts.map Token.text :=
    List.filter_eq_self.2 (by simpa using hr.text_ne_empty hg)
  split <;> simp_all

/-- However the texts of the tokens of a source are set apart by spaces, they give tokens with the same
kinds, values and texts, and markers without text are among them if and only if they were before. So one
source is read as a tree if and only if the other is read as this tree, and in every context they have
the same value or fail alike. -/
theorem spacing_means_nothing (h : tokenize source = .ok tokens)
    (htexts : parts.map Prod.fst = (tokens.map Token.text).filter (· ≠ ""))
    (hs : Spacing front parts) :
    (∃ others, tokenize (spaced front parts) = .ok others ∧
      others.map Token.unplaced = tokens.map Token.unplaced ∧
      ((∃ t ∈ others, t.text = "") ↔ ∃ t ∈ tokens, t.text = "")) ∧
    (∀ e, parseSource (spaced front parts) = .ok e ↔ parseSource source = .ok e) ∧
    ∀ c, Parallel Incident.Alike Eq (evaluateSource c (spaced front parts))
      (evaluateSource c source) := by
  obtain ⟨ts, hscan, htokens⟩ := tokenize_ok_iff.1 h
  obtain ⟨found, q, hr, hg⟩ := Lexeme.scan_ok_iff.1 hscan
  rw [unmarked_eq hscan h] at htexts
  have hread : ∀ f ∈ ts.map Token.unplaced, Reads f := by
    simpa only [List.forall_mem_map] using hr.reads hg
  have htexts' : parts.map Prod.fst = (ts.map Token.unplaced).map Prod.snd := by
    rw [htexts, List.map_map]
    rfl
  have hscans := (Scans.spaced hread htexts' hs.spaces hs.apart).spaces hs.front
  obtain ⟨us, hus, hsame⟩ := hscans .start
  have hother : ∃ others, tokenize (spaced front parts) = .ok others ∧
      others.map Token.unplaced = tokens.map Token.unplaced := by
    refine ⟨_, tokenize_ok_iff.2 ⟨us, by rw [spaced, String.toList_ofList, hus], rfl⟩, ?_⟩
    rw [htokens, isBlock_eq_of_unplaced hsame]
    split <;> simp [hsame, Token.unplaced]
  obtain ⟨others, hothers, hunplaced⟩ := hother
  have hmarks : others.map Token.text = tokens.map Token.text := by
    simpa [Function.comp_def, Token.unplaced] using congrArg (List.map Prod.snd) hunplaced
  have hparse := parseSource_parallel_of_content hothers h (Token.content_of_unplaced hunplaced)
  refine ⟨⟨others, hothers, hunplaced, ?_⟩, fun e => ?_, evaluateSource_parallel_of_parse hparse⟩
  · rw [← List.mem_map, hmarks, List.mem_map]
  · generalize parseSource (spaced front parts) = x, parseSource source = y at hparse
    cases hparse with
    | error _ => simp
    | ok h => rw [h]

end

theorem spacing_means_nothing_lines :
    let tokens : List Token := [⟨.blockStart, "", ⟨1, 1, 0⟩⟩,
      ⟨.value (.string "a b"), "'a b'", ⟨1, 1, 0⟩⟩, ⟨.operator .le, "<=", ⟨1, 6, 5⟩⟩,
      ⟨.value (.integer 15), "15", ⟨1, 8, 7⟩⟩, ⟨.blockEnd, "", ⟨1, 10, 9⟩⟩]
    let parts := [("'a b'", ['\n']), ("<=", [' ', '\t']), ("15", [])]
    tokenize "'a b'<=15" = .ok tokens ∧
      parts.map Prod.fst = (tokens.map Token.text).filter (· ≠ "") ∧ Spacing ['\r'] parts ∧
      spaced ['\r'] parts = "\r'a b'\n<= \t15" ∧
      (∃ others, tokenize "\r'a b'\n<= \t15" = .ok others ∧
        others.map Token.unplaced = tokens.map Token.unplaced ∧
        ((∃ t ∈ others, t.text = "") ↔ ∃ t ∈ tokens, t.text = "")) ∧
      (∀ e, parseSource "\r'a b'\n<= \t15" = .ok e ↔ parseSource "'a b'<=15" = .ok e) ∧
      ∀ c, Parallel Incident.Alike Eq (evaluateSource c "\r'a b'\n<= \t15")
        (evaluateSource c "'a b'<=15") := by
  intro tokens parts
  have htext : "'a b'<=15".toList = ['\'', 'a', ' ', 'b', '\'', '<', '=', '1', '5'] := rfl
  have hstring : Lexeme.cut? ['\'', 'a', ' ', 'b', '\'', '<', '=', '1', '5'] =
      some ⟨.string, ['\'', 'a', ' ', 'b', '\''], ['<', '=', '1', '5']⟩ := rfl
  have hsign : Lexeme.cut? ['<', '=', '1', '5'] =
      some ⟨.sign (.operator .le), ['<', '='], ['1', '5']⟩ := rfl
  have hnumber : Lexeme.cut? ['1', '5'] = some ⟨.integer, ['1', '5'], []⟩ := rfl
  have h : tokenize "'a b'<=15" = .ok tokens := by
    rw [tokenize, htext, Lexeme.scan_longest (Lexeme.cut?_eq_some_iff.1 hstring),
      Lexeme.scan_longest (Lexeme.cut?_eq_some_iff.1 hsign),
      Lexeme.scan_longest (Lexeme.cut?_eq_some_iff.1 hnumber), scan]
    rfl
  have htexts : parts.map Prod.fst = (tokens.map Token.text).filter (· ≠ "") := rfl
  have hs : Spacing ['\r'] parts := ⟨by simp [isSpace], by simp [parts, isSpace], by simp [parts]⟩
  have hspaced : spaced ['\r'] parts = "\r'a b'\n<= \t15" := rfl
  exact ⟨h, htexts, hs, hspaced, hspaced ▸ spacing_means_nothing h htexts hs⟩

end TemplateExpr
