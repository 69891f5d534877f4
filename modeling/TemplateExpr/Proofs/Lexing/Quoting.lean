import TemplateExpr.Proofs.Lexing.Joining

namespace TemplateExpr.Literal

open Lexeme (Quotable Unescapes cut? escapes isQuote)

def escaped (quote : Char) (cs : List Char) : List Char :=
  cs.flatMap fun c => if c = '\\' ∨ c = quote then ['\\', c] else [c]

def written (quote : Char) (s : String) : String :=
  String.ofList (quote :: (escaped quote s.toList ++ [quote]))

def checked (p : Position) : List Char → Option (Except LexicalError (List Char))
  | [] => some (.ok [])
  | c :: rest =>
    if c = '\\' then
      match rest with
      | [] => none
      | d :: rest =>
        match escape? d with
        | none => some (.error ⟨.unknownEscape d, p⟩)
        | some e => (checked (p.right 2) rest).map (·.map (e :: ·))
    else (checked (p.right 1) rest).map (·.map (c :: ·))

variable {quote : Char} {cs body : List Char} {x : Lexeme}

theorem escaped_cons (quote c : Char) (cs : List Char) :
    escaped quote (c :: cs) =
      if c = '\\' ∨ c = quote then '\\' :: c :: escaped quote cs else c :: escaped quote cs := by
  rw [escaped, List.flatMap_cons]
  split <;> rfl

theorem mem_escapes_of_isQuote (hq : isQuote quote = true) : (quote, quote) ∈ escapes := by
  simp only [isQuote, Bool.or_eq_true, decide_eq_true_eq] at hq
  rcases hq with rfl | rfl <;> simp [escapes]

theorem escaped_unescapes (hq : isQuote quote = true) (cs : List Char) :
    Unescapes (escaped quote cs) cs := by
  induction cs with
  | nil => exact .nil
  | cons c cs ih =>
      rw [escaped_cons]
      by_cases hc : c = '\\' ∨ c = quote
      · rw [if_pos hc]
        refine .escape ?_ ih
        rcases hc with rfl | rfl
        · simp [escapes]
        · exact mem_escapes_of_isQuote hq
      · rw [if_neg hc]
        exact .plain (not_or.1 hc).1 ih

theorem escaped_quotable (hq : isQuote quote = true) (cs : List Char) :
    Quotable quote (escaped quote cs) := by
  induction cs with
  | nil => exact .nil
  | cons c cs ih =>
      rw [escaped_cons]
      by_cases hc : c = '\\' ∨ c = quote
      · rw [if_pos hc]
        refine .escape ?_ ih
        rcases hc with rfl | rfl
        · decide
        · rintro rfl
          cases hq
      · obtain ⟨hbackslash, hquote⟩ := not_or.1 hc
        rw [if_neg hc]
        exact .plain hquote hbackslash ih

theorem tokenize_written (hq : isQuote quote = true) (s : String) :
    tokenize (written quote s) =
      .ok [⟨.blockStart, "", .start⟩, ⟨.value (.string s), written quote s, .start⟩,
        ⟨.blockEnd, "", Position.start.advance (written quote s).toList⟩] := by
  have hspells := Lexeme.Spells.string hq (escaped_quotable hq s.toList)
  have hdenotes : Lexeme.Denotes .string (quote :: (escaped quote s.toList ++ [quote]))
      (.value (.string (String.ofList s.toList))) := .string (escaped_unescapes hq s.toList)
  rw [String.ofList_toList] at hdenotes
  rw [tokenize_ok_iff]
  refine ⟨[⟨.value (.string s), written quote s, .start⟩], ?_, rfl⟩
  rw [written, String.toList_ofList, Lexeme.scan_denotes hspells.longest hdenotes, scan]
  rfl

theorem checked_of_quotable (h : Quotable quote body) (p : Position) :
    checked p body = some (unescape p body) := by
  induction h generalizing p with
  | nil => rfl
  | @plain c body _ hc _ ih =>
      rw [checked.eq_def, unescape.eq_def]
      simp only [if_neg hc, ih, Option.map_some]
  | @escape c body _ _ ih =>
      rw [checked.eq_def, unescape.eq_def]
      simp only [↓reduceIte]
      cases escape? c with
      | none => rfl
      | some e => simp only [ih, Option.map_some]

/-- Any text, written between quotes of either kind, is read as itself. Decoding what is between
quotes never reads behind its end: it replaces each escape and keeps all else, or it stops at the
first backslash without an escape. -/
theorem strings_read_back :
    (∀ quote, isQuote quote = true → ∀ s : String, tokenize (written quote s) =
      .ok [⟨.blockStart, "", .start⟩, ⟨.value (.string s), written quote s, .start⟩,
        ⟨.blockEnd, "", Position.start.advance (written quote s).toList⟩]) ∧
    ∀ (cs : List Char) (x : Lexeme) (p : Position), cut? cs = some x → x.shape = .string →
      ∃ quote body, isQuote quote = true ∧ x.text = quote :: (body ++ [quote]) ∧
        checked (p.right 1) body = some (unescape (p.right 1) body) ∧
        ((∃ decoded, Unescapes body decoded ∧
            x.kind p = .ok (.value (.string (String.ofList decoded)))) ∨
          ∃ before decoded c behind, body = before ++ '\\' :: c :: behind ∧
            Unescapes before decoded ∧ (∀ e, (c, e) ∉ escapes) ∧
            x.kind p = .error ⟨.unknownEscape c, p.right (before.length + 1)⟩) := by
  refine ⟨fun quote hq => tokenize_written hq, fun cs x p hx hshape => ?_⟩
  have hspells := Lexeme.cut?_spells hx
  obtain ⟨shape, text, rest⟩ := x
  obtain rfl : shape = .string := hshape
  cases hspells with
  | @string quote body hq h =>
      refine ⟨quote, body, hq, rfl, checked_of_quotable h _, ?_⟩
      have hspells : Lexeme.Spells (quote :: (body ++ [quote])) .string := .string hq h
      rcases h.unescapes_or with ⟨decoded, hd⟩ | ⟨before, decoded, c, behind, rfl, hd, hc⟩
      · exact .inl ⟨decoded, hd, Lexeme.kind_of_denotes hspells (.string hd) p⟩
      · exact .inr ⟨before, decoded, c, behind, rfl, hd, hc,
          Lexeme.kind_of_spoils hspells (.string hd hc) p⟩

theorem strings_read_back_backslash :
    let source := String.ofList ['"', '\\', '\\', '\\', '"', '"']
    let x : Lexeme := ⟨.string, ['\'', '\\', '\\', '\\', 'q', '\''], []⟩
    isQuote '"' = true ∧ written '"' "\\\"" = source ∧
      tokenize source = .ok [⟨.blockStart, "", .start⟩, ⟨.value (.string "\\\""), source, .start⟩,
        ⟨.blockEnd, "", Position.start.advance source.toList⟩] ∧
      cut? x.text = some x ∧ x.shape = .string ∧
      ∃ quote body, isQuote quote = true ∧ x.text = quote :: (body ++ [quote]) ∧
        checked ⟨1, 2, 1⟩ body = some (unescape ⟨1, 2, 1⟩ body) := by
  intro source x
  have hwritten : written '"' "\\\"" = source := rfl
  have htokens := strings_read_back.1 '"' rfl "\\\""
  have hcut : cut? x.text = some x := rfl
  obtain ⟨quote, body, hq, htext, hchecked, -⟩ := strings_read_back.2 x.text x .start hcut rfl
  exact ⟨rfl, hwritten, hwritten ▸ htokens, hcut, rfl, quote, body, hq, htext, hchecked⟩

end TemplateExpr.Literal
