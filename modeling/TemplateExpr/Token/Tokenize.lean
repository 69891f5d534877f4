import TemplateExpr.Text.Blank
import TemplateExpr.Token.Literal

namespace TemplateExpr

/-- Reads tokens up to the end of the text. The leftmost trouble is reported, whether it is a place
where no lexeme begins or a lexeme that denotes nothing. -/
def scan (p : Position) : List Char → Except LexicalError (List Token)
  | [] => .ok []
  | c :: cs =>
    if Lexeme.isSpace c then scan (p.next c) cs
    else
      match _ : Lexeme.cut? (c :: cs) with
      | none =>
        .error ⟨if Lexeme.isQuote c then .unterminatedString else .invalidCharacter c, p⟩
      | some x =>
        match x.kind p with
        | .error e => .error e
        | .ok kind =>
          (scan (p.advance x.text) x.rest).map (⟨kind, String.ofList x.text, p⟩ :: ·)
termination_by cs => cs.length
decreasing_by
  · simp
  · exact Lexeme.cut?_rest_length_lt ‹_›

def Token.isBlock : List Token → Bool
  | t :: _ => t.kind.isBlockStart
  | [] => false

/-- More counts as white space in front of a block than between its tokens. -/
def startsBlock (source : String) : Bool :=
  ['<', '%'].isPrefixOf (source.toList.dropWhile Text.isSeparating)

/-- The tokens of a source. One that is not a block already is put between markers without text. -/
def tokenize (source : String) : Except LexicalError (List Token) :=
  (scan .start source.toList).map fun tokens =>
    if startsBlock source then tokens
    else
      ⟨.blockStart, "", .start⟩ :: tokens ++
        [⟨.blockEnd, "", Position.start.advance source.toList⟩]

end TemplateExpr
