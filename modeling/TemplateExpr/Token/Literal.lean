import TemplateExpr.Token.Lexeme
import TemplateExpr.Text.Quoted

namespace TemplateExpr

inductive LexicalProblem where
  | invalidCharacter (c : Char)
  | unterminatedString
  | unknownEscape (c : Char)
  | integerTooLarge (digits : String)
deriving DecidableEq

structure LexicalError where
  problem : LexicalProblem
  position : Position
deriving DecidableEq

namespace LexicalProblem

def description : LexicalProblem → String
  | .invalidCharacter c => "Invalid character " ++ Text.quoted (String.singleton c)
  | .unterminatedString => "Unterminated string literal"
  | .unknownEscape c => "Unknown escape sequence \\" ++ String.singleton c
  | .integerTooLarge digits => "Integer literal " ++ digits ++ " does not fit in 64 bits"

end LexicalProblem

namespace Literal

def escape? : Char → Option Char
  | 'n' => some '\n'
  | 't' => some '\t'
  | 'r' => some '\r'
  | '0' => some '\x00'
  | '\\' => some '\\'
  | '"' => some '"'
  | '\'' => some '\''
  | _ => none

/-- Decodes what stands between the quotes. Places are counted along the line the literal begins
in, also when it goes on over several lines. -/
def unescape (p : Position) : List Char → Except LexicalError (List Char)
  | [] => .ok []
  | c :: rest =>
    if c = '\\' then
      match rest with
      | [] => .ok [c]
      | d :: rest =>
        match escape? d with
        | none => .error ⟨.unknownEscape d, p⟩
        | some e => (unescape (p.right 2) rest).map (e :: ·)
    else (unescape (p.right 1) rest).map (c :: ·)

def string (p : Position) (text : List Char) : Except LexicalError Value :=
  (unescape (p.right 1) (text.drop 1).dropLast).map fun cs => .string (String.ofList cs)

def mostDigits : Nat := (Nat.toDigits 10 Value.bound.toNat).length

/-- A very long digit run is refused by its length, before its value is computed. -/
def integer (p : Position) (text : List Char) : Except LexicalError Value :=
  let significant := text.dropWhile (· = '0')
  let n := Nat.ofDigitChars 10 significant 0
  if mostDigits < significant.length || !Value.inRange n then
    .error ⟨.integerTooLarge (String.ofList text), p⟩
  else .ok (.integer n)

def float (text : List Char) : Value :=
  let whole := text.takeWhile Lexeme.isDigit
  let places := (text.dropWhile Lexeme.isDigit).drop 1
  .float (Float.ofScientific (Nat.ofDigitChars 10 (whole ++ places) 0) true places.length)

def word : String → Token.Kind
  | "and" => .operator .and
  | "or" => .operator .or
  | "not" => .operator .not
  | "true" => .value (.boolean true)
  | "false" => .value (.boolean false)
  | _ => .name

end Literal

def Lexeme.kind (p : Position) (x : Lexeme) : Except LexicalError Token.Kind :=
  match x.shape with
  | .float => .ok (.value (Literal.float x.text))
  | .integer => (Literal.integer p x.text).map .value
  | .string => (Literal.string p x.text).map .value
  | .word => .ok (Literal.word (String.ofList x.text))
  | .sign kind => .ok kind

end TemplateExpr
