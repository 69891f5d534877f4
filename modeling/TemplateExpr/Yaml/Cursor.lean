import TemplateExpr.Yaml.Node

namespace TemplateExpr.Yaml

/-- What is left of the text, where it begins, and the nodes that were given a name before it.
Columns count from zero. -/
structure Cursor where
  rest : List Char
  line : Nat
  column : Nat
  named : List (String × Node)

def isBreak (c : Char) : Bool :=
  c = '\n' || c = '\r' || c = '\x85' || c = '\u2028' || c = '\u2029'

def isForbidden (c : Char) : Bool :=
  let n := c.toNat
  !(n = 9 || n = 10 || n = 13 || (32 ≤ n && n ≤ 126) || n = 0x85 || (0xA0 ≤ n && n ≤ 0xD7FF) ||
    (0xE000 ≤ n && n ≤ 0xFFFD) || 0x10000 ≤ n)

def endsWord (cs : List Char) : Bool :=
  match cs with
  | [] => true
  | c :: _ => isBlank c || isBreak c

namespace Cursor

def start (text : List Char) : Cursor := ⟨text, 0, 0, []⟩

def skip (n : Nat) (c : Cursor) : Cursor :=
  { c with rest := c.rest.drop n, column := c.column + n }

def breakLine (rest : List Char) (c : Cursor) : Cursor :=
  { c with rest := rest, line := c.line + 1, column := 0 }

def nextLine (c : Cursor) : Cursor :=
  match c.rest with
  | '\r' :: '\n' :: rest => c.breakLine rest
  | _ :: rest => c.breakLine rest
  | [] => c

def atBreak (c : Cursor) : Bool :=
  match c.rest with
  | d :: _ => isBreak d
  | [] => false

def blanks (c : Cursor) : Nat := (c.rest.takeWhile (· = ' ')).length

def skipLineRest (c : Cursor) : Cursor :=
  let c := c.skip c.blanks
  match c.rest with
  | '#' :: _ => c.skip (c.rest.takeWhile fun d => !isBreak d).length
  | _ => c

def advance : Nat → Cursor → Cursor
  | 0, c => c
  | lines + 1, c =>
    let c := c.skipLineRest
    if c.atBreak then advance lines c.nextLine else c

def toToken (c : Cursor) : Cursor := c.advance c.rest.length

def atMarker (mark : Char) (c : Cursor) : Bool :=
  c.column = 0 && c.rest.take 3 = [mark, mark, mark] && endsWord (c.rest.drop 3)

def atAnyMarker (c : Cursor) : Bool := c.atMarker '-' || c.atMarker '.'

def atIndicator (mark : Char) (c : Cursor) : Bool :=
  match c.rest with
  | d :: rest => d = mark && endsWord rest
  | [] => false

end Cursor

/-- The line breaks of a gap in a scalar, folded: a single one is a blank and of several the first
is dropped. -/
def folded (first : Char) (more : List Char) : List Char :=
  if first ≠ '\n' then first :: more else if more.isEmpty then [' '] else more

def breakText : Char → Char
  | '\u2028' => '\u2028'
  | '\u2029' => '\u2029'
  | _ => '\n'

def emptyLines (isGap : Char → Bool) : Nat → Cursor → Option (List Char × Cursor)
  | 0, c => some ([], c)
  | n + 1, c =>
    if c.atAnyMarker then none
    else
      let c := c.skip (c.rest.takeWhile isGap).length
      match c.rest with
      | d :: _ =>
        if isBreak d then (emptyLines isGap n c.nextLine).map fun r => (breakText d :: r.1, r.2)
        else some ([], c)
      | [] => some ([], c)

def gap (isGap : Char → Bool) (c : Cursor) : Option (List Char × Cursor) :=
  match c.rest with
  | d :: rest =>
    (emptyLines isGap rest.length c.nextLine).map fun r => (folded (breakText d) r.1, r.2)
  | [] => some ([], c)

def escaped? : Char → Option Char
  | '0' => some '\x00'
  | 'a' => some '\x07'
  | 'b' => some '\x08'
  | 't' => some '\t'
  | '\t' => some '\t'
  | 'n' => some '\n'
  | 'v' => some '\x0b'
  | 'f' => some '\x0c'
  | 'r' => some '\r'
  | 'e' => some '\x1b'
  | ' ' => some ' '
  | '"' => some '"'
  | '\\' => some '\\'
  | '/' => some '/'
  | 'N' => some '\x85'
  | '_' => some '\xa0'
  | 'L' => some '\u2028'
  | 'P' => some '\u2029'
  | _ => none

def hexWidth? : Char → Option Nat
  | 'x' => some 2
  | 'u' => some 4
  | 'U' => some 8
  | _ => none

def doubleQuoted : Nat → Cursor → Option (List Char × Cursor)
  | 0, _ => none
  | n + 1, c =>
    match c.rest with
    | [] => none
    | '"' :: _ => some ([], c.skip 1)
    | '\\' :: d :: rest =>
      if isBreak d then do
        let (empty, c) ← emptyLines isBlank n (c.skip 1).nextLine
        let (cs, c) ← doubleQuoted n c
        some (empty ++ cs, c)
      else
        match hexWidth? d with
        | some width => do
          let digits := rest.take width
          guard (digits.length = width && digits.all isHexDigit)
          let code := ofDigits 16 digits
          guard code.isValidChar
          let (cs, c) ← doubleQuoted n (c.skip (2 + width))
          some (Char.ofNat code :: cs, c)
        | none => do
          let e ← escaped? d
          let (cs, c) ← doubleQuoted n (c.skip 2)
          some (e :: cs, c)
    | '\\' :: [] => none
    | d :: rest =>
      if isBreak d || isBlank d then
        let blanks := (d :: rest).takeWhile isBlank
        let after := c.skip blanks.length
        if after.atBreak then do
          let (fold, c) ← gap isBlank after
          let (cs, c) ← doubleQuoted n c
          some (fold ++ cs, c)
        else (doubleQuoted n after).map fun r => (blanks ++ r.1, r.2)
      else (doubleQuoted n (c.skip 1)).map fun r => (d :: r.1, r.2)

def singleQuoted : Nat → Cursor → Option (List Char × Cursor)
  | 0, _ => none
  | n + 1, c =>
    match c.rest with
    | [] => none
    | '\'' :: '\'' :: _ => (singleQuoted n (c.skip 2)).map fun r => ('\'' :: r.1, r.2)
    | '\'' :: _ => some ([], c.skip 1)
    | d :: rest =>
      if isBreak d || isBlank d then
        let blanks := (d :: rest).takeWhile isBlank
        let after := c.skip blanks.length
        if after.atBreak then do
          let (fold, c) ← gap isBlank after
          let (cs, c) ← singleQuoted n c
          some (fold ++ cs, c)
        else (singleQuoted n after).map fun r => (blanks ++ r.1, r.2)
      else (singleQuoted n (c.skip 1)).map fun r => (d :: r.1, r.2)

end TemplateExpr.Yaml
