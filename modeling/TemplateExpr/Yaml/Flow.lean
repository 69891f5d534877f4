import TemplateExpr.Yaml.Property

namespace TemplateExpr.Yaml

def isFlowMark (c : Char) : Bool := c = ',' || c = '[' || c = ']' || c = '\x7b' || c = '\x7d'

def endsPlain (flow : Bool) : List Char → Bool
  | [] => true
  | ':' :: rest =>
    endsWord rest || (flow && match rest with
      | c :: _ => isFlowMark c
      | [] => false)
  | c :: _ => isBlank c || isBreak c || (flow && (isFlowMark c || c = '?'))

def plainWord (flow : Bool) : List Char → List Char
  | [] => []
  | c :: rest => if endsPlain flow (c :: rest) then [] else c :: plainWord flow rest

def plainWords (flow : Bool) (indent : Int) : Nat → Cursor → List Char × Cursor
  | 0, c => ([], c)
  | n + 1, c =>
    let blanks := c.rest.takeWhile (· = ' ')
    let after := c.skip blanks.length
    let next : Option (List Char × Cursor) :=
      if after.atBreak then
        match gap (· = ' ') after with
        | some (fold, next) => if flow || indent < next.column then some (fold, next) else none
        | none => none
      else if blanks.isEmpty then none
      else some (blanks, after)
    match next with
    | none => ([], c)
    | some (fold, next) =>
      let word := if next.rest.head? = some '#' then [] else plainWord flow next.rest
      if word.isEmpty then ([], c)
      else
        let (more, c) := plainWords flow indent n (next.skip word.length)
        (fold ++ word ++ more, c)

def plain (flow : Bool) (indent : Int) (c : Cursor) : List Char × Cursor :=
  let word := plainWord flow c.rest
  let (more, c) := plainWords flow indent c.rest.length (c.skip word.length)
  (word ++ more, c)

/-- Most indicators cannot begin a plain scalar; three of them can, before another character. -/
def startsPlain (flow : Bool) : List Char → Bool
  | [] => false
  | c :: rest =>
    if c = '-' then !endsWord rest
    else if c = '?' || c = ':' then !flow && !endsWord rest
    else !(isBlank c || isBreak c || isFlowMark c || "#&*!|>'\"%@`".toList.contains c)

/-- A key has to fit on its line, and its line must not be too long. -/
def keyEnds (start after : Cursor) : Bool :=
  start.line = after.line && after.column ≤ start.column + 1024

def atFlowEnd (colon : Bool) (c : Cursor) : Bool :=
  match c.rest with
  | ',' :: _ | ']' :: _ | '\x7d' :: _ => true
  | ':' :: _ => colon
  | _ => false

mutual

def inlineNode : Nat → Bool → Int → Cursor → Option (Node × Cursor)
  | 0, _, _, _ => none
  | n + 1, flow, indent, c =>
    if c.rest.head? = some '*' then readAlias c
    else if startsProperty c.rest then do
      let (properties, after) ← readProperties c
      let t := after.toToken
      let isMissing :=
        if flow then atFlowEnd true t
        else t.line ≠ c.line || t.rest.isEmpty || t.atIndicator ':'
      if isMissing then properties.apply .missing after
      else do
        let (node, after) ← bareNode n flow indent t
        properties.apply node after
    else bareNode n flow indent c

def bareNode : Nat → Bool → Int → Cursor → Option (Node × Cursor)
  | 0, _, _, _ => none
  | n + 1, flow, indent, c =>
    match c.rest with
    | '[' :: _ => (flowItems n (c.skip 1).toToken).map fun r => (.list none r.1, r.2)
    | '\x7b' :: _ => (flowEntries n (c.skip 1).toToken).map fun r => (.mapping none r.1, r.2)
    | '"' :: rest => (doubleQuoted rest.length (c.skip 1)).map fun r =>
        (.scalar none false (String.ofList r.1), r.2)
    | '\'' :: rest => (singleQuoted rest.length (c.skip 1)).map fun r =>
        (.scalar none false (String.ofList r.1), r.2)
    | cs =>
      if startsPlain flow cs then
        let (text, c) := plain flow indent c
        some (.scalar none true (String.ofList text), c)
      else none

def flowNode : Nat → Bool → Cursor → Option (Node × Cursor)
  | 0, _, _ => none
  | n + 1, colon, c =>
    if atFlowEnd colon c then some (.missing, c)
    else if c.atAnyMarker then none
    else (inlineNode n true 0 c).map fun r => (r.1, r.2.toToken)

def flowPair : Nat → Cursor → Option (Node × Option Node × Cursor)
  | 0, _ => none
  | n + 1, c => do
    let announced := c.rest.head? = some '?'
    let start := if announced then (c.skip 1).toToken else c
    guard (announced || !atFlowEnd true start)
    let (key, next) ← flowNode n true start
    match next.rest with
    | ':' :: _ => do
      guard (announced || keyEnds start next)
      let (value, next) ← flowNode n false (next.skip 1).toToken
      some (key, some value, next)
    | _ => some (key, if announced then some .missing else none, next)

/-- The items of a list up to its closing bracket. A key with its value is a mapping of its own. -/
def flowItems : Nat → Cursor → Option (List Node × Cursor)
  | 0, _ => none
  | n + 1, c =>
    match c.rest with
    | ']' :: _ => some ([], c.skip 1)
    | _ => do
      let (key, value, next) ← flowPair n c
      let item : Node := match value with
        | none => key
        | some value => .mapping none [(key, value)]
      match next.rest with
      | ',' :: _ => do
        let (items, after) ← flowItems n (next.skip 1).toToken
        some (item :: items, after)
      | ']' :: _ => some ([item], next.skip 1)
      | _ => none

def flowEntries : Nat → Cursor → Option (List (Node × Node) × Cursor)
  | 0, _ => none
  | n + 1, c =>
    match c.rest with
    | '\x7d' :: _ => some ([], c.skip 1)
    | _ => do
      let (key, value, next) ← flowPair n c
      let entry := (key, value.getD .missing)
      match next.rest with
      | ',' :: _ => do
        let (entries, after) ← flowEntries n (next.skip 1).toToken
        some (entry :: entries, after)
      | '\x7d' :: _ => some ([entry], next.skip 1)
      | _ => none

end

end TemplateExpr.Yaml
