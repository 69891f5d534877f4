import TemplateExpr.Yaml.Cursor

namespace TemplateExpr.Yaml

structure Properties where
  name : Option String
  tag : Option Tag

def isNameChar (c : Char) : Bool := c.isAlphanum || c = '-' || c = '_'

def endsName (cs : List Char) : Bool :=
  endsWord cs || cs.head?.any fun c => "?:,]\x7d%@`".toList.contains c

def readName (c : Cursor) : Option (String × Cursor) :=
  let name := (c.rest.drop 1).takeWhile isNameChar
  let after := c.skip (1 + name.length)
  if !name.isEmpty && endsName after.rest then some (String.ofList name, after) else none

def isTagChar (c : Char) : Bool := c.isAlphanum || "-;/?:@&=+$,_.!~*'()[]%".toList.contains c

def schema : List Char := "tag:yaml.org,2002:".toList

def tagOfUri? (uri : List Char) : Option Tag :=
  if schema.isPrefixOf uri then Tag.ofName? (String.ofList (uri.drop schema.length)) else none

def endsTag (cs : List Char) : Bool := endsWord cs && cs.head? ≠ some '\t'

def readTag (c : Cursor) : Option (Tag × Cursor) :=
  match c.rest.drop 1 with
  | '<' :: rest => do
    let uri := rest.takeWhile isTagChar
    let after := c.skip (2 + uri.length)
    guard (after.rest.head? = some '>' && endsTag (after.rest.drop 1))
    some (← tagOfUri? uri, after.skip 1)
  | '!' :: rest => do
    let uri := rest.takeWhile isTagChar
    let after := c.skip (2 + uri.length)
    guard (endsTag after.rest)
    some (← Tag.ofName? (String.ofList uri), after)
  | rest => if endsTag rest then some (.unspecific, c.skip 1) else none

def startsProperty (cs : List Char) : Bool := cs.head? = some '&' || cs.head? = some '!'

def readProperties (c : Cursor) : Option (Properties × Cursor) :=
  if c.rest.head? = some '&' then do
    let (name, after) ← readName c
    let next := after.skip after.blanks
    if next.rest.head? = some '!' then do
      let (tag, after) ← readTag next
      some (⟨some name, some tag⟩, after)
    else some (⟨some name, none⟩, after)
  else do
    let (tag, after) ← readTag c
    let next := after.skip after.blanks
    if next.rest.head? = some '&' then do
      let (name, after) ← readName next
      some (⟨some name, some tag⟩, after)
    else some (⟨none, some tag⟩, after)

def readAlias (c : Cursor) : Option (Node × Cursor) := do
  let (name, after) ← readName c
  some (← c.named.lookup name, after)

def Properties.apply (p : Properties) (node : Node) (c : Cursor) : Option (Node × Cursor) :=
  let node := match p.tag with
    | none => node
    | some tag => node.withTag tag
  match p.name with
  | none => some (node, c)
  | some name =>
    if (c.named.lookup name).isSome then none
    else some (node, { c with named := (name, node) :: c.named })

end TemplateExpr.Yaml
