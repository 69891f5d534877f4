import TemplateExpr.Yaml.Tagged

namespace TemplateExpr.Yaml

/-- What kind of node is asked for. The unspecific tag asks for the kind of a plain scalar. -/
inductive Tag where
  | unspecific
  | null
  | boolean
  | integer
  | float
  | string
  | timestamp
  | list
  | mapping
  | set
deriving DecidableEq

def Tag.ofName? : String → Option Tag
  | "null" => some .null
  | "bool" => some .boolean
  | "int" => some .integer
  | "float" => some .float
  | "str" => some .string
  | "timestamp" => some .timestamp
  | "seq" => some .list
  | "map" => some .mapping
  | "set" => some .set
  | _ => none

inductive Node where
  | scalar (tag : Option Tag) (plain : Bool) (text : String)
  | list (tag : Option Tag) (items : List Node)
  | mapping (tag : Option Tag) (entries : List (Node × Node))

namespace Node

def missing : Node := .scalar none true ""

def withTag (tag : Tag) : Node → Node
  | .scalar _ plain text => .scalar (some tag) plain text
  | .list _ items => .list (some tag) items
  | .mapping _ entries => .mapping (some tag) entries

def isPlain (tag : Option Tag) (plain : Bool) : Bool :=
  (tag = none && plain) || tag = some .unspecific

def scalarDatum (tag : Option Tag) (plain : Bool) (text : String) : Except Error Datum :=
  if isPlain tag plain then resolve text
  else
    match tag with
    | none | some .string => .ok (.string text)
    | some .null => .ok .null
    | some .boolean => ((Tagged.boolean text.toList).map .boolean).mapError .raised
    | some .integer => ((Tagged.integer text.toList).map .integer).mapError .raised
    | some .float => ((Tagged.float text.toList).map .float).mapError .raised
    | some .timestamp => ((Tagged.date text.toList).map .date).mapError .raised
    | some _ => .error .malformed

def entries? : Datum → Option (List (Datum × Datum))
  | .mapping entries => some entries
  | _ => none

/-- The entries of a mapping, or of all mappings of a list, the last of them first. -/
def merged? : Datum → Option (List (Datum × Datum))
  | .list items => (items.reverse.mapM entries?).map List.flatten
  | d => entries? d

def isWord (word : String) : Node → Bool
  | .scalar tag plain text => isPlain tag plain && text = word
  | _ => false

def isCollection : Node → Bool
  | .scalar .. => false
  | _ => true

/-- Of two entries with the same key the later one counts, in the place of the first. -/
def dictionary (entries : List (Datum × Datum)) : Datum :=
  .mapping (entries.foldl (fun known e => Datum.set e.1 e.2 known) [])

mutual

/-- The data that a node stands for. What stands first in the document is read first. -/
def toDatum : Node → Except Error Datum
  | .scalar tag plain text => scalarDatum tag plain text
  | .list tag items =>
    if tag = none || tag = some .unspecific || tag = some .list then (toData items).map .list
    else .error .malformed
  | .mapping tag entries =>
    if tag = none || tag = some .unspecific || tag = some .mapping then
      (toEntries entries).map fun e => dictionary (e.1 ++ e.2)
    else if tag = some .set then (toEntries entries).map fun _ => .foreign "set"
    else .error .malformed

def toData : List Node → Except Error (List Datum)
  | [] => .ok []
  | node :: rest =>
    match toDatum node with
    | .error e => .error e
    | .ok d => (toData rest).map (d :: ·)

def toEntries : List (Node × Node) → Except Error (List (Datum × Datum) × List (Datum × Datum))
  | [] => .ok ([], [])
  | (key, value) :: rest =>
    if key.isWord "<<" then
      match toDatum value with
      | .error e => .error e
      | .ok d =>
        match merged? d with
        | none => .error .malformed
        | some more => (toEntries rest).map fun e => (more ++ e.1, e.2)
    else if key.isCollection then .error .malformed
    else
      match if key.isWord "=" then .ok (.string "=") else toDatum key with
      | .error e => .error e
      | .ok k =>
        match toDatum value with
        | .error e => .error e
        | .ok d => (toEntries rest).map fun e => (e.1, (k, d) :: e.2)

end

end Node

end TemplateExpr.Yaml
