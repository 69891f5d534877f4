import TemplateExpr.Numeric.FloatText
import TemplateExpr.Text.Hex
import TemplateExpr.Value.Basic

namespace TemplateExpr

inductive Json where
  | null
  | boolean (b : Bool)
  | integer (n : Int)
  | float (x : Float)
  | string (s : String)
  | array (items : List Json)
  | object (fields : List (String × Json))

namespace Json

def surrogates (n : Nat) : Nat × Nat :=
  (0xD800 + (n - 0x10000) / 0x400, 0xDC00 + (n - 0x10000) % 0x400)

def escape (c : Char) : List Char :=
  if c = '"' || c = '\\' then ['\\', c]
  else if c = '\n' then ['\\', 'n']
  else if c = '\r' then ['\\', 'r']
  else if c = '\t' then ['\\', 't']
  else if c = '\x08' then ['\\', 'b']
  else if c = '\x0c' then ['\\', 'f']
  else if 32 ≤ c.toNat && c.toNat < 127 then [c]
  else if c.toNat < 0x10000 then '\\' :: 'u' :: Text.hex 4 c.toNat
  else
    let (high, low) := surrogates c.toNat
    '\\' :: 'u' :: Text.hex 4 high ++ '\\' :: 'u' :: Text.hex 4 low

def stringText (s : String) : String :=
  String.ofList ('"' :: s.toList.flatMap escape ++ ['"'])

def floatText (x : Float) : String :=
  match Binary64.Place.ofFloat? x with
  | none => "NaN"
  | some .below => "-Infinity"
  | some .above => "Infinity"
  | some (.at _) => FloatText.text x

/-- How the parts of an array or object are set apart: what opens the nest, what stands between
two parts, and what closes it, each for a given depth. -/
structure Layout where
  opening : Nat → String
  between : Nat → String
  closing : Nat → String

def lineBreak (depth : Nat) : String := "\n" ++ String.ofList (List.replicate (2 * depth) ' ')

def indented : Layout :=
  ⟨lineBreak ∘ (· + 1), fun depth => "," ++ lineBreak (depth + 1), lineBreak⟩

def inline : Layout := ⟨fun _ => "", fun _ => ", ", fun _ => ""⟩

mutual

def render (layout : Layout) (depth : Nat) : Json → String
  | .null => "null"
  | .boolean b => if b then "true" else "false"
  | .integer n => n.repr
  | .float x => floatText x
  | .string s => stringText s
  | .array [] => "[]"
  | .array (item :: items) =>
    "[" ++ layout.opening depth ++ render layout (depth + 1) item ++
      renderItems layout depth items ++ layout.closing depth ++ "]"
  | .object [] => "\x7b\x7d"
  | .object ((key, item) :: fields) =>
    "\x7b" ++ layout.opening depth ++ stringText key ++ ": " ++ render layout (depth + 1) item ++
      renderFields layout depth fields ++ layout.closing depth ++ "\x7d"

def renderItems (layout : Layout) (depth : Nat) : List Json → String
  | [] => ""
  | item :: items =>
    layout.between depth ++ render layout (depth + 1) item ++ renderItems layout depth items

def renderFields (layout : Layout) (depth : Nat) : List (String × Json) → String
  | [] => ""
  | (key, item) :: fields =>
    layout.between depth ++ stringText key ++ ": " ++ render layout (depth + 1) item ++
      renderFields layout depth fields

end

def pretty (j : Json) : String := render indented 0 j

def compact (j : Json) : String := render inline 0 j

mutual

def ofValue : Value → Json
  | .integer n => .integer n
  | .float x => .float x
  | .boolean b => .boolean b
  | .string s => .string s
  | .list items => .array (ofValues items)

def ofValues : List Value → List Json
  | [] => []
  | v :: rest => ofValue v :: ofValues rest

end

end Json

end TemplateExpr
