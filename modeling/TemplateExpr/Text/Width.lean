import TemplateExpr.Text.Width.Ranges

namespace TemplateExpr.Text

def inRanges (n : Nat) (ranges : List (Nat × Nat)) : Bool := ranges.any fun r => r.1 ≤ n && n ≤ r.2

def charWidth (c : Char) : Nat :=
  let n := c.toNat
  if n < 32 || (127 ≤ n && n < 160) then 0
  else if n < 0x300 then 1
  else if inRanges n emptyRanges then 0
  else if inRanges n wideRanges then 2
  else 1

def joiner : Char := '\u200d'

def emojiSelector : Char := '\ufe0f'

def canWiden (c : Char) : Bool := inRanges c.toNat widenedRanges

/-- The width of text behind `before`, which is the last character that took up a column and was
not widened yet. The next character is drawn into it when it is `joined`. -/
def widthBehind (before : Option Char) (joined : Bool) : List Char → Nat
  | [] => 0
  | c :: cs =>
    if joined then widthBehind before false cs
    else if c = joiner then widthBehind before true cs
    else if c = emojiSelector then
      (if before.any canWiden then 1 else 0) + widthBehind none false cs
    else if charWidth c = 0 then widthBehind before false cs
    else charWidth c + widthBehind (some c) false cs

def width (cs : List Char) : Nat := widthBehind none false cs

end TemplateExpr.Text
