import TemplateExpr.Proofs.Lexing.Digits

namespace TemplateExpr.Document

open Lexeme (Digits)

def Blank (cs : List Char) : Prop := ∀ c ∈ cs, c ∈ [' ', '\t', '\n', '\r']

def Whole (cs : List Char) : Prop := Digits cs ∧ (cs.head? = some '0' → cs = ['0'])

inductive Fraction : List Char → Prop
  | none : Fraction []
  | places {cs : List Char} (h : Digits cs) : Fraction ('.' :: cs)

inductive Power : List Char → Prop
  | none : Power []
  | unsigned {mark : Char} {cs : List Char} (hm : mark ∈ ['e', 'E']) (h : Digits cs) : Power (mark :: cs)
  | signed {mark sign : Char} {cs : List Char} (hm : mark ∈ ['e', 'E']) (hs : sign ∈ ['+', '-'])
      (h : Digits cs) : Power (mark :: sign :: cs)

inductive Magnitude : List Char → Prop
  | parts {whole fraction power : List Char} (hw : Whole whole) (hf : Fraction fraction)
      (hp : Power power) : Magnitude (whole ++ (fraction ++ power))

inductive Number : List Char → Prop
  | plain {cs : List Char} (h : Magnitude cs) : Number cs
  | minus {cs : List Char} (h : Magnitude cs) : Number ('-' :: cs)

inductive Character : List Char → Prop
  | plain {c : Char} (hc : 32 ≤ c.toNat) (hq : c ≠ '"') (hb : c ≠ '\\') : Character [c]
  | short {c : Char} (hc : c ∈ ['"', '\\', '/', 'b', 'f', 'n', 'r', 't']) : Character ['\\', c]
  | code {cs : List Char} (hl : cs.length = 4) (h : ∀ c ∈ cs, c ∈ "0123456789abcdefABCDEF".toList) :
      Character ('\\' :: 'u' :: cs)

inductive Characters : List Char → Prop
  | nil : Characters []
  | cons {cs ds : List Char} (h : Character cs) (hs : Characters ds) : Characters (cs ++ ds)

inductive Quoted : List Char → Prop
  | quotes {cs : List Char} (h : Characters cs) : Quoted ('"' :: (cs ++ ['"']))

/-- What there is in a document: values, with or without blanks around them, the elements between
brackets and the members between braces. -/
inductive Part where
  | value
  | spaced
  | elements
  | members

inductive Forms : Part → List Char → Prop
  | null : Forms .value "null".toList
  | true : Forms .value "true".toList
  | false : Forms .value "false".toList
  | number {cs : List Char} (h : Number cs) : Forms .value cs
  | string {cs : List Char} (h : Quoted cs) : Forms .value cs
  | emptyArray {b : List Char} (hb : Blank b) : Forms .value ('[' :: (b ++ [']']))
  | array {cs : List Char} (h : Forms .elements cs) : Forms .value ('[' :: (cs ++ [']']))
  | emptyObject {b : List Char} (hb : Blank b) : Forms .value ('\x7b' :: (b ++ ['\x7d']))
  | object {cs : List Char} (h : Forms .members cs) : Forms .value ('\x7b' :: (cs ++ ['\x7d']))
  | spaced {b b' cs : List Char} (hb : Blank b) (h : Forms .value cs) (hb' : Blank b') :
      Forms .spaced (b ++ (cs ++ b'))
  | element {cs : List Char} (h : Forms .spaced cs) : Forms .elements cs
  | elements {cs ds : List Char} (h : Forms .spaced cs) (hs : Forms .elements ds) :
      Forms .elements (cs ++ ',' :: ds)
  | member {b b' name cs : List Char} (hb : Blank b) (hn : Quoted name) (hb' : Blank b')
      (h : Forms .spaced cs) : Forms .members (b ++ (name ++ (b' ++ ':' :: cs)))
  | members {cs ds : List Char} (h : Forms .members cs) (hs : Forms .members ds) :
      Forms .members (cs ++ ',' :: ds)

def WellFormed (text : String) : Prop := Forms .spaced text.toList

/-- Where a reader is: outside of strings, in one, or in one behind a backslash. -/
inductive Mode where
  | outside
  | inside
  | escaped
deriving DecidableEq

namespace Mode

def next : Mode → Char → Mode
  | outside, c => if c = '"' then inside else outside
  | inside, c => if c = '"' then outside else if c = '\\' then escaped else inside
  | escaped, _ => inside

def after (m : Mode) (cs : List Char) : Mode := cs.foldl next m

def bare (m : Mode) : List Char → List Char
  | [] => []
  | c :: cs => if m = outside then c :: bare (m.next c) cs else bare (m.next c) cs

theorem after_append (m : Mode) (cs ds : List Char) : m.after (cs ++ ds) = (m.after cs).after ds :=
  List.foldl_append

theorem bare_append (m : Mode) (cs ds : List Char) :
    m.bare (cs ++ ds) = m.bare cs ++ (m.after cs).bare ds := by
  induction cs generalizing m with
  | nil => rfl
  | cons c cs ih =>
      rw [List.cons_append, bare, bare, ih]
      split <;> rfl

end Mode

open Mode (after bare)

/-- A reader who comes upon this outside of strings is outside of strings behind it. -/
def Closed (cs : List Char) : Prop := after .outside cs = .outside

def Ordinary (c : Char) : Prop := c ≠ '"' ∧ c ∉ ['N', 'I']

instance : DecidablePred Ordinary := fun _ => inferInstanceAs (Decidable (_ ∧ _))

structure Clear (cs : List Char) : Prop where
  closed : Closed cs
  letters : ∀ c ∈ bare .outside cs, c ∉ ['N', 'I']

variable {c : Char} {cs ds : List Char} {p : Part}

theorem Characters.append (h : Characters cs) (h' : Characters ds) :
    Characters (cs ++ ds) := by
  induction h with
  | nil => exact h'
  | cons h _ ih =>
      rw [List.append_assoc]
      exact .cons h ih

theorem Closed.append (h : Closed cs) (h' : Closed ds) : Closed (cs ++ ds) := by
  rw [Closed, Mode.after_append, h, h']

theorem Closed.bare_append (h : Closed cs) (ds : List Char) :
    bare .outside (cs ++ ds) = bare .outside cs ++ bare .outside ds := by
  rw [Mode.bare_append, h]

theorem Clear.append (h : Clear cs) (h' : Clear ds) : Clear (cs ++ ds) where
  closed := h.closed.append h'.closed
  letters c hc := by
    rw [h.closed.bare_append] at hc
    exact (List.mem_append.1 hc).elim (h.letters c) (h'.letters c)

theorem Clear.of_append (h : Clear (cs ++ ds)) (hcs : Closed cs) : Clear cs ∧ Clear ds := by
  have hds : Closed ds := by
    have hall := h.closed
    rwa [Closed, Mode.after_append, hcs] at hall
  have hletters := h.letters
  rw [hcs.bare_append] at hletters
  exact ⟨⟨hcs, fun c hc => hletters c (List.mem_append_left _ hc)⟩,
    ⟨hds, fun c hc => hletters c (List.mem_append_right _ hc)⟩⟩

/-- What can be learned from a text in which neither letter comes up. -/
structure Tells (cs : List Char) (P : Prop) : Prop where
  closed : Closed cs
  holds : Clear cs → P

theorem Clear.tells (h : Clear cs) : Tells cs True := ⟨h.closed, fun _ => trivial⟩

theorem Tells.append {P Q : Prop} (h : Tells cs P) (h' : Tells ds Q) : Tells (cs ++ ds) (P ∧ Q) where
  closed := h.closed.append h'.closed
  holds hall := (hall.of_append h.closed).imp h.holds h'.holds

theorem Tells.imp {P Q : Prop} (h : Tells cs P) (hPQ : P → Q) : Tells cs Q :=
  ⟨h.closed, fun hc => hPQ (h.holds hc)⟩

theorem unquoted_closed (h : '"' ∉ cs) : Closed cs ∧ bare .outside cs = cs := by
  induction cs with
  | nil => exact ⟨rfl, rfl⟩
  | cons c cs ih =>
      rw [List.mem_cons, not_or] at h
      have hnext : Mode.next .outside c = .outside := if_neg (Ne.symm h.1)
      obtain ⟨hclosed, hbare⟩ := ih h.2
      rw [Closed, after, List.foldl_cons, hnext, bare, if_pos rfl, hnext, hbare]
      exact ⟨hclosed, rfl⟩

theorem clear_of_forall (h : ∀ c ∈ cs, Ordinary c) : Clear cs := by
  obtain ⟨hclosed, hbare⟩ := unquoted_closed fun hq => (h '"' hq).1 rfl
  exact ⟨hclosed, fun c hc => (h c (hbare ▸ hc)).2⟩

theorem clear_singleton (hc : Ordinary c) : Clear [c] :=
  clear_of_forall (List.forall_mem_singleton.2 hc)

theorem Clear.cons (h : Clear cs) (hc : Ordinary c) : Clear (c :: cs) := (clear_singleton hc).append h

theorem inside_of_forall (h : ∀ c ∈ cs, c ≠ '"' ∧ c ≠ '\\') :
    after .inside cs = .inside ∧ bare .inside cs = [] := by
  induction cs with
  | nil => exact ⟨rfl, rfl⟩
  | cons c cs ih =>
      obtain ⟨hq, hb⟩ := h c List.mem_cons_self
      have hnext : Mode.next .inside c = .inside := by rw [Mode.next, if_neg hq, if_neg hb]
      rw [after, List.foldl_cons, bare, if_neg (by decide), hnext]
      exact ih fun c hc => h c (List.mem_cons_of_mem _ hc)

theorem Character.inside (h : Character cs) : after .inside cs = .inside ∧ bare .inside cs = [] := by
  cases h with
  | plain _ hq hb => exact inside_of_forall (List.forall_mem_singleton.2 ⟨hq, hb⟩)
  | short _ => exact ⟨rfl, rfl⟩
  | @code cs _ h =>
      have hplain : ∀ c ∈ "0123456789abcdefABCDEF".toList, c ≠ '"' ∧ c ≠ '\\' := by simp
      have hinside := inside_of_forall fun c hc => hplain c (h c hc)
      exact hinside

theorem Characters.inside (h : Characters cs) : after .inside cs = .inside ∧ bare .inside cs = [] := by
  induction h with
  | nil => exact ⟨rfl, rfl⟩
  | cons h _ ih =>
      obtain ⟨hafter, hbare⟩ := h.inside
      rw [Mode.after_append, Mode.bare_append, hafter, hbare]
      exact ih

theorem Quoted.clear (h : Quoted cs) : Clear cs := by
  cases h with
  | @quotes cs h =>
      obtain ⟨hafter, hbare⟩ := h.inside
      have hclosed : Closed ('"' :: (cs ++ ['"'])) := by
        change after .inside (cs ++ ['"']) = .outside
        rw [Mode.after_append, hafter]
        rfl
      have hquote : bare .outside ('"' :: (cs ++ ['"'])) = ['"'] := by
        change '"' :: bare .inside (cs ++ ['"']) = ['"']
        rw [Mode.bare_append, hbare, hafter]
        rfl
      exact ⟨hclosed, by rw [hquote]; simp⟩

theorem Blank.clear (h : Blank cs) : Clear cs := by
  have hblank : ∀ c ∈ [' ', '\t', '\n', '\r'], Ordinary c := by simp [Ordinary]
  exact clear_of_forall fun c hc => hblank c (h c hc)

theorem digits_clear (h : Digits cs) : Clear cs := by
  refine clear_of_forall fun c hc => ?_
  have hdigit := h.2 c hc
  constructor
  · rintro rfl
    cases hdigit
  · intro hletter
    rcases List.mem_pair.1 hletter with rfl | rfl <;> cases hdigit

theorem Fraction.clear (h : Fraction cs) : Clear cs := by
  cases h with
  | none => exact clear_of_forall (by simp)
  | places h => exact (digits_clear h).cons (by decide)

theorem Power.clear (h : Power cs) : Clear cs := by
  have hmarks : ∀ c ∈ ['e', 'E', '+', '-'], Ordinary c := by simp [Ordinary]
  cases h with
  | none => exact clear_of_forall (by simp)
  | unsigned hm h => exact (digits_clear h).cons (hmarks _ (List.mem_append_left ['+', '-'] hm))
  | signed hm hs h =>
      exact ((digits_clear h).cons (hmarks _ (List.mem_append_right ['e', 'E'] hs))).cons
        (hmarks _ (List.mem_append_left ['+', '-'] hm))

theorem Magnitude.clear (h : Magnitude cs) : Clear cs := by
  cases h with
  | parts hw hf hp => exact (digits_clear hw.1).append (hf.clear.append hp.clear)

theorem Number.clear (h : Number cs) : Clear cs := by
  cases h with
  | plain h => exact h.clear
  | minus h => exact h.clear.cons (by decide)

theorem Clear.enclosed {left right : Char} (h : Clear cs) (hl : Ordinary left)
    (hr : Ordinary right) : Clear (left :: (cs ++ [right])) :=
  (h.append (clear_singleton hr)).cons hl

theorem Forms.clear (h : Forms p cs) : Clear cs := by
  induction h with
  | null | true | false => exact clear_of_forall (by simp [Ordinary])
  | number h => exact h.clear
  | string h => exact h.clear
  | emptyArray hb => exact hb.clear.enclosed (by decide) (by decide)
  | array _ ih => exact ih.enclosed (by decide) (by decide)
  | emptyObject hb => exact hb.clear.enclosed (by decide) (by decide)
  | object _ ih => exact ih.enclosed (by decide) (by decide)
  | spaced hb _ hb' ih => exact hb.clear.append (ih.append hb'.clear)
  | element _ ih => exact ih
  | elements _ _ ih ihs => exact ih.append (ihs.cons (by decide))
  | member hb hn hb' _ ih =>
      exact hb.clear.append (hn.clear.append (hb'.clear.append (ih.cons (by decide))))
  | members _ _ ih ihs => exact ih.append (ihs.cons (by decide))

end TemplateExpr.Document
