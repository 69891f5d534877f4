import TemplateExpr.Proofs.Grammar.Leaves
import TemplateExpr.Proofs.Outline.Filling
import TemplateExpr.Proofs.Output.Json
import TemplateExpr.Proofs.Output.Text
import Mathlib.Data.List.Permutation

namespace TemplateExpr

namespace Binary64

theorem Place.eq_of_ofFloat?_eq_none {x y : Float} (hx : Place.ofFloat? x = none)
    (hy : Place.ofFloat? y = none) : x = y := by
  have hbits {z : Float} (hz : Place.ofFloat? z = none) :
      z.toBits.toBitVec = Float.Model.UnpackedFloat.packedNaN .binary64 := by
    have hfields : exponentField z = 2047 ∧ fraction z ≠ 0 := by
      unfold Place.ofFloat? at hz
      split at hz <;> simp_all
    refine z.toModel.valid.eq_packedNaN (BitVec.eq_of_toNat_eq ?_) fun h => hfields.2 ?_
    · have hexponent : z.toModel.toBits.toNat / 2 ^ 52 % 2 ^ 11 = 2047 := hfields.1
      simpa [Float.Model.UnpackedFloat.unpackExponent, Nat.shiftRight_eq_div_pow] using hexponent
    · change z.toModel.toBits.toNat % 2 ^ 52 = 0
      simpa [Float.Model.UnpackedFloat.unpackMantissa] using congrArg BitVec.toNat h
  exact toBits_injective (UInt64.toBitVec_inj.1 ((hbits hx).trans (hbits hy).symm))

end Binary64

theorem FloatText.text_injective : Function.Injective FloatText.text := by
  intro x y h
  rcases FloatText.text_inj h with ⟨hx, hy⟩ | h
  · exact Binary64.Place.eq_of_ofFloat?_eq_none hx hy
  · exact h

theorem Operator.symbol_injective : Function.Injective Operator.symbol := by
  intro a b h
  cases a <;> cases b <;> first | rfl | exact absurd h (by decide)

namespace Text

/-- Nothing in a text moves the print head. -/
def Steady (s : String) : Prop := ∀ c ∈ s.toList, isHeadMove c = false

instance (s : String) : Decidable (Steady s) :=
  decidable_of_iff (s.toList.all fun c => !isHeadMove c) (by simp [Steady])

variable {s t : String}

theorem Steady.withoutHeadMoves_eq (h : Steady s) : withoutHeadMoves s = s := by
  have hkept : s.toList.filter (fun c => !isHeadMove c) = s.toList :=
    List.filter_eq_self.2 fun c hc => by simp [h c hc]
  rw [withoutHeadMoves, hkept, String.ofList_toList]

theorem Steady.append (hs : Steady s) (ht : Steady t) : Steady (s ++ t) := by
  intro c hc
  rw [String.toList_append] at hc
  exact (List.mem_append.1 hc).elim (hs c) (ht c)

theorem steady_of_forall {p : Char → Bool}
    (hp : ['\x07', '\x08', '\x0b', '\x0c', '\r'].all fun c => !p c)
    (h : ∀ c ∈ s.toList, p c = true) : Steady s := by
  intro c hc
  by_contra hsteady
  have hmove : isHeadMove c = true := Bool.eq_true_of_not_eq_false hsteady
  have hmem : c ∈ ['\x07', '\x08', '\x0b', '\x0c', '\r'] := by
    simpa [isHeadMove, or_assoc] using hmove
  have hnot : p c = false := by simpa using List.all_eq_true.1 hp c hmem
  exact Bool.false_ne_true (hnot.symm.trans (h c hc))

theorem steady_symbol (op : Operator) : Steady op.symbol := by
  cases op <;> decide

theorem steady_word (h : ∀ c ∈ s.toList, Lexeme.isWordPart c = true) : Steady s :=
  steady_of_forall (by decide) h

theorem steady_integer (n : Int) : Steady n.repr :=
  steady_of_forall (by decide) (List.all_eq_true.1 (Json.word_integer n).all_eq)

theorem steady_float (x : Float) : Steady (FloatText.text x) := by
  by_cases he : Binary64.exponentField x = 2047
  · have hname : FloatText.text x ∈ ["nan", "-inf", "inf"] := by
      rw [FloatText.text, Binary64.Place.ofFloat?, if_pos he]
      by_cases hf : Binary64.fraction x = 0 <;> cases Binary64.isNegative x <;> simp [hf]
    have hnames : ∀ s ∈ ["nan", "-inf", "inf"], Steady s := by decide
    exact hnames _ hname
  · refine steady_of_forall (p := fun c => Lexeme.isDigit c || c ∈ ['.', 'e', '+', '-'])
      (by decide) ?_
    intro c hc
    simpa using FloatText.mem_text he hc

end Text

namespace Value

variable {v w : Value}

theorem element_steady (hk : v.kind ≠ .list) (hs : ∀ s, v = .string s → Text.Steady s) :
    Text.Steady v.element := by
  cases v with
  | integer n => exact Text.steady_integer n
  | float x => exact Text.steady_float x
  | boolean b => cases b <;> decide
  | string s =>
      have hquote : Text.Steady "\"" := by decide
      exact (hquote.append (hs s rfl)).append hquote
  | list items => exact absurd rfl hk

theorem eq_of_element (hv : v.kind ≠ .list) (hk : v.kind = w.kind) (h : v.element = w.element) :
    v = w := by
  cases v with
  | list items => exact absurd rfl hv
  | integer n =>
      cases w <;> cases hk
      rename_i m
      have hread := congrArg (fun s => Json.readInteger s.toList) h
      simpa [element, text, Json.readInteger_repr] using hread
  | float x =>
      cases w <;> cases hk
      exact congrArg _ (FloatText.text_injective h)
  | boolean b =>
      cases w <;> cases hk
      rename_i c
      cases b <;> cases c <;> simp [element, text] at h ⊢
  | string s =>
      cases w <;> cases hk
      simpa [element, enclosed] using h

end Value

namespace Kind

def remark (k : Kind) : String := " (" ++ k.name ++ ")"

theorem eq_of_suffix {k l : Kind} (h : k.remark.toList <:+ l.remark.toList) : k = l := by
  cases k <;> cases l <;> first | rfl | exact absurd h (by decide)

theorem remark_append_inj {s t : String} {k l : Kind} (h : s ++ k.remark = t ++ l.remark) :
    s = t ∧ k = l := by
  have hk : k.remark.toList <:+ (t ++ l.remark).toList := ⟨s.toList, by rw [← h, String.toList_append]⟩
  have hl : l.remark.toList <:+ (t ++ l.remark).toList := ⟨t.toList, by rw [String.toList_append]⟩
  -- the shorter of two remarks that end a text ends the longer, and no remark ends another
  have hkl : k = l := by
    rcases List.suffix_or_suffix_of_suffix hk hl with h | h
    · exact eq_of_suffix h
    · exact (eq_of_suffix h).symm
  subst hkl
  exact ⟨by simpa using h, rfl⟩

end Kind

namespace Expr

variable {e e' leaf : Expr}

/-- A leaf whose label is printed as it is and tells all of it. -/
inductive Legible : Expr → Prop
  | constant {v : Value} (hk : v.kind ≠ .list) (hs : ∀ s, v = .string s → Text.Steady s) :
      Legible (.constant v)
  | name {x : String} (hx : Text.Steady x) : Legible (.name x)

/-- Nodes that differ at most in what is below them, though not in how many branches they have. -/
inductive Alike : Expr → Expr → Prop
  | constant {v : Value} : Alike (.constant v) (.constant v)
  | name {x : String} : Alike (.name x) (.name x)
  | unary {op : Operator} {a b : Expr} : Alike (.unary op a) (.unary op b)
  | binary {op : Operator} {a b a' b' : Expr} : Alike (.binary op a b) (.binary op a' b')
  | list {items items' : List Expr} (h : items.length = items'.length) :
      Alike (.list items) (.list items')

theorem Alike.length_children (h : Alike e e') : e.children.length = e'.children.length := by
  cases h with
  | constant | name | unary | binary => rfl
  | list h => exact h

theorem Alike.eq_of_children (h : Alike e e') (hc : e.children = e'.children) : e = e' := by
  cases h <;> simp_all [children]

theorem caption_constant (v : Value) :
    caption (.constant v) = "constant " ++ (v.element ++ v.kind.remark) := by
  cases v <;> simp [caption, Value.element, Kind.remark, String.append_assoc]

theorem caption_steady (h : ∀ leaf ∈ e.leaves, leaf.Legible) : Text.Steady e.caption := by
  cases e with
  | constant v =>
      cases h _ (List.mem_singleton_self _) with
      | constant hk hs =>
          have hword : Text.Steady "constant " := by decide
          have hremark : Text.Steady v.kind.remark := by cases v.kind <;> decide
          rw [caption_constant]
          exact hword.append ((Value.element_steady hk hs).append hremark)
  | name x =>
      cases h _ (List.mem_singleton_self _) with
      | name hx =>
          have hword : Text.Steady "variable " := by decide
          exact hword.append hx
  | unary op a =>
      have hword : Text.Steady "unary " := by decide
      exact hword.append (Text.steady_symbol op)
  | binary op a b =>
      have hword : Text.Steady "binary " := by decide
      exact hword.append (Text.steady_symbol op)
  | list items =>
      have hopening : Text.Steady "list (" := by decide
      have hclosing : Text.Steady " items)" := by decide
      exact (hopening.append (Text.steady_integer items.length)).append hclosing

theorem label_eq_caption (h : ∀ leaf ∈ e.leaves, leaf.Legible) : e.label = e.caption :=
  (caption_steady h).withoutHeadMoves_eq

def initial : Expr → Char
  | .constant _ => 'c'
  | .name _ => 'v'
  | .unary _ _ => 'u'
  | .binary _ _ _ => 'b'
  | .list _ => 'l'

theorem head_caption (e : Expr) : e.caption.toList.head? = some e.initial := by
  cases e <;> simp [caption, initial]

theorem alike_of_caption (hc : ∀ v, e = .constant v → v.kind ≠ .list) (h : e.caption = e'.caption) :
    Alike e e' := by
  have hinitial : e.initial = e'.initial := by
    apply Option.some.inj
    rw [← head_caption, ← head_caption, h]
  cases e with
  | constant v =>
      cases e' with
      | constant w =>
          rw [caption_constant, caption_constant] at h
          obtain ⟨helement, hkind⟩ := Kind.remark_append_inj (by simpa using h)
          obtain rfl : v = w := Value.eq_of_element (hc v rfl) hkind helement
          exact .constant
      | _ => simp [initial] at hinitial
  | name x =>
      cases e' with
      | name y =>
          obtain rfl : x = y := by simpa [caption] using h
          exact .name
      | _ => simp [initial] at hinitial
  | unary op a =>
      cases e' with
      | unary op' b =>
          obtain rfl : op = op' := Operator.symbol_injective (by simpa [caption] using h)
          exact .unary
      | _ => simp [initial] at hinitial
  | binary op a b =>
      cases e' with
      | binary op' a' b' =>
          obtain rfl : op = op' := Operator.symbol_injective (by simpa [caption] using h)
          exact .binary
      | _ => simp [initial] at hinitial
  | list items =>
      cases e' with
      | list items' =>
          have hrepr : items.length.repr = items'.length.repr := by simpa [caption] using h
          have hdecimal := congrArg (fun s => Lexeme.decimal s.toList) hrepr
          exact .list (by simpa [Lexeme.decimal_toDigits] using hdecimal)
      | _ => simp [initial] at hinitial

theorem alike_of_label (h : ∀ leaf ∈ e.leaves, leaf.Legible) (h' : ∀ leaf ∈ e'.leaves, leaf.Legible)
    (heq : e.label = e'.label) : Alike e e' := by
  rw [label_eq_caption h, label_eq_caption h'] at heq
  refine alike_of_caption ?_ heq
  rintro v rfl
  cases h _ (List.mem_singleton_self _) with
  | constant hk _ => exact hk

mutual

/-- The entries of a tree tell the tree and where they end. -/
theorem entries_append_inj (e e' : Expr) (depth : Nat) (rest rest' : List Outline.Entry)
    (h : ∀ leaf ∈ e.leaves, leaf.Legible) (h' : ∀ leaf ∈ e'.leaves, leaf.Legible)
    (heq : e.entries depth ++ rest = e'.entries depth ++ rest') : e = e' ∧ rest = rest' := by
  rw [entries_eq, entries_eq depth e', List.cons_append, List.cons_append, List.cons.injEq,
    Outline.Entry.mk.injEq] at heq
  obtain ⟨⟨-, hlabel⟩, hbelow⟩ := heq
  have halike := alike_of_label h h' hlabel
  obtain ⟨hchildren, hrest⟩ := itemEntries_append_inj e.children e'.children (depth + 1) rest rest'
    halike.length_children (fun c hc leaf hleaf => h leaf (mem_leaves_of_child hc hleaf))
    (fun c hc leaf hleaf => h' leaf (mem_leaves_of_child hc hleaf)) hbelow
  exact ⟨halike.eq_of_children hchildren, hrest⟩
termination_by 2 * e.size
decreasing_by
  rw [size_eq e]
  omega

theorem itemEntries_append_inj (es es' : List Expr) (depth : Nat) (rest rest' : List Outline.Entry)
    (hlength : es.length = es'.length) (h : ∀ e ∈ es, ∀ leaf ∈ e.leaves, leaf.Legible)
    (h' : ∀ e ∈ es', ∀ leaf ∈ e.leaves, leaf.Legible)
    (heq : itemEntries depth es ++ rest = itemEntries depth es' ++ rest') : es = es' ∧ rest = rest' := by
  match es, es' with
  | [], [] => exact ⟨rfl, heq⟩
  | e :: es, e' :: es' =>
      simp only [itemEntries, List.append_assoc] at heq
      -- the entries of the other trees are part of what may stand behind the first
      obtain ⟨rfl, hbehind⟩ := entries_append_inj e e' depth _ _ (h e List.mem_cons_self)
        (h' e' List.mem_cons_self) heq
      obtain ⟨rfl, hrest⟩ := itemEntries_append_inj es es' depth rest rest'
        (Nat.succ_inj.1 hlength) (fun e he => h e (List.mem_cons_of_mem _ he))
        (fun e he => h' e (List.mem_cons_of_mem _ he)) hbehind
      exact ⟨rfl, hrest⟩
termination_by 2 * totalSize es + 1
decreasing_by
  all_goals
    have := size_pos e
    simp only [totalSize]
    omega

end

theorem legible_of_written (h : leaf.Written)
    (hs : ∀ s, leaf = .constant (.string s) → Text.Steady s) : leaf.Legible := by
  cases h with
  | constant hk => exact .constant hk fun s hv => hs s (hv ▸ rfl)
  | name hx => exact .name (Text.steady_word hx)

end Expr

/-- The outline of a tree is its pre-order, with one entry for each node, and trees that have been read
have different outlines, unless a string in one of them has characters that are not printed. -/
theorem outline_faithful :
    (∀ e : Expr, e.outline = e.entries 0 ∧ e.outline.length = e.size) ∧
    ∀ source source' e e', parseSource source = .ok e → parseSource source' = .ok e' →
      (∀ s, .constant (.string s) ∈ e.leaves → Text.Steady s) →
      (∀ s, .constant (.string s) ∈ e'.leaves → Text.Steady s) →
      e.outline = e'.outline → e = e' := by
  refine ⟨fun e => ⟨Outline.outline_eq e, ?_⟩, fun source source' e e' h h' hs hs' heq => ?_⟩
  · rw [Outline.outline_eq, Expr.length_entries]
  · have hlegible : ∀ leaf ∈ e.leaves, leaf.Legible := fun leaf hleaf =>
      Expr.legible_of_written (parseSource_written h hleaf) fun s hv => hs s (hv ▸ hleaf)
    have hlegible' : ∀ leaf ∈ e'.leaves, leaf.Legible := fun leaf hleaf =>
      Expr.legible_of_written (parseSource_written h' hleaf) fun s hv => hs' s (hv ▸ hleaf)
    rw [Outline.outline_eq, Outline.outline_eq] at heq
    refine (Expr.entries_append_inj e e' 0 [] [] hlegible hlegible' ?_).1
    rw [List.append_nil, List.append_nil, heq]

theorem outline_faithful_brackets :
    let e : Expr := .binary .add (.constant (.string "1\" (string)")) (.list [.name "x"])
    parseSource "'1\" (string)' + [x]" = .ok e ∧ parseSource "(\"1\\\" (string)\") + [x,]" = .ok e ∧
      e.outline = [⟨0, "binary +"⟩, ⟨1, "constant \"1\" (string)\" (string)"⟩, ⟨1, "list (1 items)"⟩,
        ⟨2, "variable x"⟩] ∧
      e.outline.length = e.size ∧ e = e := by
  intro e
  have h : parseSource "'1\" (string)' + [x]" = .ok e := by
    rw [parseSource, tokenize_eq]
    cbv
  have h' : parseSource "(\"1\\\" (string)\") + [x,]" = .ok e := by
    rw [parseSource, tokenize_eq]
    cbv
  have hs : ∀ s, .constant (.string s) ∈ e.leaves → Text.Steady s := by
    intro s hs
    obtain rfl : s = "1\" (string)" := by simpa [e, Expr.leaves, Expr.itemLeaves] using hs
    decide
  have houtline := outline_faithful.1 e
  refine ⟨h, h', houtline.1.trans ?_, houtline.2, outline_faithful.2 _ _ e e h h' hs hs rfl⟩
  decide +kernel

end TemplateExpr
