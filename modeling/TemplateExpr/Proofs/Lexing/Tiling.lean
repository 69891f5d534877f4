import TemplateExpr.Proofs.Lexing.Joining
import TemplateExpr.Proofs.Lexing.Place

namespace TemplateExpr

/-- From an offset on, tokens are stretches of a source, one behind the other with spaces between them,
and their lines and columns are those of their offsets. -/
structure Tiles (source : List Char) (start : Nat) (tokens : List Token) : Prop where
  behind : ∀ t ∈ tokens, start ≤ t.position.offset
  slices : ∀ t ∈ tokens, t.text.toList <+: source.drop t.position.offset
  apart : tokens.Pairwise fun t u => t.position.offset + t.text.length ≤ u.position.offset
  spaces : ∀ i c, start ≤ i → source[i]? = some c →
    (∀ t ∈ tokens, i < t.position.offset ∨ t.position.offset + t.text.length ≤ i) →
      Lexeme.isSpace c = true
  points : ∀ t ∈ tokens, t.position.Points source

namespace Tiles

variable {source : List Char} {start : Nat} {t : Token} {tokens : List Token}

theorem nil (source : List Char) : Tiles source source.length [] where
  behind := by simp
  slices := by simp
  apart := .nil
  spaces i c hi hc _ := by simp [List.getElem?_eq_none hi] at hc
  points := by simp

theorem cons (h : Tiles source (start + t.text.length) tokens) (ht : t.position.offset = start)
    (hslice : t.text.toList <+: source.drop start) (hpoints : t.position.Points source) :
    Tiles source start (t :: tokens) where
  behind := List.forall_mem_cons.2 ⟨ht.ge, fun u hu => Nat.le_of_add_right_le (h.behind u hu)⟩
  slices := List.forall_mem_cons.2 ⟨ht ▸ hslice, h.slices⟩
  apart := List.pairwise_cons.2 ⟨fun u hu => ht ▸ h.behind u hu, h.apart⟩
  spaces i c hi hc hout := by
    obtain ⟨hfirst, hrest⟩ := List.forall_mem_cons.1 hout
    exact h.spaces i c (by omega) hc hrest
  points := List.forall_mem_cons.2 ⟨hpoints, h.points⟩

theorem space {c : Char} (h : Tiles source (start + 1) tokens) (hc : source[start]? = some c)
    (hspace : Lexeme.isSpace c = true) : Tiles source start tokens where
  behind t ht := Nat.le_of_add_right_le (h.behind t ht)
  slices := h.slices
  apart := h.apart
  spaces i d hi hd hout := by
    rcases Nat.eq_or_lt_of_le hi with rfl | hlt
    · cases hc.symm.trans hd
      exact hspace
    · exact h.spaces i d hlt hd hout
  points := h.points

end Tiles

namespace Lexeme

variable {p q : Position} {cs rest before : List Char} {found : List (Position × Lexeme)}
  {ts us : List Token} {x : Lexeme} {kind : Token.Kind}

theorem Reaches.tiles (h : Reaches p cs found q rest) (hg : List.Forall₂ Gives found ts)
    (hp : p = Position.start.advance before) (hus : Tiles (before ++ cs) q.offset us) :
    Tiles (before ++ cs) p.offset (ts ++ us) := by
  induction h generalizing before ts with
  | here =>
      cases hg
      exact hus
  | @space p q c cs rest found hc _ ih =>
      have hoffset : p.offset = before.length := by simp [hp, Position.start_advance]
      have hnext : p.next c = Position.start.advance (before ++ [c]) := by
        rw [Position.advance_append, ← hp, Position.advance_cons, Position.advance_nil]
      rw [List.append_cons] at hus ⊢
      have hrest := ih hg hnext hus
      rw [Position.next_offset] at hrest
      refine hrest.space (c := c) ?_ hc
      simp [hoffset]
  | @lexeme p q cs rest x found hx _ ih =>
      cases hg with
      | @cons _ t _ ts ht hts =>
          obtain ⟨kind, -, rfl⟩ := ht
          have hoffset : p.offset = before.length := by simp [hp, Position.start_advance]
          have hadvance : p.advance x.text = Position.start.advance (before ++ x.text) := by
            rw [Position.advance_append, ← hp]
          have hwhole : before ++ cs = before ++ x.text ++ x.rest := by
            rw [List.append_assoc, hx.append]
          have hpoints : p.Points (before ++ cs) := hp ▸ Position.start_advance_points before cs
          rw [hwhole] at hus
          have hrest := ih hts hadvance hus
          rw [← hwhole, Position.advance_offset] at hrest
          refine Tiles.cons (by simpa using hrest) rfl ?_ hpoints
          simp [hoffset, ← hx.append]

theorem Longest.text_eq_iff (hx : Longest cs x) : x.text = ['<', '%'] ↔ ['<', '%'] <+: cs := by
  constructor
  · intro h
    exact ⟨x.rest, h ▸ hx.append⟩
  · rintro ⟨rest, rfl⟩
    rw [hx.unique (longest_blockStart rest)]

theorem Reaches.isBlock_iff_text (h : Reaches p cs found q rest) (hg : List.Forall₂ Gives found ts) :
    Token.isBlock ts = true ↔ ts.head?.map Token.text = some "<%" := by
  induction h generalizing ts with
  | here =>
      cases hg
      simp [Token.isBlock]
  | space _ _ ih => exact ih hg
  | lexeme hx _ _ =>
      cases hg with
      | cons ht _ =>
          obtain ⟨kind, hd, rfl⟩ := ht
          rw [Token.isBlock, hx.isBlockStart_iff hd, ← hx.text_eq_iff]
          simp [← String.toList_inj]

theorem Reaches.text_ne_empty (h : Reaches p cs found q rest) (hg : List.Forall₂ Gives found ts) :
    ∀ t ∈ ts, t.text ≠ "" := by
  induction h generalizing ts with
  | here =>
      cases hg
      simp
  | space _ _ ih => exact ih hg
  | lexeme hx _ ih =>
      cases hg with
      | cons ht hts =>
          obtain ⟨kind, -, rfl⟩ := ht
          have hne := cut?_text_ne_nil (cut?_eq_some_iff.2 hx)
          exact List.forall_mem_cons.2 ⟨by simpa [← String.toList_inj] using hne, ih hts⟩

end Lexeme

theorem Tiles.mark {source : List Char} : Tiles source source.length
    [⟨.blockEnd, "", Position.start.advance source⟩] := by
  have hoffset : (Position.start.advance source).offset = source.length := by
    rw [Position.start_advance]
  have hpoints := Position.start_advance_points source []
  rw [List.append_nil] at hpoints
  exact .cons (.nil source) hoffset (by simp) hpoints

/-- The tokens of a source are stretches of it in a row that leave out spaces only, each with the line
and the column where it stands. The first one begins a block. If the first lexeme does not, the tokens of
all lexemes are enclosed in two markers without text, at the beginning and at the end of the source. -/
theorem tokenize_tiles {source : String} {tokens : List Token}
    (h : tokenize source = .ok tokens) :
    Tiles source.toList 0 tokens ∧ (∃ t more, tokens = t :: more ∧ t.kind = .blockStart) ∧
    ∃ ts, scan .start source.toList = .ok ts ∧ (∀ t ∈ ts, t.text ≠ "") ∧
      (ts.head?.map Token.text = some "<%" → tokens = ts) ∧
      (ts.head?.map Token.text ≠ some "<%" →
        ∃ opening closing, tokens = opening :: (ts ++ [closing]) ∧
          opening.kind = .blockStart ∧ opening.text = "" ∧ opening.position.offset = 0 ∧
          closing.kind = .blockEnd ∧ closing.text = "" ∧
          closing.position.offset = source.length) := by
  obtain ⟨ts, hs, rfl⟩ := tokenize_ok_iff.1 h
  obtain ⟨found, q, hr, hg⟩ := Lexeme.scan_ok_iff.1 hs
  have hend : q.offset = source.toList.length := by
    obtain ⟨before, hbefore, rfl⟩ := hr.split
    rw [List.append_nil] at hbefore
    rw [hbefore, Position.start_advance]
  have hstart : Position.start = Position.start.advance [] := rfl
  have htiles (us : List Token) (hus : Tiles source.toList source.toList.length us) :
      Tiles source.toList 0 (ts ++ us) :=
    hr.tiles hg hstart (hend ▸ hus)
  have hblock := hr.isBlock_iff_text hg
  cases hb : Token.isBlock ts with
  | true =>
      have hhead := hblock.1 hb
      have htokens := htiles [] (.nil _)
      rw [List.append_nil] at htokens
      refine ⟨htokens, ?_, ts, hs, hr.text_ne_empty hg, fun _ => rfl, absurd hhead⟩
      cases ts with
      | nil => cases hb
      | cons t more => exact ⟨t, more, rfl, Token.Kind.isBlockStart_iff.1 hb⟩
  | false =>
      have hhead : ts.head?.map Token.text ≠ some "<%" := by simp [← hblock, hb]
      have hopening : Position.start.Points source.toList :=
        Position.start_advance_points [] source.toList
      have htokens := Tiles.cons (t := ⟨.blockStart, "", .start⟩) (htiles _ .mark) rfl
        List.nil_prefix hopening
      refine ⟨htokens, ⟨_, _, rfl, rfl⟩, ts, hs, hr.text_ne_empty hg, fun hne => absurd hne hhead,
        fun _ => ⟨_, _, rfl, rfl, rfl, rfl, rfl, rfl, ?_⟩⟩
      rw [Position.start_advance, String.length_toList]

theorem tokenize_tiles_lines :
    let source := "a\n'b\n' "
    let tokens : List Token := [⟨.blockStart, "", ⟨1, 1, 0⟩⟩, ⟨.name, "a", ⟨1, 1, 0⟩⟩,
      ⟨.value (.string "b\n"), "'b\n'", ⟨2, 1, 2⟩⟩, ⟨.blockEnd, "", ⟨3, 3, 7⟩⟩]
    tokenize source = .ok tokens ∧ Tiles source.toList 0 tokens := by
  intro source tokens
  have htext : "a\n'b\n' ".toList = ['a', '\n', '\'', 'b', '\n', '\'', ' '] := rfl
  have hname : Lexeme.cut? ['a', '\n', '\'', 'b', '\n', '\'', ' '] =
      some ⟨.word, ['a'], ['\n', '\'', 'b', '\n', '\'', ' ']⟩ := rfl
  have hstring : Lexeme.cut? ['\'', 'b', '\n', '\'', ' '] =
      some ⟨.string, ['\'', 'b', '\n', '\''], [' ']⟩ := rfl
  have h : tokenize "a\n'b\n' " = .ok tokens := by
    rw [tokenize, htext, Lexeme.scan_longest (Lexeme.cut?_eq_some_iff.1 hname),
      Lexeme.scan_space rfl, Lexeme.scan_longest (Lexeme.cut?_eq_some_iff.1 hstring),
      Lexeme.scan_space rfl, scan]
    rfl
  exact ⟨h, (tokenize_tiles h).1⟩

end TemplateExpr
