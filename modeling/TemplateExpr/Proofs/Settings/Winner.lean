import TemplateExpr.Settings.Load
import TemplateExpr.Proofs.Grammar.Acceptance

namespace TemplateExpr.Settings

namespace Field

def declared : List Field := [.cacheExpressions, .cacheSize, .verbosity]

theorem mem_declared (field : Field) : field ∈ declared := by
  cases field <;> decide

abbrev Content : Field → Type
  | .cacheExpressions => Bool
  | .cacheSize => Nat
  | .verbosity => String

def read (lib : Library) : (field : Field) → Datum → Except String field.Content
  | .cacheExpressions => readCacheExpressions lib
  | .cacheSize => readCacheSize lib
  | .verbosity => readVerbosity lib

def content (settings : Settings) : (field : Field) → field.Content
  | .cacheExpressions => settings.cacheExpressions
  | .cacheSize => settings.cacheSize
  | .verbosity => settings.verbosity

/-- What a field comes to by what is said about it, if anything is. -/
inductive Takes (lib : Library) (field : Field) : Option Datum → field.Content → Prop
  | unmentioned : Takes lib field none (field.content default)
  | read {d : Datum} {x : field.Content} (h : field.read lib d = .ok x) : Takes lib field (some d) x

end Field

def winner (layers : List Layer) (field : Field) : Option Datum := layers.findSome? (· field)

/-- Of the fields about which something is said that is not a value, the first one declared. -/
structure FirstSpoilt (lib : Library) (said : Field → Option Datum) (field : Field) (reason : String) :
    Prop where
  before : ∀ other ∈ Field.declared.takeWhile (· ≠ field), ∃ x, other.Takes lib (said other) x
  here : ∃ d, said field = some d ∧ field.read lib d = .error reason

/-- The same datum, or a mapping for a mapping. -/
inductive Covers : Datum → Datum → Prop
  | same {d : Datum} : Covers d d
  | mapping {entries entries' : List (Datum × Datum)} :
      Covers (.mapping entries) (.mapping entries')

variable {lib : Library} {layers : List Layer} {field : Field} {d : Datum} {e : Error}
  {settings : Settings} {reason : String}

theorem covers_overlay (h : lib.Conforms) (d below : Datum) : Covers (lib.overlay d below) d := by
  cases hd : d.isMapping with
  | false =>
      rw [h.overlay_eq (.inl hd)]
      exact .same
  | true =>
      obtain ⟨merged, hmerged⟩ : ∃ merged, lib.overlay d below = .mapping merged :=
        Datum.isMapping_iff.1 (h.isMapping_overlay hd)
      obtain ⟨entries, rfl⟩ := Datum.isMapping_iff.1 hd
      rw [hmerged]
      exact .mapping

theorem Covers.read_eq {d' : Datum} (hlib : lib.Conforms) (h : Covers d d') (field : Field) :
    field.read lib d = field.read lib d' := by
  have hrefused : ∃ reason, ∀ entries, field.read lib (.mapping entries) = .error reason := by
    cases field with
    | cacheExpressions => exact hlib.boolean_mapping
    | cacheSize => exact hlib.integer_mapping 1 maxCacheSize
    | verbosity => exact hlib.choice_mapping _
  obtain ⟨reason, hreason⟩ := hrefused
  cases h with
  | same => rfl
  | mapping => rw [hreason, hreason]

/-- What counts for a field covers what the winner says. -/
theorem choose_covers (h : lib.Conforms) (layers : List Layer) (field : Field) :
    Option.Rel Covers (choose lib layers field) (winner layers field) := by
  induction layers with
  | nil => exact .none
  | cons layer layers ih =>
      rw [choose, List.foldr_cons, ← choose, winner, List.findSome?_cons, ← winner]
      cases layer field with
      | none =>
          rw [Option.merge_none_left]
          exact ih
      | some d =>
          -- the layers below can only add to what a mapping holds
          cases choose lib layers field with
          | none => exact .some .same
          | some below => exact .some (covers_overlay h d below)

theorem map_read_choose (h : lib.Conforms) (layers : List Layer) (field : Field) :
    (choose lib layers field).map (field.read lib) = (winner layers field).map (field.read lib) := by
  have hcovers := choose_covers h layers field
  generalize choose lib layers field = chosen, winner layers field = won at hcovers ⊢
  cases hcovers with
  | none => rfl
  | some hd => exact congrArg some (hd.read_eq h field)

theorem Field.takes_iff {said : Option Datum} {x : field.Content} : field.Takes lib said x ↔
    (said.map (field.read lib)).getD (.ok (field.content default)) = .ok x := by
  cases said with
  | none =>
      constructor
      · rintro ⟨⟩
        rfl
      · rintro ⟨⟩
        exact .unmentioned
  | some d =>
      constructor
      · rintro ⟨⟩
        assumption
      · exact .read

def settle (lib : Library) (layers : List Layer) (field : Field) : Except Error field.Content :=
  resolve lib layers field (field.read lib) (field.content default)

theorem settle_eq_ok_iff (h : lib.Conforms) {x : field.Content} :
    settle lib layers field = .ok x ↔ field.Takes lib (winner layers field) x := by
  rw [Field.takes_iff, ← map_read_choose h, settle, resolve]
  cases choose lib layers field with
  | none => simp
  | some d => exact Grammar.mapError_eq_ok_iff

theorem settle_eq_error_iff : settle lib layers field = .error e ↔
    ∃ d reason, choose lib layers field = some d ∧ field.read lib d = .error reason ∧
      e = .invalid field reason d := by
  unfold settle resolve
  cases choose lib layers field with
  | none => simp
  | some d =>
      simp only [Option.some.injEq, exists_and_left, exists_eq_left']
      cases field.read lib d with
      | error reason =>
          change Except.error (Error.invalid field reason d) = Except.error e ↔ _
          simp [eq_comm]
      | ok x => exact ⟨nofun, nofun⟩

def ReadUpTo (lib : Library) (layers : List Layer) (field : Field) : Prop :=
  ∀ other ∈ Field.declared.takeWhile (· ≠ field), ∃ x, settle lib layers other = .ok x

theorem merge_eq (lib : Library) (layers : List Layer) : merge lib layers =
    match settle lib layers .cacheExpressions, settle lib layers .cacheSize, settle lib layers .verbosity with
    | .error e, _, _ => .error e
    | .ok _, .error e, _ => .error e
    | .ok _, .ok _, .error e => .error e
    | .ok cacheExpressions, .ok cacheSize, .ok verbosity =>
      .ok ⟨cacheExpressions, cacheSize, verbosity⟩ := by
  have hmerge : merge lib layers =
      match settle lib layers .cacheExpressions with
      | .error e => .error e
      | .ok cacheExpressions =>
        match settle lib layers .cacheSize with
        | .error e => .error e
        | .ok cacheSize =>
          (settle lib layers .verbosity).map fun verbosity =>
            ⟨cacheExpressions, cacheSize, verbosity⟩ := rfl
  rw [hmerge]
  cases settle lib layers .cacheExpressions <;> cases settle lib layers .cacheSize <;>
    cases settle lib layers .verbosity <;> rfl

theorem merge_eq_ok_iff :
    merge lib layers = .ok settings ↔ ∀ field, settle lib layers field = .ok (field.content settings) := by
  rw [merge_eq]
  constructor
  · intro h
    split at h <;> cases h
    rintro (_ | _ | _) <;> assumption
  · intro h
    rw [h .cacheExpressions, h .cacheSize, h .verbosity]
    rfl

theorem merge_eq_error_iff : merge lib layers = .error e ↔
    ∃ field, ReadUpTo lib layers field ∧ settle lib layers field = .error e := by
  rw [merge_eq]
  constructor
  · intro h
    split at h <;> cases h
    · rename_i ha
      exact ⟨.cacheExpressions, by simp [ReadUpTo, Field.declared], ha⟩
    · rename_i ha hb
      exact ⟨.cacheSize, by simp [ReadUpTo, Field.declared, ha], hb⟩
    · rename_i ha hb hc
      exact ⟨.verbosity, by simp [ReadUpTo, Field.declared, ha, hb], hc⟩
  · rintro ⟨field, hbefore, h⟩
    cases field with
    | cacheExpressions => rw [h]
    | cacheSize =>
        obtain ⟨a, ha⟩ := hbefore .cacheExpressions (by decide)
        rw [ha, h]
    | verbosity =>
        obtain ⟨a, ha⟩ := hbefore .cacheExpressions (by decide)
        obtain ⟨b, hb⟩ := hbefore .cacheSize (by decide)
        rw [ha, hb, h]

theorem merge_takes_iff (h : lib.Conforms) : merge lib layers = .ok settings ↔
    ∀ field : Field, field.Takes lib (winner layers field) (field.content settings) :=
  merge_eq_ok_iff.trans (forall_congr' fun _ => settle_eq_ok_iff h)

theorem spoilt_iff (h : lib.Conforms) :
    (∃ d, winner layers field = some d ∧ field.read lib d = .error reason) ↔
      ∃ d, choose lib layers field = some d ∧ field.read lib d = .error reason := by
  rw [← Option.map_eq_some_iff, ← map_read_choose h, Option.map_eq_some_iff]

theorem merge_spoilt_iff (h : lib.Conforms) : merge lib layers = .error e ↔
    ∃ field reason d, FirstSpoilt lib (winner layers) field reason ∧
      choose lib layers field = some d ∧ e = .invalid field reason d := by
  rw [merge_eq_error_iff]
  constructor
  · rintro ⟨field, hbefore, he⟩
    obtain ⟨d, reason, hd, hread, rfl⟩ := settle_eq_error_iff.1 he
    have hspoilt := (spoilt_iff h).2 ⟨d, hd, hread⟩
    refine ⟨field, reason, d, ⟨fun other hother => ?_, hspoilt⟩, hd, rfl⟩
    obtain ⟨x, hx⟩ := hbefore other hother
    exact ⟨x, (settle_eq_ok_iff h).1 hx⟩
  · rintro ⟨field, reason, d, hfirst, hd, rfl⟩
    refine ⟨field, fun other hother => ?_, settle_eq_error_iff.2 ⟨d, reason, hd, ?_, rfl⟩⟩
    · obtain ⟨x, hx⟩ := hfirst.before other hother
      exact ⟨x, (settle_eq_ok_iff h).2 hx⟩
    · obtain ⟨d', hd', hread⟩ := (spoilt_iff h).1 hfirst.here
      obtain rfl : d' = d := Option.some.inj (hd'.symm.trans hd)
      exact hread

/-- Outcomes that differ at most in the data that go with an error, and there in what a mapping holds. -/
inductive Agree : Except Error Settings → Except Error Settings → Prop
  | same {r : Except Error Settings} : Agree r r
  | mapping {field : Field} {reason : String} {entries entries' : List (Datum × Datum)} :
      Agree (.error (.invalid field reason (.mapping entries)))
        (.error (.invalid field reason (.mapping entries')))

theorem choose_of_winner_eq {layers' : List Layer} (hlib : lib.Conforms)
    (h : winner layers field = winner layers' field) (hd : choose lib layers field = some d) :
    ∃ d', choose lib layers' field = some d' ∧
      ∀ reason, Agree (.error (.invalid field reason d)) (.error (.invalid field reason d')) := by
  have hcovers := choose_covers hlib layers field
  have hcovers' := choose_covers hlib layers' field
  rw [hd] at hcovers
  rw [← h] at hcovers'
  generalize choose lib layers' field = chosen at hcovers' ⊢
  generalize winner layers field = won at hcovers hcovers'
  cases hcovers with
  | some hw =>
      cases hcovers' with
      | some hw' =>
          refine ⟨_, rfl, fun reason => ?_⟩
          cases hw <;> cases hw' <;> first | exact .same | exact .mapping

theorem merge_agree {layers' : List Layer} (hlib : lib.Conforms)
    (h : ∀ field, winner layers field = winner layers' field) :
    Agree (merge lib layers) (merge lib layers') := by
  have hwinners : winner layers = winner layers' := funext h
  cases hmerge : merge lib layers with
  | ok settings =>
      rw [(merge_takes_iff hlib).2 (hwinners ▸ (merge_takes_iff hlib).1 hmerge)]
      exact .same
  | error e =>
      obtain ⟨field, reason, d, hfirst, hd, rfl⟩ := (merge_spoilt_iff hlib).1 hmerge
      obtain ⟨d', hd', hagree⟩ := choose_of_winner_eq hlib (h field) hd
      rw [(merge_spoilt_iff hlib).2 ⟨field, reason, d', hwinners ▸ hfirst, hd', rfl⟩]
      exact hagree reason

end TemplateExpr.Settings
