import TemplateExpr.Proofs.Settings.Winner
import TemplateExpr.Standard.Library

namespace TemplateExpr.Settings

/-- The entries of a file that can be used. One that is missing or has nothing in it has none. -/
inductive Holds (lib : Library) (s : Surroundings) (path : String) : List (Datum × Datum) → Prop
  | missing (h : s.read? path = none) (hd : s.isDirectory path = false) : Holds lib s path []
  | blank {text : String} (h : s.read? path = some text) (hy : lib.document text = .ok .null) :
      Holds lib s path []
  | mapping {text : String} {entries : List (Datum × Datum)} (h : s.read? path = some text)
      (hy : lib.document text = .ok (.mapping entries)) : Holds lib s path entries

/-- A file whose text is not a document, or one of something else than a mapping. -/
inductive Refused (lib : Library) (s : Surroundings) (path : String) : Error → Prop
  | malformed {text : String} (h : s.read? path = some text)
      (hy : lib.document text = .error .malformed) : Refused lib s path (.malformed path)
  | notAMapping {text : String} {d : Datum} (h : s.read? path = some text)
      (hy : lib.document text = .ok d) (hnull : d ≠ .null) (hd : d.isMapping = false) :
      Refused lib s path (.notAMapping path d.typeName)

def chosenFile (s : Surroundings) (path : Option String) : String :=
  (path.map Surroundings.normalPath).getD (projectFile s)

/-- Two files that can be used, all keys of which are texts. -/
structure Sources (lib : Library) (s : Surroundings) (path : Option String)
    (project user : List (Datum × Datum)) : Prop where
  holdsProject : Holds lib s (chosenFile s path) project
  holdsUser : Holds lib s (userFile s) user
  texts : ∀ entry ∈ project ++ user, ∃ key, entry.1 = .string key

def variableLayer (s : Surroundings) : Layer := fun field =>
  (Surroundings.foldedValue? s.environment ("QUILL_" ++ field.name)).map .string

def layers (s : Surroundings) (project user : List (Datum × Datum)) : List Layer :=
  [variableLayer s, mappingLayer project, mappingLayer user]

def isFieldName (key : Datum) : Bool := Field.declared.any fun field => key.sameKey (.string field.name)

def known (entries : List (Datum × Datum)) : List (Datum × Datum) :=
  entries.filter fun entry => isFieldName entry.1

variable {lib : Library} {s s' : Surroundings} {path path' : Option String} {file : String}
  {entries project user project' user' : List (Datum × Datum)} {e : Error}

theorem environmentLayer_eq (hlib : lib.Conforms) (s : Surroundings) :
    environmentLayer lib s = variableLayer s := by
  funext field
  rw [environmentLayer, variableLayer, hlib.fromEnvironment_eq]

theorem Holds.fileEntries_eq (h : Holds lib s file entries) :
    ∃ events, fileEntries lib s file = .ok (entries, events) := by
  unfold fileEntries
  cases h with
  | missing h hd => simp [h, hd]
  | blank h hy => simp [h, hy]
  | mapping h hy => simp [h, hy]

theorem Refused.fileEntries_eq (h : Refused lib s file e) : fileEntries lib s file = .error e := by
  unfold fileEntries
  cases h with
  | malformed h hy => simp only [h, hy]
  | @notAMapping _ d h hy hnull hd =>
      simp only [h, hy]
      cases d with
      | null => exact absurd rfl hnull
      | mapping entries => cases hd
      | _ => rfl

theorem Refused.isReported (h : Refused lib s file e) : e.isReported = true := by
  cases h <;> rfl

theorem load_of_sources (hlib : lib.Conforms) (h : Sources lib s path project user) :
    (load lib s path).result = merge lib (layers s project user) := by
  obtain ⟨projectEvents, hproject⟩ := h.holdsProject.fileEntries_eq
  obtain ⟨userEvents, huser⟩ := h.holdsUser.fileEntries_eq
  have htexts : (project ++ user).all (fun e => isText e.1) = true := by
    refine List.all_eq_true.2 fun entry hentry => ?_
    obtain ⟨key, hkey⟩ := h.texts entry hentry
    rw [hkey]
    rfl
  rw [chosenFile] at hproject
  rw [load]
  simp only [hproject, huser, htexts, if_true, layers, environmentLayer_eq hlib]

theorem load_of_project_refused (h : Refused lib s (chosenFile s path) e) :
    (load lib s path).result = .error e := by
  have hproject := h.fileEntries_eq
  rw [chosenFile] at hproject
  simp only [load, hproject]

theorem load_of_user_refused (hp : Holds lib s (chosenFile s path) project)
    (h : Refused lib s (userFile s) e) : (load lib s path).result = .error e := by
  obtain ⟨projectEvents, hproject⟩ := hp.fileEntries_eq
  rw [chosenFile] at hproject
  simp only [load, hproject, h.fileEntries_eq]

theorem mappingLayer_known (entries : List (Datum × Datum)) :
    mappingLayer (known entries) = mappingLayer entries := by
  funext field
  have hkept (entry : Datum × Datum) : (isFieldName entry.1 = true ∧
      entry.1.sameKey (.string field.name) = true) ↔
        entry.1.sameKey (.string field.name) = true :=
    and_iff_right_of_imp fun h => List.any_eq_true.2 ⟨field, field.mem_declared, h⟩
  simp only [mappingLayer, Datum.get?, known, List.find?_filter, hkept, Bool.decide_eq_true]

/-- Every field has its value from the first source that mentions it, and the first field of which that
is not a value is reported. Nothing else in a file that can be used matters, except where a mapping
stands over another; and one that cannot be used is reported before any field. -/
theorem load_layered (hlib : lib.Conforms) :
    (∀ s path project user, Sources lib s path project user →
      (∀ settings, (load lib s path).result = .ok settings ↔ ∀ field : Field,
        field.Takes lib (winner (layers s project user) field) (field.content settings)) ∧
      (∀ e, (load lib s path).result = .error e ↔ ∃ field reason d,
        FirstSpoilt lib (winner (layers s project user)) field reason ∧
        choose lib (layers s project user) field = some d ∧ e = .invalid field reason d) ∧
      ∀ field, Option.Rel Covers (choose lib (layers s project user) field)
        (winner (layers s project user) field)) ∧
    (∀ s s' path path' project user project' user', Sources lib s path project user →
      Sources lib s' path' project' user' →
      ((∀ field, winner (layers s project user) field = winner (layers s' project' user') field) →
        Agree (load lib s path).result (load lib s' path').result) ∧
      ((∀ field, variableLayer s field = variableLayer s' field) →
        known project = known project' → known user = known user' →
        (load lib s path).result = (load lib s' path').result)) ∧
    (∀ s path e, Refused lib s (chosenFile s path) e →
      (load lib s path).result = .error e ∧ e.isReported = true) ∧
    ∀ s path project e, Holds lib s (chosenFile s path) project → Refused lib s (userFile s) e →
      (load lib s path).result = .error e ∧ e.isReported = true := by
  refine ⟨fun s path project user h => ?_, fun s s' path path' project user project' user' h h' => ?_,
    fun s path e h => ⟨load_of_project_refused h, h.isReported⟩,
    fun s path project e hp h => ⟨load_of_user_refused hp h, h.isReported⟩⟩
  · rw [load_of_sources hlib h]
    exact ⟨fun settings => merge_takes_iff hlib, fun e => merge_spoilt_iff hlib, choose_covers hlib _⟩
  · rw [load_of_sources hlib h, load_of_sources hlib h']
    refine ⟨merge_agree hlib, fun hvariables hproject huser => ?_⟩
    rw [layers, layers, funext hvariables, ← mappingLayer_known project, hproject,
      mappingLayer_known, ← mappingLayer_known user, huser, mappingLayer_known]

theorem load_layered_null :
    let user := ("home/.config/quill/config.yaml", "cache_size: 5\nverbosity: 7\n")
    let s : Surroundings := ⟨"/w", "/w/home", [("quill.yaml", "cache_size: ~\nsize: 1\n"), user],
      [("QUILL_VERBOSITY", "debug")]⟩
    let s' : Surroundings := ⟨"/w", "/w/home", [("quill.yaml", "cache_size: ~\n"), user],
      [("QUILL_VERBOSITY", "debug")]⟩
    let projectList : Surroundings := ⟨"/w", "/w/home", [("quill.yaml", "- 1\n"), user],
      [("QUILL_CACHE_SIZE", "1")]⟩
    let userList : Surroundings := ⟨"/w", "/w/home", [("home/.config/quill/config.yaml", "- 1\n")],
      [("QUILL_CACHE_SIZE", "1")]⟩
    (load .standard s none).result =
        .error (.invalid .cacheSize "Input should be a valid integer" .null) ∧
      (load .standard s none).result = (load .standard s' none).result ∧
      (load .standard projectList none).result =
        .error (.notAMapping (projectFile projectList) "list") ∧
      (load .standard userList none).result = .error (.notAMapping (userFile userList) "list") := by
  intro user s s' projectList userList
  have huser : Library.standard.document "cache_size: 5\nverbosity: 7\n" =
      .ok (.mapping [(.string "cache_size", .integer 5), (.string "verbosity", .integer 7)]) := by rfl
  have hlist : Library.standard.document "- 1\n" = .ok (.list [.integer 1]) := by rfl
  have h : Sources .standard s none [(.string "cache_size", .null), (.string "size", .integer 1)]
      [(.string "cache_size", .integer 5), (.string "verbosity", .integer 7)] := by
    have hproject : s.read? (chosenFile s none) = some "cache_size: ~\nsize: 1\n" := by decide +kernel
    exact ⟨.mapping hproject (by rfl), .mapping (by decide +kernel) huser, by simp⟩
  have h' : Sources .standard s' none [(.string "cache_size", .null)]
      [(.string "cache_size", .integer 5), (.string "verbosity", .integer 7)] := by
    have hproject : s'.read? (chosenFile s' none) = some "cache_size: ~\n" := by decide +kernel
    exact ⟨.mapping hproject (by rfl), .mapping (by decide +kernel) huser, by simp⟩
  have hprojectList : Refused .standard projectList (chosenFile projectList none)
      (.notAMapping (projectFile projectList) "list") :=
    .notAMapping (by decide +kernel) hlist (by simp) rfl
  have huserList : Refused .standard userList (userFile userList)
      (.notAMapping (userFile userList) "list") :=
    .notAMapping (by decide +kernel) hlist (by simp) rfl
  have hmissing : Holds .standard userList (chosenFile userList none) [] :=
    .missing (by decide +kernel) (by decide +kernel)
  have hlib := Library.standard_conforms
  refine ⟨?_, ((load_layered hlib).2.1 s s' none none _ _ _ _ h h').2 (fun _ => rfl) rfl rfl,
    ((load_layered hlib).2.2.1 projectList none _ hprojectList).1,
    ((load_layered hlib).2.2.2 userList none [] _ hmissing huserList).1⟩
  have hsilent : ∀ field : Field, field ≠ .verbosity → variableLayer s field = none := by
    intro field hfield
    cases field <;> first | exact absurd rfl hfield | decide +kernel
  refine (((load_layered hlib).1 s none _ _ h).2.1 _).2
    ⟨.cacheSize, _, .null, ⟨?_, ?_⟩, ?_, rfl⟩
  · intro other hother
    obtain rfl : other = .cacheExpressions := by simpa [Field.declared] using hother
    rw [winner, layers, List.findSome?_cons, hsilent _ (by decide)]
    exact ⟨_, .unmentioned⟩
  · rw [winner, layers, List.findSome?_cons, hsilent _ (by decide)]
    exact ⟨.null, rfl, rfl⟩
  · rw [choose, layers, List.foldr_cons, hsilent _ (by decide)]
    rfl

/-- A file with nothing in it is no error, though it is no mapping. And what stands below a mapping that
is not a value can be seen in the error. -/
theorem load_blank_laid :
    let blank : Surroundings := ⟨"/w", "/w/home", [("quill.yaml", "null\n")], []⟩
    let alone : Surroundings := ⟨"/w", "/w/home", [("quill.yaml", "cache_size: \x7ba: 1\x7d\n")], []⟩
    let laid : Surroundings := ⟨"/w", "/w/home", [("quill.yaml", "cache_size: \x7ba: 1\x7d\n"),
      ("home/.config/quill/config.yaml", "cache_size: \x7bb: 2\x7d\n")], []⟩
    (Library.standard.document "null\n" = .ok .null ∧
        (load .standard blank none).result = .ok default) ∧
      (load .standard alone none).result = .error (.invalid .cacheSize "Input should be a valid integer"
        (.mapping [(.string "a", .integer 1)])) ∧
      (load .standard laid none).result = .error (.invalid .cacheSize "Input should be a valid integer"
        (.mapping [(.string "b", .integer 2), (.string "a", .integer 1)])) := by
  intro blank alone laid
  have hnull : Library.standard.document "null\n" = .ok .null := by rfl
  have hproject : Library.standard.document "cache_size: \x7ba: 1\x7d\n" =
      .ok (.mapping [(.string "cache_size", .mapping [(.string "a", .integer 1)])]) := by rfl
  have huser : Library.standard.document "cache_size: \x7bb: 2\x7d\n" =
      .ok (.mapping [(.string "cache_size", .mapping [(.string "b", .integer 2)])]) := by rfl
  have hblank : Sources .standard blank none [] [] :=
    ⟨.blank (by decide +kernel) hnull, .missing (by decide +kernel) (by decide +kernel), by simp⟩
  have halone : Sources .standard alone none
      [(.string "cache_size", .mapping [(.string "a", .integer 1)])] [] :=
    ⟨.mapping (by decide +kernel) hproject, .missing (by decide +kernel) (by decide +kernel), by simp⟩
  have hlaid : Sources .standard laid none
      [(.string "cache_size", .mapping [(.string "a", .integer 1)])]
      [(.string "cache_size", .mapping [(.string "b", .integer 2)])] :=
    ⟨.mapping (by decide +kernel) hproject, .mapping (by decide +kernel) huser, by simp⟩
  have hlib := Library.standard_conforms
  rw [load_of_sources hlib hblank, load_of_sources hlib halone, load_of_sources hlib hlaid]
  exact ⟨⟨hnull, rfl⟩, rfl, rfl⟩

end TemplateExpr.Settings
