import TemplateExpr.Proofs.Settings.Winner

namespace TemplateExpr.Settings

variable {lib : Library} {s : Surroundings} {path : Option String}

theorem cacheSize_pos_of_merge {layers : List Layer} {settings : Settings} (hlib : lib.Conforms)
    (h : merge lib layers = .ok settings) : 0 < settings.cacheSize := by
  have htakes := (merge_takes_iff hlib).1 h .cacheSize
  change 0 < Field.content settings .cacheSize
  generalize Field.content settings .cacheSize = size, winner layers .cacheSize = said at htakes ⊢
  cases htakes with
  | unmentioned => decide
  | read hread => exact (hlib.integer_bounds hread).1

theorem cacheSize_pos_of_load {settings : Settings} (hlib : lib.Conforms)
    (h : (load lib s path).result = .ok settings) : 0 < settings.cacheSize := by
  unfold load at h
  dsimp only at h
  split at h
  · cases h
  · split at h
    · cases h
    · split at h
      · exact cacheSize_pos_of_merge hlib h
      · cases h

theorem name_of_mem_fileEntries {file : String} {read : List (Datum × Datum) × List Log.Event}
    {event : Log.Event} (h : fileEntries lib s file = .ok read) (he : event ∈ read.2) :
    event.name = "config_file_empty" := by
  unfold fileEntries at h
  repeat' split at h
  all_goals cases h
  case h_3.refl => rw [List.mem_singleton.1 he, emptyEvent]
  all_goals cases he

theorem name_of_mem_missing {event : Log.Event} {path : String} {found : Bool}
    (h : event ∈ if found then [] else [missingEvent path]) :
    event.name = "project_config_missing" := by
  cases found with
  | true => cases h
  | false => rw [List.mem_singleton.1 h, missingEvent]

theorem name_of_mem_load {event : Log.Event} (h : event ∈ (load lib s path).events) :
    event.name = "project_config_missing" ∨ event.name = "config_file_empty" := by
  unfold load at h
  dsimp only at h
  split at h
  · exact .inl (name_of_mem_missing h)
  · rename_i hproject
    split at h
    · rcases List.mem_append.1 h with h | h
      · exact .inl (name_of_mem_missing h)
      · exact .inr (name_of_mem_fileEntries hproject h)
    · rename_i huser
      rcases List.mem_append.1 h with h | h
      · rcases List.mem_append.1 h with h | h
        · exact .inl (name_of_mem_missing h)
        · exact .inr (name_of_mem_fileEntries hproject h)
      · exact .inr (name_of_mem_fileEntries huser h)

end TemplateExpr.Settings
