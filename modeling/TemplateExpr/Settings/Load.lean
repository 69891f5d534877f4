import TemplateExpr.Library
import TemplateExpr.Settings.Basic

namespace TemplateExpr.Settings

abbrev Layer := Field → Option Datum

def environmentLayer (lib : Library) (s : Surroundings) : Layer := fun field =>
  (lib.fromEnvironment s.environment ("QUILL_" ++ field.name)).map .string

/-- A file mentions a field by exactly its name, also when it gives it no value. -/
def mappingLayer (entries : List (Datum × Datum)) : Layer := fun field =>
  Datum.get? (.string field.name) entries

def projectFile (s : Surroundings) : String := s.directory ++ "/quill.yaml"

def userFile (s : Surroundings) : String := s.home ++ "/.config/quill/config.yaml"

def missingEvent (path : String) : Log.Event :=
  ⟨.debug, "project_config_missing", [("path", .string path)]⟩

def emptyEvent (path : String) : Log.Event :=
  ⟨.warning, "config_file_empty", [("path", .string path)]⟩

def directoryRaised (path : String) : Raised :=
  ⟨"IsADirectoryError", "[Errno 21] Is a directory: " ++ Text.quoted path⟩

def fileEntries (lib : Library) (s : Surroundings) (path : String) :
    Except Error (List (Datum × Datum) × List Log.Event) :=
  match s.read? path with
  | none => if s.isDirectory path then .error (.raised (directoryRaised path)) else .ok ([], [])
  | some text =>
    match lib.document text with
    | .error .malformed => .error (.malformed path)
    | .error (.raised r) => .error (.raised r)
    | .ok .null => .ok ([], [emptyEvent path])
    | .ok (.mapping entries) => .ok (entries, [])
    | .ok other => .error (.notAMapping path other.typeName)

def isText : Datum → Bool
  | .string _ => true
  | _ => false

/-- The first layer that mentions a field decides, laid over what the layers below say of it. -/
def choose (lib : Library) (layers : List Layer) (field : Field) : Option Datum :=
  layers.foldr (fun layer below => Option.merge lib.overlay (layer field) below) none

def readCacheExpressions (lib : Library) : Datum → Except String Bool := lib.boolean

def readCacheSize (lib : Library) : Datum → Except String Nat := lib.integer 1 maxCacheSize

def readVerbosity (lib : Library) : Datum → Except String String :=
  lib.choice (verbosities.map (·.1))

def resolve {α : Type} (lib : Library) (layers : List Layer) (field : Field)
    (read : Datum → Except String α) (default : α) : Except Error α :=
  match choose lib layers field with
  | none => .ok default
  | some d => (read d).mapError fun reason => .invalid field reason d

def merge (lib : Library) (layers : List Layer) : Except Error Settings :=
  match resolve lib layers .cacheExpressions (readCacheExpressions lib) default.cacheExpressions with
  | .error e => .error e
  | .ok cacheExpressions =>
    match resolve lib layers .cacheSize (readCacheSize lib) default.cacheSize with
    | .error e => .error e
    | .ok cacheSize =>
      (resolve lib layers .verbosity (readVerbosity lib) default.verbosity).map fun verbosity =>
        ⟨cacheExpressions, cacheSize, verbosity⟩

structure Loaded where
  result : Except Error Settings
  events : List Log.Event

/-- Both files have to be mappings from texts, whatever they hold, also where the environment says all
there is to say. -/
def load (lib : Library) (s : Surroundings) (path : Option String) : Loaded :=
  let path := (path.map Surroundings.normalPath).getD (projectFile s)
  let missing :=
    if (s.read? path).isSome || s.isDirectory path then [] else [missingEvent path]
  match fileEntries lib s path with
  | .error e => ⟨.error e, missing⟩
  | .ok (project, projectEvents) =>
    match fileEntries lib s (userFile s) with
    | .error e => ⟨.error e, missing ++ projectEvents⟩
    | .ok (user, userEvents) =>
      let result :=
        if (project ++ user).all (fun e => isText e.1) then
          merge lib [environmentLayer lib s, mappingLayer project, mappingLayer user]
        else .error (.raised ⟨"TypeError", "keywords must be strings"⟩)
      ⟨result, missing ++ projectEvents ++ userEvents⟩

end TemplateExpr.Settings
