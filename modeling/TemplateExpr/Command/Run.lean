import TemplateExpr.Command.Options
import TemplateExpr.Command.Variables
import TemplateExpr.Layout.Table
import TemplateExpr.Layout.Tree
import TemplateExpr.Log.Line
import TemplateExpr.Report.Diagnostic
import TemplateExpr.Report.Output
import TemplateExpr.Settings.Load

namespace TemplateExpr.Command

def program : String := "quill"

def version : String := "0.1.0"

def unlines (lines : List String) : String := "".intercalate (lines.map (· ++ "\n"))

structure Env where
  library : Library
  surroundings : Surroundings
  now : String
  settings : Settings
  log : Log.Session

inductive MainOption where
  | config
  | verbose
  | quiet
  | version
  | help
deriving DecidableEq

def mainOptions : List (OptionSpec MainOption) :=
  [⟨.config, ["-c", "--config"], true⟩, ⟨.verbose, ["-v", "--verbose"], false⟩,
    ⟨.quiet, ["-q", "--quiet"], false⟩, ⟨.version, ["--version"], false⟩,
    ⟨.help, ["--help"], false⟩]

def mainSynopsis : Synopsis := ⟨program, "[OPTIONS] [COMMAND] [ARGS]..."⟩

inductive EvalOption where
  | var
  | varsFile
  | format
  | help
deriving DecidableEq

def evalOptions : List (OptionSpec EvalOption) :=
  [⟨.var, ["--var"], true⟩, ⟨.varsFile, ["--vars-file"], true⟩,
    ⟨.format, ["-f", "--format"], true⟩, ⟨.help, ["--help"], false⟩]

def evalSynopsis : Synopsis := ⟨program ++ " eval", "[OPTIONS] SOURCE"⟩

inductive HelpOption where
  | help
deriving DecidableEq

def helpOptions : List (OptionSpec HelpOption) := [⟨.help, ["--help"], false⟩]

inductive ShowOption where
  | format
  | help
deriving DecidableEq

def showOptions : List (OptionSpec ShowOption) :=
  [⟨.format, ["-f", "--format"], true⟩, ⟨.help, ["--help"], false⟩]

def configSynopsis : Synopsis := ⟨program ++ " config", "[OPTIONS] COMMAND [ARGS]..."⟩

def showSynopsis : Synopsis := ⟨program ++ " config show", "[OPTIONS]"⟩

def choose (hint : String) (choices : List String) (value : String) : Except UsageProblem Unit :=
  if choices.contains value then .ok ()
  else
    .error (.badValue hint (Text.quoted value ++ " is not one of " ++
      ", ".intercalate (choices.map Text.quoted) ++ "."))

def formatHint : String := "'-f' / '--format'"

def requireFile (s : Surroundings) (hint path : String) : Except UsageProblem Unit :=
  if (s.read? (Surroundings.normalPath path)).isSome then .ok ()
  else if path ≠ "" && s.isDirectory (Surroundings.normalPath path) then
    .error (.badValue hint ("File " ++ Text.quoted path ++ " is a directory."))
  else .error (.badValue hint ("File " ++ Text.quoted path ++ " does not exist."))

def firstProblem : List (Except UsageProblem Unit) → Except UsageProblem Unit
  | [] => .ok ()
  | .ok () :: checks => firstProblem checks
  | .error problem :: _ => .error problem

def oneArgument (name : String) : List String → Except UsageProblem String
  | [] => .error (.argumentMissing name)
  | [arg] => .ok arg
  | _ :: first :: others => .error (.extraArguments first others)

def noArguments : List String → Except UsageProblem Unit
  | [] => .ok ()
  | first :: others => .error (.extraArguments first others)

def failed (i : Incident) : Outcome :=
  match Diagnostic.ofIncident? i with
  | none => .broken i.failure.raised?
  | some d => .failure (d.text ++ "\n")

def evalLogger : String := "quill.cli.commands.eval"

def evalSource (env : Env) (source : String) (format : OutputFormat)
    (entries : List (String × Datum)) : Outcome :=
  let result : Except Incident Value :=
    match Context.ofEntries entries with
    | .error fault => .error (.ofFault fault)
    | .ok c => evaluateSource c source
  match result with
  | .error incident =>
    let incident := incident.inSource source
    match Diagnostic.ofIncident? incident with
    | none => failed incident
    | some d =>
      let event : Log.Event := ⟨.debug, "expression_failed",
        [("source", .string source), ("error", .string d.message)]⟩
      (failed incident).afterLog (env.log.lines env.now evalLogger event)
  | .ok v =>
    let event : Log.Event := ⟨.debug, "expression_evaluated",
      [("source", .string source), ("kind", .string v.kind.name)]⟩
    (Outcome.success (formatValue v format ++ "\n")).afterLog
      (env.log.lines env.now evalLogger event)

def mergeVariables (file : List (Datum × Datum)) (given : List (String × Datum)) :
    List (String × Datum) :=
  (given.foldl (fun entries v => Datum.set (.string v.1) v.2 entries) file).map fun e =>
    (e.1.shown, e.2)

def evalVariables (env : Env) (a : Arguments EvalOption) (source : String) : Outcome :=
  let format := if a.value? .format = some "json" then .json else .text
  let file : Except VariablesError (List (Datum × Datum)) :=
    match a.value? .varsFile with
    | none => .ok []
    | some path =>
      let path := Surroundings.normalPath path
      loadVariables env.library path ((env.surroundings.read? path).getD "")
  match file with
  | .error (.raised r) => .broken (some r)
  | .error e => .failure ("Error: " ++ e.message ++ "\n")
  | .ok file =>
    match parseVariables env.library (a.values .var) with
    | .error (.raised r) => .broken (some r)
    | .error e => .misuse evalSynopsis (.badValue "--var" e.message)
    | .ok given => evalSource env source format (mergeVariables file given)

def evalCheck (env : Env) (a : Arguments EvalOption) (key : EvalOption) : Except UsageProblem Unit :=
  let value := (a.value? key).getD ""
  match key with
  | .format => choose formatHint ["text", "json"] value
  | .varsFile => requireFile env.surroundings "'--vars-file'" value
  | _ => .ok ()

def runEval (env : Env) (args : List String) : Outcome :=
  match parseArguments evalOptions true args with
  | .error problem => .misuse evalSynopsis problem
  | .ok a =>
    if a.count .help ≠ 0 then .success evalSynopsis.text
    else
      match firstProblem (a.keys.map (evalCheck env a)) with
      | .error problem => .misuse evalSynopsis problem
      | .ok () =>
        match oneArgument "SOURCE" a.others with
        | .error problem => .misuse evalSynopsis problem
        | .ok source => evalVariables env a source

def runInspect (name : String) (describe : String → Except Incident (List String))
    (args : List String) : Outcome :=
  let synopsis : Synopsis := ⟨program ++ " " ++ name, "[OPTIONS] SOURCE"⟩
  match parseArguments helpOptions true args with
  | .error problem => .misuse synopsis problem
  | .ok a =>
    if a.count .help ≠ 0 then .success synopsis.text
    else
      match oneArgument "SOURCE" a.others with
      | .error problem => .misuse synopsis problem
      | .ok source =>
        match describe source with
        | .error incident => failed (incident.inSource source)
        | .ok lines => .drawing (unlines lines)

def treeLines (source : String) : Except Incident (List String) :=
  (parseSource source).map fun e => e.outlineTree.lines

def tokenTable (tokens : List Token) : Layout.Table :=
  ⟨[⟨"Kind", .left⟩, ⟨"Text", .left⟩, ⟨"Line", .right⟩, ⟨"Column", .right⟩],
    tokens.map fun t =>
      [t.kind.label, t.text, t.position.line.repr, t.position.column.repr]⟩

def tokenLines (source : String) : Except Incident (List String) :=
  match tokenize source with
  | .error e => .error ⟨.lexical e, some source⟩
  | .ok tokens => .ok (tokenTable tokens).lines

def settingsJson (s : Settings) : String :=
  Json.pretty (.object [(Settings.Field.cacheExpressions.name, .boolean s.cacheExpressions),
    (Settings.Field.cacheSize.name, .integer s.cacheSize),
    (Settings.Field.verbosity.name, .string s.verbosity)])

def settingsYaml (s : Settings) : String :=
  unlines
    [Settings.Field.cacheExpressions.name ++ ": " ++ (if s.cacheExpressions then "true" else "false"),
      Settings.Field.cacheSize.name ++ ": " ++ s.cacheSize.repr,
      Settings.Field.verbosity.name ++ ": " ++ s.verbosity]

def runShow (env : Env) (args : List String) : Outcome :=
  match parseArguments showOptions true args with
  | .error problem => .misuse showSynopsis problem
  | .ok a =>
    if a.count .help ≠ 0 then .success showSynopsis.text
    else
      let format := (a.value? .format).getD "yaml"
      match choose formatHint ["yaml", "json"] format with
      | .error problem => .misuse showSynopsis problem
      | .ok () =>
        match noArguments a.others with
        | .error problem => .misuse showSynopsis problem
        | .ok () =>
          let write := if format = "json" then settingsJson else settingsYaml
          .success (write env.settings ++ "\n")

def configCommands : List String := ["show"]

def runConfig (env : Env) (args : List String) : Outcome :=
  match parseArguments helpOptions false args with
  | .error problem => .misuse configSynopsis problem
  | .ok a =>
    if a.count .help ≠ 0 then .success configSynopsis.text
    else
      match a.others with
      | [] =>
        if args.isEmpty then ⟨2, "", configSynopsis.text, none⟩
        else .misuse configSynopsis .commandMissing
      | name :: rest =>
        if name = "show" then runShow env rest
        else
          match parseArguments helpOptions false (name :: rest) with
          | .error problem => .misuse configSynopsis problem
          | .ok _ => .misuse configSynopsis (.noSuchCommand name (Text.closest name configCommands))

def mainCommands : List String := ["config", "eval", "parse", "tokens"]

def command? : String → Option (Env → List String → Outcome)
  | "eval" => some runEval
  | "parse" => some fun _ => runInspect "parse" treeLines
  | "tokens" => some fun _ => runInspect "tokens" tokenLines
  | "config" => some runConfig
  | _ => none

def settingsFailure (e : Settings.Error) : Outcome :=
  let field := match e.field? with
    | some field => ["Field: " ++ field.name]
    | none => []
  let value := match e.value with
    | .null => []
    | d => ["Value: " ++ d.shown]
  if e.isReported then .failure (Diagnostic.paragraph e.message (field ++ value) none ++ "\n")
  else .broken e.raised?

/-- To be quiet wins over to be verbose, and either over the settings. -/
def threshold (a : Arguments MainOption) (settings : Settings) : Int :=
  let level : Log.Level :=
    if a.count .quiet ≠ 0 then .error
    else
      match a.count .verbose with
      | 0 => (Settings.verbosities.lookup settings.verbosity).getD .warning
      | 1 => .info
      | _ => .debug
  level.number

def withSettings (lib : Library) (s : Surroundings) (now : String) (a : Arguments MainOption)
    (next : Env → Outcome) : Outcome :=
  let path := (a.value? .config).filter (· ≠ "")
  match (Settings.load lib s path).result with
  | .error e => settingsFailure e
  | .ok settings =>
    let setup := Log.Setup.ofSurroundings s false (some (threshold a settings))
    next ⟨lib, s, now, settings, Log.Session.start.configure setup⟩

def answeredAtOnce (a : Arguments MainOption) : Option Outcome :=
  match a.keys.find? fun k => k = .version || k = .help with
  | some .version => some (.success (program ++ ", version " ++ version ++ "\n"))
  | some _ => some (.success mainSynopsis.text)
  | none => none

/-- A name that is no command may still be an option, behind the dashes that end them. -/
def unknownCommand (name : String) (rest : List String) : Outcome :=
  match parseArguments mainOptions false (name :: rest) with
  | .error problem => .misuse mainSynopsis problem
  | .ok a =>
    (answeredAtOnce a).getD
      (.misuse mainSynopsis (.noSuchCommand name (Text.closest name mainCommands)))

def run (lib : Library) (s : Surroundings) (now : String) (args : List String) : Outcome :=
  match parseArguments mainOptions false args with
  | .error problem => .misuse mainSynopsis problem
  | .ok a =>
    match answeredAtOnce a with
    | some outcome => outcome
    | none =>
      match a.others with
      | [] => withSettings lib s now a fun _ => .success mainSynopsis.text
      | name :: rest =>
        match command? name with
        | none => unknownCommand name rest
        | some command => withSettings lib s now a fun env => command env rest

def namedFiles (args : List String) : List String :=
  match parseArguments mainOptions false args with
  | .error _ => []
  | .ok a =>
    let ofCommand :=
      match a.others with
      | "eval" :: rest =>
        match parseArguments evalOptions true rest with
        | .error _ => []
        | .ok b => b.values .varsFile
      | _ => []
    a.values .config ++ ofCommand

end TemplateExpr.Command
