import TemplateExpr.Entries

namespace TemplateExpr

/-- Files are named relative to the directory, and the home directory is one inside of it. -/
structure Surroundings where
  directory : String
  home : String
  files : List (String × String)
  environment : List (String × String)

namespace Surroundings

def normalPath (path : String) : String :=
  let absolute := path.startsWith "/"
  let steps := (path.splitOn "/").filter fun s => s ≠ "" && s ≠ "."
  let joined := "/".intercalate steps
  if absolute then "/" ++ joined else if joined.isEmpty then "." else joined

def relative (s : Surroundings) (path : String) : String :=
  let start := s.directory ++ "/"
  if path.startsWith start then (path.drop start.length).toString else path

def join (directory name : String) : String := directory ++ "/" ++ name

def withLineFeeds : List Char → List Char
  | '\r' :: '\n' :: cs => '\n' :: withLineFeeds cs
  | '\r' :: cs => '\n' :: withLineFeeds cs
  | c :: cs => c :: withLineFeeds cs
  | [] => []

def read? (s : Surroundings) (path : String) : Option String :=
  (s.files.lookup (s.relative path)).map fun text => String.ofList (withLineFeeds text.toList)

def isDirectory (s : Surroundings) (path : String) : Bool :=
  path = "." || path = s.directory ||
    s.files.any fun f => f.1.startsWith (s.relative path ++ "/")

def lower (s : String) : String := s.map Char.toLower

def environmentValue? (s : Surroundings) (name : String) : Option String :=
  s.environment.lookup name

/-- The value of a variable whose name is read without regard to case; the last one counts. -/
def foldedValue? (environment : List (String × String)) (name : String) : Option String :=
  (environment.reverse.find? fun v => lower v.1 = lower name).map (·.2)

def setEnvironment (s : Surroundings) (name value : String) : Surroundings :=
  { s with environment := Entries.set name value s.environment }

def write (s : Surroundings) (name text : String) : Surroundings :=
  { s with files := Entries.set name text s.files }

end Surroundings

end TemplateExpr
