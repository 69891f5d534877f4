import Std.Time.Format
import TemplateExpr.Command.Run
import TemplateExpr.Standard.Library

namespace TemplateExpr.Command

def filesAt (s : Surroundings) (path : String) : IO (List (String × String)) := do
  let name := s.relative (Surroundings.normalPath path)
  try
    let text ← IO.FS.readFile path
    pure [(name, text)]
  catch e =>
    match e with
    | .inappropriateType .. => pure [(name ++ "/", "")]
    | _ => pure []

def splitAssignment (entry : String) : String × String :=
  let cs := entry.toList
  (String.ofList (cs.takeWhile (· ≠ '=')), String.ofList ((cs.dropWhile (· ≠ '=')).drop 1))

def environment : IO (List (String × String)) := do
  let text ← IO.FS.readFile "/proc/self/environ"
  pure (((text.splitOn "\x00").filter (· ≠ "")).map splitAssignment)

def surroundings (args : List String) : IO Surroundings := do
  let directory := toString (← IO.currentDir)
  let home := (← IO.getEnv "HOME").getD directory
  let s : Surroundings := ⟨directory, home, [], ← environment⟩
  let paths := [Settings.projectFile s, Settings.userFile s] ++ (namedFiles args).filter (· ≠ "")
  let files ← paths.mapM (filesAt s)
  pure { s with files := files.flatten }

def now : IO String := do
  let moment := Std.Time.DateTime.ofTimestamp (← Std.Time.Timestamp.now) .UTC
  pure (moment.format "uuuu-MM-dd'T'HH:mm:ss.SSSSSS'Z'")

end TemplateExpr.Command

open TemplateExpr in
def main (args : List String) : IO UInt32 := do
  let outcome := Command.run .standard (← Command.surroundings args) (← Command.now) args
  (← IO.getStdout).putStr outcome.stdout
  (← IO.getStderr).putStr outcome.stderr
  if let some r := outcome.exception then
    (← IO.getStderr).putStr (r.kind ++ ": " ++ r.message ++ "\n")
  pure outcome.exit.toUInt32
