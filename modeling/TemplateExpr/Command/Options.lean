import TemplateExpr.Command.Usage
import TemplateExpr.Text.Likeness

namespace TemplateExpr.Command

structure OptionSpec (α : Type) where
  key : α
  names : List String
  takesValue : Bool

structure Given (α : Type) where
  key : α
  value : String

variable {α : Type}

def OptionSpec.find? (specs : List (OptionSpec α)) (name : String) : Option (OptionSpec α) :=
  specs.find? (·.names.contains name)

def longNames (specs : List (OptionSpec α)) : List String :=
  specs.flatMap fun spec => spec.names.filter (·.startsWith "--")

/-- What one argument says: options with their values, and perhaps one last option that takes the
next argument for its value. -/
structure Parsed (α : Type) where
  given : List (Given α)
  pending : Option (α × String)

def parseCluster (specs : List (OptionSpec α)) : List Char → Except UsageProblem (Parsed α)
  | [] => .ok ⟨[], none⟩
  | c :: cs =>
    let name := String.ofList ['-', c]
    match OptionSpec.find? specs name with
    | none => .error (.noSuchOption name [])
    | some spec =>
      if spec.takesValue then
        if cs.isEmpty then .ok ⟨[], some (spec.key, name)⟩
        else .ok ⟨[⟨spec.key, String.ofList cs⟩], none⟩
      else (parseCluster specs cs).map fun p => { p with given := ⟨spec.key, ""⟩ :: p.given }

def splitValue (arg : List Char) : List Char × Option (List Char) :=
  match arg.dropWhile (· ≠ '=') with
  | _ :: value => (arg.takeWhile (· ≠ '='), some value)
  | [] => (arg, none)

def parseLong (specs : List (OptionSpec α)) (arg : List Char) : Except UsageProblem (Parsed α) :=
  let (name, value) := splitValue arg
  let name := String.ofList name
  match OptionSpec.find? specs name with
  | none => .error (.noSuchOption name (Text.closest name (longNames specs)))
  | some spec =>
    match spec.takesValue, value with
    | true, some value => .ok ⟨[⟨spec.key, String.ofList value⟩], none⟩
    | true, none => .ok ⟨[], some (spec.key, name)⟩
    | false, some _ => .error (.valueRefused name)
    | false, none => .ok ⟨[⟨spec.key, ""⟩], none⟩

def parseOption (specs : List (OptionSpec α)) (arg : List Char) : Except UsageProblem (Parsed α) :=
  match arg with
  | '-' :: '-' :: _ => parseLong specs arg
  | _ => parseCluster specs (arg.drop 1)

structure Arguments (α : Type) where
  given : List (Given α)
  others : List String

def isOption (arg : List Char) : Bool := arg.head? = some '-' && decide (1 < arg.length)

/-- Sorts arguments into options and others. Unless options may stand between other arguments, the
first other argument ends them. -/
def parseArguments (specs : List (OptionSpec α)) (between : Bool) :
    List String → Except UsageProblem (Arguments α)
  | [] => .ok ⟨[], []⟩
  | arg :: rest =>
    if arg = "--" then .ok ⟨[], rest⟩
    else if isOption arg.toList then
      match parseOption specs arg.toList with
      | .error problem => .error problem
      | .ok ⟨given, none⟩ =>
        (parseArguments specs between rest).map fun a => { a with given := given ++ a.given }
      | .ok ⟨given, some (key, name)⟩ =>
        match rest with
        | [] => .error (.valueMissing name)
        | value :: rest =>
          (parseArguments specs between rest).map fun a =>
            { a with given := given ++ ⟨key, value⟩ :: a.given }
    else if between then
      (parseArguments specs between rest).map fun a => { a with others := arg :: a.others }
    else .ok ⟨[], arg :: rest⟩

namespace Arguments

variable [DecidableEq α]

def values (a : Arguments α) (key : α) : List String :=
  (a.given.filter (·.key = key)).map (·.value)

def value? (a : Arguments α) (key : α) : Option String := (a.values key).getLast?

def count (a : Arguments α) (key : α) : Nat := (a.values key).length

def keys (a : Arguments α) : List α :=
  a.given.foldl (fun keys g => if g.key ∈ keys then keys else keys ++ [g.key]) []

end Arguments

end TemplateExpr.Command
