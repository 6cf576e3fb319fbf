import CueCheck.Settings.EnvFile
import CueCheck.Settings.Value

/-!
Taking the settings from environment variables and from a file of such variables.
-/

namespace CueCheck.Settings

/-- Where the value of a setting is given. -/
inductive Origin where
  | environment
  | envFile
deriving DecidableEq, Repr

/-- The name of an origin in answers. -/
def Origin.name : Origin → String
  | environment => "EnvSettingsSource"
  | envFile => "DotEnvSettingsSource"

/-- Why settings could not be taken. -/
inductive LoadFailure where
  /-- The value of a list setting is no value of the data format. -/
  | unreadableList (setting : String) (origin : Origin)
  /-- Values are wrong. -/
  | invalid (problems : List Problem)
deriving DecidableEq, Repr

/-- The wording for a list setting that cannot be read. -/
def unreadableListMessage (setting : String) (origin : Origin) : String :=
  s!"error parsing value for field \"{setting}\" from source \"{origin.name}\""

/-- The value given for a setting, before it is checked. -/
inductive Given where
  | plain (value : Text)
  | list (value : Json)

/-- The value of a variable whatever the case of its name; the last one counts. -/
def valueOf? (name : String) (bindings : List EnvFile.Binding) : Option Text :=
  ((bindings.reverse.find? fun b => String.ofList (b.1.map Char.toLower) == name).map (·.2)).join

/-- The value given for a setting at one origin. -/
def given? (origin : Origin) (bindings : List EnvFile.Binding) (setting : Setting) :
    Except LoadFailure (Option Given) :=
  match setting, valueOf? setting.name bindings with
  | _, none => .ok none
  | .texts name .., some t =>
    match Json.parse? t with
    | some value => .ok (some (.list value))
    | none => .error (.unreadableList name origin)
  | _, some t => .ok (some (.plain t))

/-- Names one problem with a setting. -/
def problem (name : String) (kind : ProblemKind) : List Problem := [⟨kind, [.field name]⟩]

/-- Checks a given value and changes the setting to it. -/
def Setting.assign (s : Settings) : Setting → Given → Except (List Problem) Settings
  | .text _ _ set, .plain t => .ok (set t s)
  | .optionalText _ _ set, .plain t => .ok (set (some t) s)
  | .int name _ set, .plain t => ((readInt t).mapError (problem name)).map (set · s)
  | .number name _ set, .plain t => ((readNumber t).mapError (problem name)).map (set · s)
  | .bool name _ set, .plain t => ((readBool t).mapError (problem name)).map (set · s)
  | .texts name _ set, .list value => (readTexts name value).map (set · s)
  | _, _ => .ok s

/-- Assigns all given values in order; the problems of all of them are collected. -/
def assignAll (s : Settings) : List (Setting × Option Given) → Settings × List Problem
  | [] => (s, [])
  | (_, none) :: rest => assignAll s rest
  | (setting, some given) :: rest =>
    match setting.assign s given with
    | .ok s => assignAll s rest
    | .error problems =>
      let (s, later) := assignAll s rest
      (s, problems ++ later)

/-- The settings that environment variables give, with those of a file behind them. -/
def load (environment : List (Text × Text)) (envFile : Option Text) :
    Except LoadFailure Settings := do
  let outside := environment.map fun (name, value) => (name, some value)
  let inFile := (envFile.map (EnvFile.parse environment)).getD []
  let first ← all.mapM (given? .environment outside)
  let second ← all.mapM (given? .envFile inFile)
  let givens := (first.zip second).map fun (a, b) => a.or b
  match assignAll {} (all.zip givens) with
  | (s, []) => return s
  | (_, problems) => .error (.invalid problems)

end CueCheck.Settings
