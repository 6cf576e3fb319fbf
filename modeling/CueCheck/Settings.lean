import CueCheck.Charset
import CueCheck.Rules

/-!
The settings of the service.
-/

namespace CueCheck

/-- The settings of the service, with their defaults. -/
structure Settings where
  appName : Text := "Subtitle QC Service".toList
  appVersion : Text := "0.1.0".toList
  appDescription : Text := "Validate, repair and re-export SRT subtitle files".toList
  environment : Text := "development".toList
  host : Text := "0.0.0.0".toList
  portNumber : Int := 8000
  allowedHosts : List Text := [['*']]
  apiKey : Option Text := none
  corsEnabled : Bool := true
  corsOrigins : List Text := [['*']]
  corsAllowCredentials : Bool := true
  corsAllowMethods : List Text := [['*']]
  corsAllowHeaders : List Text := [['*']]
  defaultEncoding : Text := "utf-8".toList
  supportedEncodings : List Text :=
    ["utf-8".toList, "windows-1256".toList, "iso-8859-1".toList, "windows-1252".toList,
      "utf-16".toList]
  maxFileSize : Int := 5242880
  rules : Rules := {}
  logLevel : Text := "INFO".toList
  enableLogRedaction : Bool := true
  logDir : Text := "./logs".toList
  logFile : Text := "subtitle-qc.log".toList
  logMaxBytes : Int := 10485760
  logBackupCount : Int := 5
deriving DecidableEq, Repr

namespace Settings

/-- The encodings on offer and the default one. -/
def menu (s : Settings) : EncodingMenu := ⟨s.supportedEncodings, s.defaultEncoding⟩

/-- The key that requests must carry, unless there is none or an empty one. -/
def requiredKey (s : Settings) : Option Text := s.apiKey.filter (!·.isEmpty)

/-- A named setting: how to look it up in the settings and how to change it. -/
inductive Setting where
  | text (name : String) (get : Settings → Text) (set : Text → Settings → Settings)
  | optionalText (name : String) (get : Settings → Option Text)
      (set : Option Text → Settings → Settings)
  | int (name : String) (get : Settings → Int) (set : Int → Settings → Settings)
  | number (name : String) (get : Settings → Binary64) (set : Binary64 → Settings → Settings)
  | bool (name : String) (get : Settings → Bool) (set : Bool → Settings → Settings)
  | texts (name : String) (get : Settings → List Text) (set : List Text → Settings → Settings)

def Setting.name : Setting → String
  | text name .. | optionalText name .. | int name .. | number name .. | bool name ..
  | texts name .. => name

/-- Changes the rules among the settings. -/
def withRules (s : Settings) (change : Rules → Rules) : Settings :=
  { s with rules := change s.rules }

/-- All settings in their order. -/
def all : List Setting := [
  .text "app_name" (·.appName) fun x s => { s with appName := x },
  .text "app_version" (·.appVersion) fun x s => { s with appVersion := x },
  .text "app_description" (·.appDescription) fun x s => { s with appDescription := x },
  .text "environment" (·.environment) fun x s => { s with environment := x },
  .text "host" (·.host) fun x s => { s with host := x },
  .int "port" (·.portNumber) fun x s => { s with portNumber := x },
  .texts "allowed_hosts" (·.allowedHosts) fun x s => { s with allowedHosts := x },
  .optionalText "api_key" (·.apiKey) fun x s => { s with apiKey := x },
  .bool "cors_enabled" (·.corsEnabled) fun x s => { s with corsEnabled := x },
  .texts "cors_origins" (·.corsOrigins) fun x s => { s with corsOrigins := x },
  .bool "cors_allow_credentials" (·.corsAllowCredentials)
    fun x s => { s with corsAllowCredentials := x },
  .texts "cors_allow_methods" (·.corsAllowMethods) fun x s => { s with corsAllowMethods := x },
  .texts "cors_allow_headers" (·.corsAllowHeaders) fun x s => { s with corsAllowHeaders := x },
  .text "default_encoding" (·.defaultEncoding) fun x s => { s with defaultEncoding := x },
  .texts "supported_encodings" (·.supportedEncodings)
    fun x s => { s with supportedEncodings := x },
  .int "max_file_size" (·.maxFileSize) fun x s => { s with maxFileSize := x },
  .int "min_duration_ms" (·.rules.minDuration)
    fun x s => s.withRules fun r => { r with minDuration := x },
  .int "max_duration_ms" (·.rules.maxDuration)
    fun x s => s.withRules fun r => { r with maxDuration := x },
  .int "max_cpl" (·.rules.maxLineLength)
    fun x s => s.withRules fun r => { r with maxLineLength := x },
  .number "max_cps" (·.rules.maxSpeed) fun x s => s.withRules fun r => { r with maxSpeed := x },
  .int "max_lines" (·.rules.maxLines) fun x s => s.withRules fun r => { r with maxLines := x },
  .int "overlap_gap_ms" (·.rules.overlapGap)
    fun x s => s.withRules fun r => { r with overlapGap := x },
  .text "log_level" (·.logLevel) fun x s => { s with logLevel := x },
  .bool "enable_log_redaction" (·.enableLogRedaction)
    fun x s => { s with enableLogRedaction := x },
  .text "log_dir" (·.logDir) fun x s => { s with logDir := x },
  .text "log_file" (·.logFile) fun x s => { s with logFile := x },
  .int "log_max_bytes" (·.logMaxBytes) fun x s => { s with logMaxBytes := x },
  .int "log_backup_count" (·.logBackupCount) fun x s => { s with logBackupCount := x }]

end Settings

end CueCheck
