import CueCheck.Log.Line
import CueCheck.Settings

/-!
What the service writes to the log when it starts and when it stops.
-/

namespace CueCheck.Service

def startLine (settings : Settings) : LogLine :=
  let encodings := ", ".intercalate (settings.supportedEncodings.map String.ofList)
  ⟨.info, "app.main",
    s!"Application startup: {String.ofList settings.appName} {String.ofList settings.appVersion} " ++
      s!"(encodings: {encodings})"⟩

def stopLine : LogLine := ⟨.info, "app.main", "Application shutdown complete"⟩

end CueCheck.Service
