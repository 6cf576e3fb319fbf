import CueCheck.Log.Handler
import CueCheck.Log.Record
import CueCheck.Proofs.AuthorizationSchemes
import CueCheck.Proofs.CanonicalTimes
import CueCheck.Proofs.CoherentIssues
import CueCheck.Proofs.EncodingMenus
import CueCheck.Proofs.HiddenOverlaps
import CueCheck.Proofs.KeptConversions
import CueCheck.Proofs.LooseBlocks
import CueCheck.Proofs.NormalForm
import CueCheck.Proofs.OfferedNames
import CueCheck.Proofs.OrderedCues
import CueCheck.Proofs.Preflights
import CueCheck.Proofs.Reloading
import CueCheck.Proofs.Reports
import CueCheck.Proofs.RoundingError
import CueCheck.Proofs.SameText
import CueCheck.Proofs.ShownDurations
import CueCheck.Proofs.SpanRemoval
import CueCheck.Proofs.SpeedLimits
import CueCheck.Proofs.SurroundedKeys
import CueCheck.Proofs.TolerantReading
import CueCheck.Proofs.WideHours
import CueCheck.Service.Lifetime
import CueCheck.Session.Journal
import CueCheck.Settings.Load
