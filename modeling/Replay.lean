import Replay.Access
import Replay.Action
import Replay.Arguments
import Replay.Artifact
import Replay.Base64
import Replay.Bitmap
import Replay.Bits
import Replay.Browser
import Replay.Bytes
import Replay.Canvas
import Replay.Capture
import Replay.Cased
import Replay.Checksum
import Replay.Clock
import Replay.CommandLine
import Replay.Decimal
import Replay.Direction
import Replay.Double
import Replay.Driver
import Replay.Encoding
import Replay.Event
import Replay.EventLog
import Replay.Execution
import Replay.Failure
import Replay.FileSystem
import Replay.Fits
import Replay.Flic
import Replay.Game
import Replay.Gif
import Replay.Host
import Replay.Hostname
import Replay.Icon
import Replay.ImageFault
import Replay.Inflate
import Replay.Integer
import Replay.InternetAddress
import Replay.Iptc
import Replay.Jpeg
import Replay.Jpeg2000
import Replay.Json
import Replay.JsonReader
import Replay.JsonText
import Replay.Label
import Replay.LabelledImage
import Replay.Limiter
import Replay.Lowercase
import Replay.Machine
import Replay.Main
import Replay.Metafile
import Replay.Netpbm
import Replay.Number
import Replay.Options
import Replay.Paintbrush
import Replay.Path
import Replay.PathPattern
import Replay.Picture
import Replay.Png
import Replay.PngHeader
import Replay.Postscript
import Replay.PrefixCode
import Replay.Printable
import Replay.Psd
import Replay.Punycode
import Replay.Raster
import Replay.RealReader
import Replay.Reply
import Replay.Report
import Replay.Request
import Replay.Route
import Replay.Run
import Replay.Script
import Replay.ScriptReader
import Replay.ScriptSource
import Replay.Service
import Replay.ServiceSettings
import Replay.Settings
import Replay.Spider
import Replay.Task
import Replay.Text
import Replay.TextPicture
import Replay.Texture
import Replay.Tiff
import Replay.Tile
import Replay.Timestamp
import Replay.TimestampReader
import Replay.Uri
import Replay.Utf8
import Replay.ValueText
import Replay.Webp
import Replay.Proofs.NumberValue
import Replay.Proofs.ScriptGrammar
import Replay.Proofs.ScriptPayload
import Replay.Proofs.HostCalls
import Replay.Proofs.ReplayTrace
import Replay.Proofs.CalendarDate
import Replay.Proofs.Encodable
import Replay.Proofs.MomentText
import Replay.Proofs.FileNames
import Replay.Proofs.ReplayInvariant
import Replay.Proofs.ReportText
import Replay.Proofs.SessionInvariant
import Replay.Proofs.RunOutcome
import Replay.Proofs.LimiterHistory
import Replay.Proofs.LogTransparency
import Replay.Proofs.KeyedAccess
import Replay.Proofs.BrowserVisit
import Replay.Proofs.Base64Canonical
import Replay.Proofs.CaptureDecoding
import Replay.Proofs.DriverFollows
import Replay.Proofs.CallLog
import Replay.Proofs.RunCalls
import Replay.Proofs.RunDirectory
import Replay.Proofs.ReplaySuccess
import Replay.Proofs.VisibleNames
import Replay.Proofs.CaptureFiles
import Replay.Proofs.RunSuccess
import Replay.Proofs.DirectoryContents
import Replay.Proofs.ReportFiles
import Replay.Proofs.RunArtifacts
import Replay.Proofs.RunFrame
import Replay.Proofs.RunIsolation
import Replay.Proofs.TileRun
import Replay.Proofs.TileImage
import Replay.Proofs.EventCounts
import Replay.Proofs.RunCounts
import Replay.Proofs.Rounding
import Replay.Proofs.PointerEvents
import Replay.Proofs.LimiterQuota
import Replay.Proofs.GuardedViews
import Replay.Proofs.RouteSearch
import Replay.Proofs.CountedEndpoints
import Replay.Proofs.ServiceVisits
import Replay.Proofs.LimiterRace
import Replay.Proofs.LimiterRetry
import Replay.Proofs.ServiceQuotas
import Replay.Proofs.ScriptFaults
import Replay.Proofs.ScriptVariants
import Replay.Proofs.LimiterWait
import Replay.Proofs.LogLines
import Replay.Proofs.LogReading
import Replay.Proofs.LimiterIsolation
import Replay.Proofs.SavedImages
import Replay.Proofs.LabelNames
import Replay.Proofs.CaptureFailures
import Replay.Proofs.FrameAccounting
import Replay.Proofs.JsonSize
import Replay.Proofs.SourceFailures
import Replay.Proofs.ExclusiveOptions
import Replay.Proofs.SourceIsolation
import Replay.Proofs.SettingsFailures
import Replay.Proofs.GameIds
import Replay.Proofs.ReportTable
import Replay.Proofs.ReportTitle
import Replay.Proofs.ScriptTotals
import Replay.Proofs.GameVersions
import Replay.Proofs.TextArrays
import Replay.Proofs.ServiceKeys
