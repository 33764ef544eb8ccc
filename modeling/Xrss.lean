import Xrss.Calendar
import Xrss.Datetime
import Xrss.Datetime.EpochSeconds
import Xrss.Datetime.Fields
import Xrss.Datetime.Timestamp
import Xrss.Main.Aborts
import Xrss.Main.AtMostOnce
import Xrss.Main.BuildDates
import Xrss.Main.CacheDir
import Xrss.Main.CacheMemory
import Xrss.Main.CacheName
import Xrss.Main.Difference
import Xrss.Main.Display
import Xrss.Main.ExactlyOnce
import Xrss.Main.FailedRun
import Xrss.Main.Merge
import Xrss.Main.MergeSpec
import Xrss.Main.Ownership
import Xrss.Main.Recovery
import Xrss.Main.Reservation
import Xrss.Main.Run
import Xrss.Main.RunSpec
import Xrss.Main.SelfMerge
import Xrss.Main.Session
import Xrss.Main.TitleUnwrap
import Xrss.Main.Unshown
import Xrss.Rss.CacheImage
import Xrss.Rss.Client
import Xrss.Rss.Nesting
import Xrss.Rss.ParseInvariant
import Xrss.Rss.Required
import Xrss.Rss.SinkLifetime
import Xrss.Rss.StageLevel
import Xrss.Rss.Stream
import Xrss.Rss.TagStack
import Xrss.Rss.UnknownElement
import Xrss.Transition.History
import Xrss.Transition.Projection
import Xrss.Zig.ArrayList
import Xrss.Zig.Base64
import Xrss.Zig.Bytes
import Xrss.Zig.Decimal
import Xrss.Zig.Decoder
import Xrss.Zig.EnumArray
import Xrss.Zig.Integer
import Xrss.Zig.Lines
import Xrss.Zig.Outcome
import Xrss.Zig.Procedure
import Xrss.Zig.Trim
import Xrss.Rss.Deferral
import Xrss.Rss.ParseRounds
import Xrss.Rss.AttributeLists
import Xrss.Rss.DeclaredAttributes
import Xrss.Rss.StartTags
