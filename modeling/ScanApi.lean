import ScanApi.Dict
import ScanApi.Prog
import ScanApi.Raising
import ScanApi.Replay
import ScanApi.Interleaving
import ScanApi.EventLoop
import ScanApi.Diff
import ScanApi.VisibleChanges
import ScanApi.Yaml
import ScanApi.Database
import ScanApi.Repository
import ScanApi.SnapshotImport
import ScanApi.ImportEffect
import ScanApi.Stored
import ScanApi.ImportStep
import ScanApi.ReadBack
import ScanApi.ImportRuns
import ScanApi.PublicHistory
import ScanApi.Reimport
import ScanApi.PublicQueries
import ScanApi.Noninterference
import ScanApi.Python
import ScanApi.Refs
import ScanApi.Fields
import ScanApi.Examples
import ScanApi.OpenApi
import ScanApi.Declared
import ScanApi.Requests
import ScanApi.FieldCoverage
import ScanApi.FieldNames
import ScanApi.RefTransparency
import ScanApi.EntryOrder
import ScanApi.Reordering
import ScanApi.ReorderedSnapshots
import ScanApi.StorableMethods
import ScanApi.HostSafety
import ScanApi.NetworkRuns
import ScanApi.Unicode
import ScanApi.Sessions
import ScanApi.EventLog
import ScanApi.Settings
import ScanApi.SettingsHistory
import ScanApi.SettingsRaces
import ScanApi.NotifyFormat
import ScanApi.DigestHtml
import ScanApi.DigestFits
import ScanApi.ParserRunner
import ScanApi.RunEffect
import ScanApi.RunSafety
import ScanApi.RunAlerts
import ScanApi.Telegram
import ScanApi.Broadcast
import ScanApi.ProxyExpiry
import ScanApi.ExpiryReminders
import ScanApi.Logins
import ScanApi.PasswordChange
import ScanApi.BenchmarkMatrix
import ScanApi.Machine
import ScanApi.BenchmarkPage
import ScanApi.Pages
import ScanApi.ChangesPaging
import ScanApi.LogConsole
import ScanApi.Regex
import ScanApi.AlfaMethods
import ScanApi.AlfaReleaseNotes
import ScanApi.Partition
import ScanApi.IpAddress
import ScanApi.UrlSplit
import ScanApi.ProxyUrls
import ScanApi.Scrub
import ScanApi.ProxyPasswords
import ScanApi.SharedObject
import ScanApi.ProxyRotation
import ScanApi.AlfaArticles
import ScanApi.ServiceChanges
import ScanApi.DigestNames
import ScanApi.SingleMessages
import ScanApi.LocalHosts
import ScanApi.VisibleCounts
import ScanApi.StoreRuns
import ScanApi.StoredExamples
import ScanApi.RefCycles
import ScanApi.BadReferences
import ScanApi.ProxyTurns
import ScanApi.ProxyTerms
import ScanApi.DigestPages
import ScanApi.Restarts
import ScanApi.Migrations
import ScanApi.AlfaEmbedded
import ScanApi.AlfaFrontmatter
import ScanApi.AlfaScan
import ScanApi.SberServices
import ScanApi.Growth
import ScanApi.GrownMethods
import ScanApi.Atomic
import ScanApi.ProxyStore
import ScanApi.ProxyRaces
import ScanApi.Coupling
import ScanApi.AlikeSpecs
import ScanApi.TagPass
import ScanApi.BankSpecs
import ScanApi.TBank
import ScanApi.ClosedSpace
import ScanApi.Tochka
import ScanApi.Cyclops
import ScanApi.ChunkLoader
import ScanApi.ParseRuns
import ScanApi.Site
import ScanApi.Admission
import ScanApi.ParseWatch
import ScanApi.Percent
import ScanApi.Dsn
import ScanApi.RunHistory
import ScanApi.Tabs
