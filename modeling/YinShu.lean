import YinShu.CommandDispatch
import YinShu.ConfigCommands
import YinShu.ConfigFile
import YinShu.CupsAttributes
import YinShu.CupsJobNames
import YinShu.CupsMedia
import YinShu.CupsSpool
import YinShu.DownloadContract
import YinShu.EmbeddedAddresses
import YinShu.FilteringProxy
import YinShu.HistoryOrder
import YinShu.ImagePlacement
import YinShu.IpAllowlist
import YinShu.IpcFrame
import YinShu.LiteralHosts
import YinShu.LoopbackGrant
import YinShu.PdfText
import YinShu.PrintablePaper
import YinShu.PrinterReplies
import YinShu.QueueHistory
import YinShu.ServicePort
import YinShu.StatusRouting
import YinShu.StatusTrace
import YinShu.TaskSummary
import YinShu.TempFiles
import YinShu.WorkerWakeup
import YinShu.WorkerProgress
import YinShu.WorkerShutdown
import YinShu.WorkerSteps
import YinShu.AgentRun
import YinShu.AgentHistory
import YinShu.BrowserLaunch
import YinShu.FallbackChain
import YinShu.BrowserRender
import YinShu.OfficeFallback
import YinShu.DiagnosticsBundle
import YinShu.IpcExchange
import YinShu.TestPrint
import YinShu.ConverterProcess
import YinShu.ConverterDrift
import YinShu.ConverterSupervision
import YinShu.ConverterDeadlines
import YinShu.TestPage
import YinShu.TestPageLayout
import YinShu.TestPageMarks
import YinShu.TestPageLegible
import YinShu.TestPageRoom
import YinShu.TestPageComplete
import YinShu.Admission
import YinShu.AdmittedJobs
import YinShu.CupsOptions
import YinShu.CupsListing
