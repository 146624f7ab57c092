import PrintAgent.Lib.Machine
import PrintAgent.Core.Acknowledged
import PrintAgent.Core.PrintOnce
import PrintAgent.Core.Recovery
import PrintAgent.Core.Unprinted
import PrintAgent.Core.Reported
import PrintAgent.Core.Unhonoured
import PrintAgent.Core.Verdict
import PrintAgent.Config
import PrintAgent.Core.Forever
import PrintAgent.Core.HostPinned
import PrintAgent.Core.PrintersFresh
import PrintAgent.Net.DownloadDir
import PrintAgent.Net.Order
import PrintAgent.Net.Unauthenticated
import PrintAgent.Core.Disk
import PrintAgent.Core.DiskView
import PrintAgent.Core.Process
import PrintAgent.Core.Stop
import PrintAgent.Core.WholeDocument
import PrintAgent.Lib.FirstFit
import PrintAgent.Lib.FloatArith
import PrintAgent.Lib.Loop
import PrintAgent.Lib.Slices
import PrintAgent.Lib.Trim
import PrintAgent.Printing.Dither
import PrintAgent.Printing.EscposReader
import PrintAgent.Printing.Media
import PrintAgent.Printing.PaperChoice
import PrintAgent.Printing.Receipt
import PrintAgent.Printing.Tone
import PrintAgent.Core.Depth
import PrintAgent.Core.FirstDispatch
import PrintAgent.Core.Redispatch
import PrintAgent.Core.Repair
import PrintAgent.Core.Told
import PrintAgent.Credentials
import PrintAgent.Lib.JsonCut
import PrintAgent.Lib.Percent
import PrintAgent.Lib.Raise
import PrintAgent.Lib.Regex
import PrintAgent.Lib.RegexSub
import PrintAgent.Lib.Text
import PrintAgent.LogFile
import PrintAgent.LoggingSetup
import PrintAgent.Net.DownloadDocument
import PrintAgent.Printing.Cups
import PrintAgent.Printing.Discover
import PrintAgent.Printing.MacPrint
import PrintAgent.Printing.OddPpd
import PrintAgent.Printing.Ppd
import PrintAgent.Lib.JsonTree
import PrintAgent.StatusStore
import PrintAgent.Lib.RotatingFile
import PrintAgent.Core.Rows
import PrintAgent.Core.ErrorCodes
import PrintAgent.Core.TaskLife
import PrintAgent.Core.Paced
import PrintAgent.Core.Restart
import PrintAgent.Core.KeepAlive
import PrintAgent.Lib.Timed
import PrintAgent.Lib.Joined
import PrintAgent.Metrics
import PrintAgent.Service.MacosRuns
import PrintAgent.Service.WindowsService
import PrintAgent.Printing.Windows
import PrintAgent.Core.Mirror
