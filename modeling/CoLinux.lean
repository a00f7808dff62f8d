import CoLinux.Common.ConsoleAlloc
import CoLinux.Common.ConsoleMove
import CoLinux.Common.ConsoleScroll
import CoLinux.Common.QueueDeque
import CoLinux.Common.Unicode
import CoLinux.Common.UnicodeStrings
import CoLinux.Kernel.AtomicAlloc
import CoLinux.Kernel.ConsoleReplay
import CoLinux.Kernel.DebugLoss
import CoLinux.Kernel.DescriptorLife
import CoLinux.Kernel.DeviceRequest
import CoLinux.Kernel.FilesystemTable
import CoLinux.Kernel.FilesystemTeardown
import CoLinux.Kernel.Getpp
import CoLinux.Kernel.GuestFrames
import CoLinux.Kernel.GuestWalk
import CoLinux.Kernel.HostBudget
import CoLinux.Kernel.InitrdPlacement
import CoLinux.Kernel.Jiffies
import CoLinux.Kernel.ManagerUnload
import CoLinux.Kernel.MessageBooks
import CoLinux.Kernel.MessageProtocol
import CoLinux.Kernel.MonitorBlocks
import CoLinux.Kernel.PagePieces
import CoLinux.Kernel.PassageSpaces
import CoLinux.Kernel.PciAssignment
import CoLinux.Kernel.ReversedLookup
import CoLinux.Kernel.TerminationReport
import CoLinux.Kernel.UnknownInode
import CoLinux.Linux.CobdRequests
import CoLinux.Linux.CofsRuns
import CoLinux.Linux.Coscsi
import CoLinux.Linux.IncomingSafety
import CoLinux.Linux.ReaddirStream
import CoLinux.Linux.Serial
import CoLinux.User.CommaFields
import CoLinux.User.DebugRoundTrip
import CoLinux.User.ElfInside
import CoLinux.User.IndexedOption
import CoLinux.User.ParamsFile
import CoLinux.User.SlirpRedir
import CoLinux.Winnt.BlockCompletion
import CoLinux.Winnt.BlockSize
import CoLinux.Winnt.BlockTransfer
import CoLinux.Winnt.ConetSplit
import CoLinux.Winnt.DirListingLife
import CoLinux.Winnt.InodePath
import CoLinux.Winnt.LinuxQueue
import CoLinux.Winnt.PageAllocSafety
import CoLinux.Winnt.ReaderChannel
import CoLinux.Winnt.ScsiDone
