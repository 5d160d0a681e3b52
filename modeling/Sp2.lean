import Sp2.Properties.Kill
import Sp2.Properties.Pids
import Sp2.Properties.PidList
import Sp2.Properties.SerialOutput
import Sp2.Properties.Sleep
import Sp2.Properties.ShmPool
import Sp2.Properties.ShmArena
import Sp2.Properties.ShmMembers
import Sp2.Properties.ShmErrors
import Sp2.Properties.ShmGet
import Sp2.Properties.ShmStrings
import Sp2.Properties.ShmAccess
import Sp2.Properties.Handles
import Sp2.Properties.ContextSwitch
import Sp2.Properties.Vectors
import Sp2.Properties.PicService
import Sp2.Properties.KernelEntry
import Sp2.Properties.BootImage
import Sp2.Properties.Dispatch
import Sp2.Properties.Ramdisk
import Sp2.Properties.ConsoleTerminal
import Sp2.Properties.AtaLifetime
import Sp2.Properties.AtaSectors
import Sp2.Properties.AtaBlocks
import Sp2.Properties.AtaTransfers
import Sp2.Properties.PciWidths
import Sp2.Properties.PciScan
import Sp2.Properties.RamdiskBounds
import Sp2.Properties.RamdiskService
import Sp2.Properties.LoadAddress
import Sp2.Properties.FloppyLoad
import Sp2.Properties.BootLoad
import Sp2.Properties.RequestPlaces
import Sp2.Properties.WakeUp
import Sp2.Properties.RamdiskOrder
import Sp2.Properties.RoundRobin
import Sp2.Properties.Waiting
import Sp2.Properties.Isolation
import Sp2.Properties.Numbers
import Sp2.Properties.FormatReads
import Sp2.Properties.FormatOutput
import Sp2.Properties.ConsoleScroll
import Sp2.Properties.KeyboardRing
import Sp2.Properties.ScanCodes
import Sp2.Properties.ConsoleOutput
import Sp2.Properties.Reaping
import Sp2.Properties.SerialProgress
import Sp2.Properties.LineInput
import Sp2.Properties.RequestPool
