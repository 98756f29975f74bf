import LinuxDeviceDriver.Lib.Transition
import LinuxDeviceDriver.Lib.Blit
import LinuxDeviceDriver.Kernel
import LinuxDeviceDriver.Gfifo.Device
import LinuxDeviceDriver.Gfifo.Contract
import LinuxDeviceDriver.Gfifo.Devices
import LinuxDeviceDriver.Gfifo.WaitQueue
import LinuxDeviceDriver.Lib.Loop
import LinuxDeviceDriver.Memloader.Context
import LinuxDeviceDriver.Memloader.Load
import LinuxDeviceDriver.Memloader.Core
import LinuxDeviceDriver.Memloader.Image
import LinuxDeviceDriver.Lib.Pool
import LinuxDeviceDriver.Memloader.Threads
import LinuxDeviceDriver.Memloader.Exclusion
import LinuxDeviceDriver.Memloader.LifeCycle
import LinuxDeviceDriver.Memloader.Cancellation
import LinuxDeviceDriver.Memloader.Attributes
import LinuxDeviceDriver.Gfifo.Interleaving
import LinuxDeviceDriver.Gfifo.Settling
import LinuxDeviceDriver.Gfifo.Linear
import LinuxDeviceDriver.Gfifo.Poll
import LinuxDeviceDriver.Gfifo.Async
import LinuxDeviceDriver.Memloader.Solo
import LinuxDeviceDriver.Gfifo.Clear
import LinuxDeviceDriver.Lib.Lines
import LinuxDeviceDriver.Logbuffer.Show
import LinuxDeviceDriver.Logbuffer.Lines
import LinuxDeviceDriver.Logbuffer.Bounds
import LinuxDeviceDriver.Generic.Access
import LinuxDeviceDriver.Generic.Masked
import LinuxDeviceDriver.Generic.Split
import LinuxDeviceDriver.Generic.Locking
import LinuxDeviceDriver.Watchdog.Device
import LinuxDeviceDriver.Watchdog.Resources
import LinuxDeviceDriver.Watchdog.System
import LinuxDeviceDriver.Watchdog.Timer
import LinuxDeviceDriver.Watchdog.Teardown
import LinuxDeviceDriver.Watchdog.KeepAlive
import LinuxDeviceDriver.Netrelay.Bounds
import LinuxDeviceDriver.Netrelay.Eoe
import LinuxDeviceDriver.Lib.Bpf
import LinuxDeviceDriver.Calamares.Terminal
import LinuxDeviceDriver.Limitfs.Accounting
import LinuxDeviceDriver.Limitfs.Handles
import LinuxDeviceDriver.Limitfs.Overshoot
import LinuxDeviceDriver.Limitfs.View
import LinuxDeviceDriver.Led.Queue
import LinuxDeviceDriver.Led.LiveData
import LinuxDeviceDriver.Netrelay.DhcpFilter
import LinuxDeviceDriver.Netrelay.EoeFilter
import LinuxDeviceDriver.Netrelay.Tunnel
import LinuxDeviceDriver.Gmem.Device
import LinuxDeviceDriver.Gmem.Files
import LinuxDeviceDriver.Gmem.Mutex
import LinuxDeviceDriver.Limitfs.DirSize
import LinuxDeviceDriver.Limitfs.Recount
import LinuxDeviceDriver.Memutil.Region
import LinuxDeviceDriver.Memutil.Contract
import LinuxDeviceDriver.Gfifo.Shift
import LinuxDeviceDriver.Gmem.Faults
import LinuxDeviceDriver.Gmem.Sections
import LinuxDeviceDriver.Memloader.Progress
import LinuxDeviceDriver.Seek
import LinuxDeviceDriver.Numbers
import LinuxDeviceDriver.Memloader.Show
import LinuxDeviceDriver.Memloader.Binding
import LinuxDeviceDriver.Memloader.Filename
import LinuxDeviceDriver.Memloader.Session
import LinuxDeviceDriver.Logbuffer.Location
import LinuxDeviceDriver.Generic.Hooks
import LinuxDeviceDriver.Led.Parsing
import LinuxDeviceDriver.Memutil.Restart
import LinuxDeviceDriver.Memutil.DumpMemory
import LinuxDeviceDriver.Asciidump.PrintBuf
import LinuxDeviceDriver.Calamares.LockFile
import LinuxDeviceDriver.Calamares.Forward
import LinuxDeviceDriver.Calamares.Sessions
import LinuxDeviceDriver.Netrelay.PacketDump
import LinuxDeviceDriver.Smemcap.Archive
