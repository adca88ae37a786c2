import Unx511.Machine.Run
import Unx511.Machine.Relay
import Unx511.Machine.Framing
import Unx511.Machine.OrderedMap
import Unx511.Machine.Packing
import Unx511.Machine.Saturation
import Unx511.Machine.StopFlag
import Unx511.Machine.Termination
import Unx511.Text.Lines
import Unx511.Text.CString
import Unx511.Text.StdString
import Unx511.Text.Strtok
import Unx511.Text.Istream
import Unx511.Text.Decimal
import Unx511.Text.Stdio
import Unx511.Text.PrefixCode
import Unx511.Sysv.Queue
import Unx511.Posix.Semaphore
import Unx511.Posix.Descriptors
import Unx511.ClientNo
import Unx511.NumberMenu
import Unx511.Lab4.Screen
import Unx511.Lab5a.HardwareDevice
import Unx511.Lab5a.DeviceRead
import Unx511.Lab5b.StartStop
import Unx511.Lab5b.Statistics
import Unx511.Lab5b.NetworkLog
import Unx511.Lab6.Client
import Unx511.Lab6.Dialogue
import Unx511.Lab7.Commands
import Unx511.Lab7.Pipeline
import Unx511.Lab8.Client
import Unx511.Lab8.Startup
import Unx511.Lab8.System
import Unx511.Lab8.Phantom
import Unx511.Lab8.Routing
import Unx511.Lab8.Deadlock
import Unx511.Lab8.Shutdown
import Unx511.Lab9.Client
import Unx511.Lab9.Server
import Unx511.Lab9.ReceivePath
import Unx511.Lab9.Shutdown
import Unx511.Lab9.System
import Unx511.Lab10.System
import Unx511.Lab10.Exclusion
import Unx511.Lab10.Chain
import Unx511.Lab10.Restart
import Unx511.Lab10.Termination
import Unx511.Assignment1.FileGenerator
import Unx511.Assignment1.Worker
import Unx511.Assignment1.Accumulation
import Unx511.Assignment1.Part2
import Unx511.Assignment1.Part3.SignalCount
import Unx511.Assignment1.Part3.Termination
import Unx511.Assignment1.Part4
import Unx511.Assignment1.Part4.Completion
import Unx511.Assignment1.Part4.Output
import Unx511.Assignment1.Part4.Syslog
import Unx511.Assignment1.Part4.Wakeup
import Unx511.Assignment1.Part4.Termination
import Unx511.Assignment1.Part4.Worker
import Unx511.StatusScan
import Unx511.Assignment2.IntfMonitor
import Unx511.Assignment2.NetworkMonitor
import Unx511.Assignment2.Framing
import Unx511.Assignment2.Stopping
import Unx511.Assignment2.LinkUpRequest
import Unx511.Assignment2.System
import Unx511.Assignment2.Wiring
import Unx511.Assignment2.Registry
import Unx511.Assignment2.Attribution
import Unx511.Assignment2.Refusal
import Unx511.Assignment2.Startup
import Unx511.Assignment2.Dialogue
import Unx511.Assignment2.Session
import Unx511.Assignment2.Shutdown
import Unx511.Assignment2.SelectLoop
import Unx511.Assignment2.ClientRegistry
import Unx511.Assignment2.Descriptors
import Unx511.Assignment2.Isolation
import Unx511.Assignment2.Refinement
import Unx511.Assignment3.Logger
import Unx511.Assignment3.LogServer
import Unx511.Assignment3.Filtering
import Unx511.Assignment3.Automobile
import Unx511.Assignment3.Commands
import Unx511.Assignment3.System
import Unx511.Assignment3.FuelModel
import Unx511.Assignment3.ServerMenu
import Unx511.Assignment3.TravelSimulator
import Unx511.Assignment3.TravelRounds
import Unx511.Exam.FinalExam1
import Unx511.Exam.Termination
import Unx511.Lab1.Report
