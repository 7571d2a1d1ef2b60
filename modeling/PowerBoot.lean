import PowerBoot.PowerNet.FlowControl
import PowerBoot.PowerNet.Select
import PowerBoot.PowerNet.Connect
import PowerBoot.PowerNet.Errors
import PowerBoot.PowerNet.Registry
import PowerBoot.Arpa.Address
import PowerBoot.Arpa.Bounds
import PowerBoot.Transfer.Directory
import PowerBoot.Transfer.Retry
import PowerBoot.Transfer.Messages
import PowerBoot.Transfer.Authentication
import PowerBoot.Transfer.Failures
import PowerBoot.Transfer.Variants
import PowerBoot.Transfer.LifeCycle
import PowerBoot.Coop.Completion
import PowerBoot.PowerNet.Buffered
import PowerBoot.PowerNet.Drain
import PowerBoot.PowerNet.Reporting
import PowerBoot.Coop.Ensures
import PowerBoot.Memory.Overlay
import PowerBoot.Transfer.FileRead
import PowerBoot.Transfer.FileWrite
import PowerBoot.Console.Draw
import PowerBoot.Console.Loops
import PowerBoot.Console.Escapes
import PowerBoot.Console.Redraw
import PowerBoot.Console.Visits
import PowerBoot.Console.Shown
import PowerBoot.Console.Stream
import PowerBoot.Console.Sites
import PowerBoot.Console.Pens
import PowerBoot.Console.Tabs
import PowerBoot.Console.History
import PowerBoot.Transfer.Isolation
import PowerBoot.Coop.Twins
import PowerBoot.Transfer.Uninitialized
import PowerBoot.Transfer.Padding
import PowerBoot.Transfer.Transparent
import PowerBoot.Transfer.Undisturbed
import PowerBoot.Coop.Passage
import PowerBoot.Transfer.Answers
import PowerBoot.Transfer.Listing
import PowerBoot.Transfer.Accounts
import PowerBoot.Coop.Driver
import PowerBoot.Transfer.Program
import PowerBoot.Transfer.Printing
import PowerBoot.Coop.Retired
import PowerBoot.Transfer.Retired
import PowerBoot.Console.Prints
import PowerBoot.Console.EventLoop
import PowerBoot.Console.Frames
import PowerBoot.PowerNet.Scripts
