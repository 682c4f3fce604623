import Userland.Tail.Basic
import Userland.Tail.Scan
import Userland.Tail.Forward
import Userland.Tail.Positioning
import Userland.Tail.Failures
import Userland.Tail.Follow.State
import Userland.Tail.Follow.Poll
import Userland.Tail.Follow.Resources
import Userland.Tail.Follow.Show
import Userland.Tail.Follow.Footprint
import Userland.Tail.Follow.Recovery
import Userland.Tail.Follow.Rotation
import Userland.Tail.Follow.Headers
import Userland.Strptime.CStr
import Userland.Strptime.State
import Userland.Strptime.Derive
import Userland.Strptime.Parse
import Userland.Strptime.Bounds
import Userland.Strptime.Calendar
import Userland.Strptime.Run
import Userland.Strptime.RoundTrip
import Userland.Strptime.Literal
import Userland.Strptime.Century
import Userland.Strptime.Clock
import Userland.Strptime.Names
import Userland.Strptime.Inline
import Userland.Strptime.Epoch
import Userland.Strptime.WeekZero
import Userland.Strptime.Modifiers
import Userland.Strptime.Termination
import Userland.Strptime.Fields
import Userland.Strptime.Ctime
import Userland.Strptime.Gmt
