import Retach.WidePairs
import Retach.AltScreen
import Retach.Attach
import Retach.Session
import Retach.Cursor
import Retach.Erasing
import Retach.Sgr
import Retach.Serving
import Retach.Ending
import Retach.Reset
import Retach.Redraw
import Retach.Injection
import Retach.Replay
import Retach.DirtyRow
import Retach.ModeSync
import Retach.Client
import Retach.Bytes
import Retach.Renderers
import Retach.Registry
import Retach.Resizing
import Retach.Controls
import Retach.Provenance
import Retach.Canonical
import Retach.Growing
import Retach.Regions
import Retach.DeferredWrap
import Retach.Narrowing
import Retach.Inserting
import Retach.Marks
import Retach.Combining
import Retach.Trimming
import Retach.SgrText
import Retach.Sizes
import Retach.Updates
import Retach.InputFilter
import Retach.Responses
import Retach.Deleting
import Retach.Scrolling
import Retach.Reports
import Retach.Titles
import Retach.Settling
import Retach.Layout
import Retach.SideTable
import Retach.Locking
import Retach.Delivery
import Retach.Relaying
import Retach.Requests
import Retach.Launching
