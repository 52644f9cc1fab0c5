import Sel4Xhci.Semantics.Machine
import Sel4Xhci.Semantics.Channel
import Sel4Xhci.Ring.Basic
import Sel4Xhci.Ring.Concurrent
import Sel4Xhci.Umass.Api
import Sel4Xhci.Umass.Handshake
import Sel4Xhci.Disk.Diskio
import Sel4Xhci.Disk.Transfer
import Sel4Xhci.Dma.Basic
import Sel4Xhci.Dma.TwoDomains
import Sel4Xhci.Dma.Translation
import Sel4Xhci.Dma.OneDomain
import Sel4Xhci.Interrupt.Handoff
import Sel4Xhci.Umass.Answering
import Sel4Xhci.Umass.Contract
import Sel4Xhci.Umass.Delivery
import Sel4Xhci.Timer.Delay
import Sel4Xhci.Timer.Microseconds
import Sel4Xhci.Ring.Queue
import Sel4Xhci.Devices.Accessors
import Sel4Xhci.Shell.Arguments
import Sel4Xhci.Shell.DataBuffer
import Sel4Xhci.Shell.Recall
import Sel4Xhci.Shell.Keypress
import Sel4Xhci.Ring.Cookie
import Sel4Xhci.Dma.Contiguity
import Sel4Xhci.Shell.Escape
import Sel4Xhci.Fat.Window
import Sel4Xhci.Fat.Files
import Sel4Xhci.Fat.OpenFiles
import Sel4Xhci.Fat.Mount
