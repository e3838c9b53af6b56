import OpenDisplay.Lib.Loop
import OpenDisplay.Lib.Resume
import OpenDisplay.Lib.Trace
import OpenDisplay.Inflate.Bits
import OpenDisplay.Inflate.Model
import OpenDisplay.Inflate.Poll
import OpenDisplay.Inflate.Machine
import OpenDisplay.Inflate.Run
import OpenDisplay.Inflate.Pump
import OpenDisplay.Inflate.Chunking
import OpenDisplay.Inflate.Decode
import OpenDisplay.Xfer.State
import OpenDisplay.Xfer.Partial
import OpenDisplay.Xfer.Frame
import OpenDisplay.Pipe.Model
import OpenDisplay.Xfer.Step
import OpenDisplay.Xfer.Lifecycle
import OpenDisplay.Xfer.Paths
import OpenDisplay.Pipe.Paths
import OpenDisplay.Xfer.Coupling
import OpenDisplay.Xfer.Release
import OpenDisplay.Xfer.Etag
import OpenDisplay.Xfer.Accounting
import OpenDisplay.Xfer.Ledger
import OpenDisplay.Xfer.Refresh
import OpenDisplay.Lib.Serial
import OpenDisplay.Pipe.Deeds
import OpenDisplay.Pipe.Delivery
import OpenDisplay.Pipe.Window
import OpenDisplay.Pipe.Sack
import OpenDisplay.Pipe.Sender
import OpenDisplay.Pipe.Reorder
import OpenDisplay.Lib.Ring
import OpenDisplay.Txq.Model
import OpenDisplay.Txq.Capacity
import OpenDisplay.Txq.Order
import OpenDisplay.Rxq.Model
import OpenDisplay.Rxq.Fifo
import OpenDisplay.Session.Nonce
import OpenDisplay.Session.Model
import OpenDisplay.Session.Step
import OpenDisplay.Session.Invariant
import OpenDisplay.Dispatch.Reply
import OpenDisplay.Xfer.Replies
import OpenDisplay.Dispatch.Desk
import OpenDisplay.Dispatch.Nfc
import OpenDisplay.Dispatch.NfcRecord
import OpenDisplay.Dispatch.Model
import OpenDisplay.Dispatch.Budget
import OpenDisplay.Dispatch.ReadStream
import OpenDisplay.Dispatch.Admission
import OpenDisplay.Lib.Huffman
import OpenDisplay.Lib.Deflate
import OpenDisplay.Inflate.Codes
import OpenDisplay.Inflate.Blocks
import OpenDisplay.Inflate.Header
import OpenDisplay.Inflate.Correct
import OpenDisplay.Inflate.Accept
import OpenDisplay.Lib.Buffer
import OpenDisplay.Config.Asm
import OpenDisplay.Config.Tlv
import OpenDisplay.Adv.Model
import OpenDisplay.Adv.Control
import OpenDisplay.Adv.Teardown
import OpenDisplay.Watchdog.Model
import OpenDisplay.Watchdog.Strikes
import OpenDisplay.Lan.Framing
import OpenDisplay.Lan.Provenance
import OpenDisplay.Link.Model
import OpenDisplay.Link.Exclusive
import OpenDisplay.Link.Stamp
import OpenDisplay.Xfer.Foreign
import OpenDisplay.Pipe.Rectangle
import OpenDisplay.Pipe.Cadence
import OpenDisplay.Session.Teardown
import OpenDisplay.Session.RateLimit
import OpenDisplay.Session.Opens
import OpenDisplay.Session.RoundTrip
import OpenDisplay.Dispatch.ReplyReads
import OpenDisplay.Inflate.Terminates
import OpenDisplay.Inflate.Verdict
import OpenDisplay.Inflate.Contract
import OpenDisplay.Inflate.Fields
import OpenDisplay.Inflate.Bounds
import OpenDisplay.Inflate.Reach
import OpenDisplay.Inflate.Indices
import OpenDisplay.Config.Burst
import OpenDisplay.Config.Parse
import OpenDisplay.Config.Store
import OpenDisplay.Xfer.Geometry
import OpenDisplay.Led.Pattern
import OpenDisplay.Buzzer.Melody
import OpenDisplay.Button.Events
import OpenDisplay.Touch.Interrupts
import OpenDisplay.Boot.Secrecy
import OpenDisplay.Nfct.Intact
import OpenDisplay.Lib.Lenient
import OpenDisplay.Inflate.Inverse
import OpenDisplay.Inflate.Grammar
import OpenDisplay.Inflate.Sound
import OpenDisplay.Lib.Durable
import OpenDisplay.Config.Medium
import OpenDisplay.Config.NordicNvs
import OpenDisplay.Config.EspNvs
import OpenDisplay.Config.BgNvs
import OpenDisplay.Lib.TwoWire
import OpenDisplay.I2c.Model
import OpenDisplay.I2c.Transfer
import OpenDisplay.I2c.Bg22
import OpenDisplay.Config.Silabs
import OpenDisplay.Config.ReadBack
import OpenDisplay.Lib.Canvas
import OpenDisplay.Panel.Driver
import OpenDisplay.Panel.Planes
import OpenDisplay.Panel.Image
import OpenDisplay.Panel.Transfer
import OpenDisplay.Panel.Shown
