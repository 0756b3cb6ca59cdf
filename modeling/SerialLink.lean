import SerialLink.Transmission.Recorder
import SerialLink.Command.Script
import SerialLink.Link
import SerialLink.Proofs.Sampling
import SerialLink.Proofs.Waveform
import SerialLink.Proofs.Serving
import SerialLink.Proofs.Decoding
import SerialLink.Proofs.Delivery
import SerialLink.Proofs.Framing
import SerialLink.Proofs.Rounding
import SerialLink.Proofs.Loopback
import SerialLink.Proofs.Lifetime
import SerialLink.Proofs.Accounting
import SerialLink.Proofs.Queueing
import SerialLink.Proofs.Splitting
import SerialLink.Proofs.Feeding
import SerialLink.Proofs.Relay
import SerialLink.Proofs.Dispatching
import SerialLink.Proofs.Writing
import SerialLink.Proofs.Tracing
import SerialLink.Proofs.Independence
import SerialLink.Proofs.Strays
import SerialLink.Proofs.Precedence
import SerialLink.Proofs.Slicing
import SerialLink.Proofs.Timekeeping
import SerialLink.Proofs.Streams
import SerialLink.Proofs.Resync
import SerialLink.Proofs.Encoding
import SerialLink.Proofs.Quoting
