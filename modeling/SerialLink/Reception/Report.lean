/-
# What a receiver reports

A receiver keeps a journal.  Every frame it completes is one entry, with what became of its
byte, and so is everything it refused to act on.  `Report.records` is the journal as the log
shows it: a bad stop bit comes before the fate of its byte, and a byte that was thrown away for
its stop bit is not mentioned a second time.  The texts are those that the program's `Receiver`
writes in `deliver`, `on_edge` and `on_compare`.
-/
import SerialLink.Log

namespace SerialLink

/-- What became of the byte of a completed frame. -/
inductive Fate where
  /-- Thrown away for its stop bit. -/
  | dropped
  /-- Lost to a full queue. -/
  | refused
  /-- Queued and handed on. -/
  | delivered
  deriving DecidableEq, Repr

/-- One entry of a receiver's journal. -/
inductive Report where
  /-- A frame was completed. -/
  | frame (byte : UInt8) (stopBit : Bool) (fate : Fate)
  /-- An edge was served while the pin could not be read. -/
  | edgeUnreadable
  /-- A match was served while the pin could not be read. -/
  | sampleUnreadable
  /-- A match was served with no frame under way. -/
  | spuriousMatch
  deriving DecidableEq, Repr

namespace Report

/-- The byte and the stop bit of a completed frame. -/
def frame? : Report → Option (UInt8 × Bool)
  | frame byte stopBit _ => some (byte, stopBit)
  | _ => none

/-- A record of the receiver. -/
def record (level : Level) (message : String) : Record := ⟨level, "soft_uart::rx", message⟩

/-- The fate of a byte in the log. -/
def fateRecords (byte : UInt8) : Fate → List Record
  | .dropped => []
  | .refused => [record .warn ("Receive queue full, dropped " ++ toString byte.toNat)]
  | .delivered => [record .trace ("Received " ++ toString byte.toNat)]

/-- An entry as the log shows it. -/
def records : Report → List Record
  | frame byte stopBit fate =>
    (if stopBit then []
      else [record .warn ("Framing error, stop bit low after " ++ toString byte.toNat)]) ++
      fateRecords byte fate
  | edgeUnreadable => [record .error "Receive pin unreadable on edge"]
  | sampleUnreadable => [record .error "Receive pin unreadable, abandoning frame"]
  | spuriousMatch => [record .warn "Compare match while idle, re-arming"]

end Report

end SerialLink
