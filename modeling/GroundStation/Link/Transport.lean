/-
# Transports

A transport reaches the device of an instrument: it opens a link, sends commands with or without waiting
for a reply, takes what the device sent on its own, and closes the link.  Whatever lies at the other end
is a state of type `δ`, and a transport is any five functions on it; nothing is assumed about when they
fail.
-/
import GroundStation.Config.Model

namespace GroundStation

/-- A way to reach devices in a world of state `δ`. -/
structure Transport (δ : Type) where
  connect : InstrumentConfig → δ → Except LinkError Unit × δ
  write : InstrumentConfig → Text → δ → Except LinkError Unit × δ
  query : InstrumentConfig → Text → δ → Except LinkError Text × δ
  /-- The bytes that the device sent on its own. -/
  readAvailable : InstrumentConfig → δ → Except LinkError Bytes × δ
  close : InstrumentConfig → δ → δ

end GroundStation
