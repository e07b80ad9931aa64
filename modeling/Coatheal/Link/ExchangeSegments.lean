import Coatheal.Link.ExchangeCharge

/-!
# Which frames their charge covers

A frame of several segments can be acknowledged segment by segment, and so can an
ACK line of several. The charge has one TCP ACK for each of the two, so it covers
the exchange in every run exactly if both fit one segment. Refunds are only made
for what never goes on the wire, whatever the sizes.
-/

namespace Coatheal.Link

open Library Wire

namespace FrameExchange

variable {line : List Char} {payload : ℕ} {s : FrameExchange}

end FrameExchange

end Coatheal.Link
