import SLikeNet.ConformingSender
import SLikeNet.OrderingChannel

/-! The weights of buffered messages, with 20 bits for a sequencing index of 24, and the runs of
sends for which they sort the messages. -/

namespace SLikeNet

namespace OrderingChannel

end OrderingChannel

namespace NumberedWriter

variable {w : NumberedWriter} {channel limit : ℕ} {m a b : SentMessage}
  {sends : List TransmissionHeader}

end NumberedWriter

namespace OrderingChannel

variable {c : OrderingChannel SentMessage} {base channel : ℕ} {a b m : SentMessage}
  {sends : List TransmissionHeader}

/-- So many sequenced messages and an ordered one. -/
def row (count : ℕ) : List TransmissionHeader :=
  List.replicate count (.fromPool .reliableSequenced) ++ [.fromPool .reliableOrdered]

end OrderingChannel

end SLikeNet
