import EdgeFlow.Lib.Buffer
import EdgeFlow.Proof.MqttFrames
import EdgeFlow.Proof.SessionStream

/-!
# The PUBLISH packet

One sum decides everything about a PUBLISH: whether `mqtt_send_publish` refuses it, how far the
stores into the 1024-byte buffer go, and how many bytes reach the connection. Below the limit
those bytes are a frame, so what follows them on the connection is left for the next packet.
-/

set_option autoImplicit false

namespace EdgeFlow

open Lib

variable {V : Type}

namespace Proof

/-! ## The buffer -/

end Proof
end EdgeFlow
