import BoardSupport.Serial.Uart
import BoardSupport.Service

/-!
# Calls on a Serial Line

What a client can send over a serial line: bytes, a text, or a single
character. The line keeps nothing between calls.

## Main definitions

* `Serial.Call`: What a client can ask for.
* `Serial.service`: The line as a service.
-/

namespace BoardSupport

namespace Serial

/-- What a client can ask of a serial line. -/
inductive Call where
  | bytes (sent : List UInt8)
  | text (sent : String)
  | char (sent : Char)
  deriving DecidableEq, Repr

/-- The program behind a call. -/
def Call.program (patience : Nat) : Call → Driver Stalled Unit
  | .bytes sent => writeBytes patience sent
  | .text sent => writeString patience sent
  | .char sent => writeChar patience sent

/-- A serial line as a service. -/
def service (patience : Nat) : Service Bus.interface Unit Call Stalled Unit :=
  ⟨fun _ call => call.program patience, fun _ _ => ()⟩

end Serial

end BoardSupport
