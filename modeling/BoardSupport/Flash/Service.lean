import BoardSupport.Flash.Controller
import BoardSupport.Service

/-!
# Calls on an SPI Flash Controller

What a client can ask of a controller. The controller keeps nothing between
calls.

Five of the calls move data; they are requests for a transfer, and each has its
own preset for the transfer register. The other two set the controller up.

## Main definitions

* `Flash.Request`: A transfer, with everything that describes it.
* `Flash.Request.preset`: What it merges into the transfer register.
* `Flash.Call`: What a client can ask for.
* `Flash.service`: The controller as a service.
-/

namespace BoardSupport

namespace Flash

/-- A transfer a client can ask for. -/
inductive Request where
  | readRegister (opcode : UInt8) (length spins : Nat)
  | writeRegister (opcode : UInt8) (data : List UInt8) (fullDuplex : Bool) (spins : Nat)
  | readFlash (opcode : UInt8) (address : UInt32) (count length spins : Nat)
  | writeFlash (opcode : UInt8) (address : UInt32) (count : Nat) (data : List UInt8) (spins : Nat)
  | erase (opcode : UInt8) (address : UInt32) (count spins : Nat)
  deriving DecidableEq, Repr

namespace Request

/-- What the transfer merges into the transfer register. -/
def preset : Request → Except Error (BitVec 32)
  | .readRegister _ _ _ => .ok Transfer.registerRead
  | .writeRegister _ _ fullDuplex _ => .ok (Transfer.registerWrite fullDuplex)
  | .readFlash _ _ count _ _ => Transfer.flashRead count
  | .writeFlash _ _ count _ _ => Transfer.flashWrite count
  | .erase _ _ count _ => Transfer.flashErase count

/-- A transfer that delivers nothing, and of which nothing is received when it
    fails. -/
def silent (p : Driver Error Unit) : Driver ReadFailure (List UInt8) := do
  p.mapError fun cause => ⟨cause, []⟩
  pure []

/-- The program behind a transfer, which delivers what was read. -/
def program : Request → Driver ReadFailure (List UInt8)
  | .readRegister opcode length spins =>
    (Flash.readRegister opcode length spins).mapError fun cause => ⟨cause, []⟩
  | .writeRegister opcode data fullDuplex spins =>
    silent (Flash.writeRegister opcode data fullDuplex spins)
  | .readFlash opcode address count length spins =>
    Flash.readFlash opcode address count length spins
  | .writeFlash opcode address count data spins =>
    silent (Flash.writeFlash opcode address count data spins)
  | .erase opcode address count spins => silent (Flash.erase opcode address count spins)

end Request

/-- What a client can ask of a controller. -/
inductive Call where
  | setup (count : Nat)
  | setClockDivider (divider : Nat)
  | transfer (request : Request)
  deriving DecidableEq, Repr

/-- The program behind a call. -/
def Call.program : Call → Driver ReadFailure (List UInt8)
  | .setup count => Request.silent (Flash.setup count)
  | .setClockDivider divider => Request.silent (Flash.setClockDivider divider)
  | .transfer request => request.program

/-- A controller as a service. -/
def service : Service Bus.interface Unit Call ReadFailure (List UInt8) :=
  ⟨fun _ call => call.program, fun _ _ => ()⟩

end Flash

end BoardSupport
