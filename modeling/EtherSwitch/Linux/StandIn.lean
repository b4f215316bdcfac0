import EtherSwitch.Linux.Kernel
import EtherSwitch.Simulation

/-! A kernel with one simulated chip behind its buses. Whatever the chip refuses is an invalid argument;
    of files, there is only the null device, which stands for every node. -/

namespace EtherSwitch.StandIn

/-- The only file there is. -/
def nullDevice : String := "/dev/null"

def openFile (path : String) : Except IoError Unit :=
  if path.contains '\x00' then .error .zeroInFileName
  else if path = nullDevice then .ok ()
  else .error (.os .noEntry)

/-- A refusal of the chip as the kernel reports it. -/
def refused {α : Type} (answer : Except IoError α) : Except Errno α := answer.mapError fun _ => .invalidArgument

/-- Runs an SPI message on the chip: one transfer that sends, or one that sends and one that receives. -/
def message (transfers : List SpiTransfer) (chip : Simulation) : Except Errno (List UInt8) × Simulation :=
  match transfers.map SpiTransfer.buffer with
  | [.send bytes] =>
    match chip.spi (.write bytes) with
    | (answer, chip) => ((refused answer).map fun _ => [], chip)
  | [.send bytes, .receive length] =>
    match chip.spi (.transfer bytes length) with
    | (answer, chip) => (refused answer, chip)
  | _ => (.error .invalidArgument, chip)

/-- The kernel over a simulated chip. -/
def kernel : Device Kernel Simulation := fun
  | .openFile path, chip => (openFile path, chip)
  | .openSocket, chip => (.ok (), chip)
  | .setSpiMode _, chip => (.ok (), chip)
  | .setSpiBitsPerWord _, chip => (.ok (), chip)
  | .setSpiMaxSpeed _, chip => (.ok (), chip)
  | .spiMessage transfers, chip => message transfers chip
  | .miiRead request, chip =>
    match Simulation.mdio (.read request.phy.toUInt8 request.register.toUInt8) chip with
    | (answer, chip) => ((refused answer).map fun word => { request with valueOut := word }, chip)
  | .miiWrite request, chip =>
    match Simulation.mdio (.write request.phy.toUInt8 request.register.toUInt8 request.valueIn) chip with
    | (answer, chip) => (refused answer, chip)
  | .sleep _, chip => ((), chip)

end EtherSwitch.StandIn
