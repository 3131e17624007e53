import UsbGadget.Description.Device

/-!
# The echo device

A device with one bulk endpoint in each direction, which sends back what it receives. A received
packet is handed to the IN endpoint, and once that has gone out the OUT endpoint is made ready for
the next one.
-/

namespace UsbGadget.Echo

/-- Number of the echo interface. -/
def interface : UInt8 := 1

/-- Address of the endpoint that receives. -/
def outAddress : UInt8 := Direction.output.address 1

/-- Address of the endpoint that sends. -/
def inAddress : UInt8 := Direction.input.address 2

/-- A packet's worth of room: what the OUT endpoint is made ready with. -/
def room : List UInt8 := List.replicate Dpram.bufferSize 0

/-- Sends back a packet that has come in. -/
def sendBack : Handler where
  name := "sendBack"
  onData data := .submit interface inAddress data fun _ => .done

/-- Makes ready for the next packet once one has gone out. -/
def listen : Handler where
  name := "listen"
  onData _ := .submit interface outAddress room fun _ => .done

/-- The endpoint that receives. -/
def outEndpoint : EndpointDescription :=
  { EndpointDescription.standard .output 1 .bulk 64 0 with handler := some sendBack }

/-- The endpoint that sends. -/
def inEndpoint : EndpointDescription :=
  { EndpointDescription.standard .input 2 .bulk 64 1 with handler := some listen }

/-- The echo device. -/
def device : DeviceDescription where
  vendor := "Raspberry Pi"
  vendorId := 0
  product := "Pico Test Device"
  productId := 1
  productVersion := 0
  flags := .selfPowered
  maxPower := 100
  serial := none
  interfaces :=
    [{ id := interface, classCode := 0xFF, subclass := 0, protocol := 0, name := "Echo",
       endpoints := [outEndpoint, inEndpoint] }]

end UsbGadget.Echo
