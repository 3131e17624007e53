/-!
# Endpoint handlers

A handler is called when a packet of its endpoint is done. What it then does is a `Program`: a
finite run of questions to the device and packets that it submits, each of which may depend on the
answers to those before.

A handler knows the packet and the device's answers and nothing else. One that keeps a memory of its
own from one packet to the next is not a `Handler`.
-/

namespace UsbGadget

/-- What a handler does with the device. -/
inductive Program where
  /-- Nothing more. -/
  | done
  /-- Asks whether the host has configured the device, and goes on with the answer. -/
  | askConfigured (next : Bool → Program)
  /-- Submits a packet on an endpoint of an interface, and goes on with whether there is such an
  endpoint. -/
  | submit (interface endpoint : UInt8) (data : List UInt8) (next : Bool → Program)

/-- A handler of completed packets. What it does depends on the packet's bytes alone: it is given no
state that it could change. -/
structure Handler where
  /-- What the handler is called in a log. -/
  name : String
  /-- What it does when given the bytes of a packet. -/
  onData : List UInt8 → Program

namespace Program

/-- Submits the given packets one after the other, whatever the answers. -/
def submitAll : List (UInt8 × UInt8 × List UInt8) → Program
  | [] => done
  | (interface, endpoint, data) :: rest =>
    submit interface endpoint data fun _ => submitAll rest

end Program

end UsbGadget
