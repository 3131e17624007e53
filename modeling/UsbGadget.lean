import UsbGadget.Firmware.Basic
import UsbGadget.Proofs.AddressCommit
import UsbGadget.Proofs.AddressRegister
import UsbGadget.Proofs.Alternation
import UsbGadget.Proofs.Coalescing
import UsbGadget.Proofs.DescriptorTransfer
import UsbGadget.Proofs.Dispatch
import UsbGadget.Proofs.EchoLiveness
import UsbGadget.Proofs.EndpointCounts
import UsbGadget.Proofs.FailedOpening
import UsbGadget.Proofs.FirstRefusal
import UsbGadget.Proofs.FreshSession
import UsbGadget.Proofs.IndependentTransfers
import UsbGadget.Proofs.Leftover
import UsbGadget.Proofs.Remembered
import UsbGadget.Proofs.StringIndexes
import UsbGadget.Proofs.Submission
import UsbGadget.Proofs.Toggles
import UsbGadget.Proofs.Waiting
import UsbGadget.Run
