import Mathlib.Data.List.Induction
import UsbGadget.Proofs.InService

/-!
# The packet memory of a device that was just opened

Bringing the controller up clears the packet memory and switches the endpoints on, one after the
other. So every endpoint control word is that of the last endpoint which has the register
(`endpointControl_bringUp`), and every other byte is 0 (`byte_bringUp`). The word has its parts side
by side (`Endpoint.toNat_controlWord`): the buffer's offset lies below the transfer type.
-/

namespace UsbGadget

namespace Endpoint

/-! ### Control words -/

theorem Placed.bufferOffsetOf_controlWord {e : Endpoint} (he : e.Placed) :
    EndpointControl.bufferOffsetOf e.controlWord = e.bufferOffset := by
  have hend := he.bufferOffset_add_le
  simp only [Dpram.bufferSize, Dpram.size] at hend
  exact (EndpointControl.bufferOffsetOf_word _).trans (Nat.mod_eq_of_lt (by
    show e.bufferOffset < 65536
    omega))

/-- The parts of an endpoint's control word do not overlap. -/
theorem toNat_controlWord {e : Endpoint} (he : e.bufferOffset < Dpram.size) :
    e.controlWord.toNat =
      1 <<< EndpointControl.enableBit ||| 1 <<< EndpointControl.reportBit |||
        e.transfer.code.toNat <<< EndpointControl.transferBit ||| e.bufferOffset := by
  simp only [Dpram.size] at he
  -- the offset has twelve bits, and the flags and the transfer type are a multiple of its range
  have hhigh : 1 <<< EndpointControl.enableBit ||| 1 <<< EndpointControl.reportBit |||
      e.transfer.code.toNat <<< EndpointControl.transferBit =
        (655360 + 16384 * e.transfer.code.toNat) <<< 12 := by
    cases e.transfer <;> rfl
  have hword : e.controlWord.toNat =
      2684354560 + 67108864 * e.transfer.code.toNat + e.bufferOffset % 65536 :=
    EndpointControl.toNat_word _
  rw [hhigh, ← Nat.shiftLeft_add_eq_or_of_lt (by omega), Nat.shiftLeft_eq, hword]
  omega

/-! ### Switching endpoints on in a row -/

/-- Switches endpoints on, one after the other. -/
def enableAll (endpoints : List Endpoint) (m : Memory Dpram.size) : Memory Dpram.size :=
  endpoints.foldl (fun m e => e.enable m) m

theorem enableAll_concat (endpoints : List Endpoint) (e : Endpoint) (m : Memory Dpram.size) :
    enableAll (endpoints ++ [e]) m = e.enable (enableAll endpoints m) := List.foldl_concat ..

/-- The last endpoint with a control register is the one whose word stands there. -/
theorem word_enableAll (endpoints : List Endpoint) (m : Memory Dpram.size) {k : Nat}
    (hk : k < Dpram.endpointControls) :
    (enableAll endpoints m).word (Dpram.endpointControlOffset k) =
      (((endpoints.filter (·.endpointControl = some k)).getLast?).map controlWord).getD
        (m.word (Dpram.endpointControlOffset k)) := by
  induction endpoints using List.reverseRecOn with
  | nil => rfl
  | append_singleton endpoints e ih =>
    rw [enableAll_concat, word_enable _ _ hk, List.filter_append]
    by_cases he : e.endpointControl = some k
    · rw [if_pos he, List.filter_singleton, decide_eq_true he, cond_true, List.getLast?_concat]
      rfl
    · rw [if_neg he, ih, List.filter_singleton, decide_eq_false he, cond_false, List.append_nil]

theorem byte_enableAll {endpoints : List Endpoint}
    (h : ∀ e ∈ endpoints, ∀ k, e.endpointControl = some k → k < Dpram.endpointControls)
    (m : Memory Dpram.size) {i : Nat}
    (hi : i < Dpram.endpointControlOffset 0 ∨ Dpram.bufferControlOffset 0 ≤ i) :
    (enableAll endpoints m).byte i = m.byte i := by
  induction endpoints using List.reverseRecOn with
  | nil => rfl
  | append_singleton endpoints e ih =>
    rw [enableAll_concat, byte_enable (h e (List.mem_concat_self ..)) _ hi]
    exact ih fun e' he' => h e' (List.mem_append_left _ he')

end Endpoint

/-! ### Bringing the controller up -/

section

variable {σ : Type} [Board σ]

theorem dpram_replay_enable (endpoints : List Endpoint) (h : Hardware σ) :
    (replay (endpoints.map .enable) h).dpram = Endpoint.enableAll endpoints h.dpram := by
  induction endpoints generalizing h with
  | nil => rfl
  | cons e endpoints ih => exact ih _

/-- The memory is cleared before the endpoints are switched on, and what follows leaves it alone. -/
theorem dpram_bringUp (endpoints : List Endpoint) (h : Hardware σ) :
    (replay (bringUp endpoints) h).dpram = Endpoint.enableAll endpoints .zero := by
  have hlast (h : Hardware σ) (w : Word) :
      (replay [.write .sieCtrl w, .line true] h).dpram = h.dpram := rfl
  rw [bringUp, replay_append, replay_append, hlast, dpram_replay_enable]
  rfl

theorem dpram_shutDown (h : Hardware σ) : (replay shutDown h).dpram = .zero := rfl

/-- The endpoint control words of a device that was just opened. -/
theorem endpointControl_bringUp (endpoints : List Endpoint) (h : Hardware σ) {k : Nat}
    (hk : k < Dpram.endpointControls) :
    (replay (bringUp endpoints) h).toController.endpointControl k =
      (((endpoints.filter (·.endpointControl = some k)).getLast?).map Endpoint.controlWord).getD
        0 := by
  rw [Controller.endpointControl, dpram_bringUp, Endpoint.word_enableAll _ _ hk, Memory.word_zero]

/-- The rest of the packet memory of a device that was just opened. -/
theorem byte_bringUp {endpoints : List Endpoint} (hs : Session.Arranged endpoints)
    (h : Hardware σ) {i : Nat}
    (hi : i < Dpram.endpointControlOffset 0 ∨ Dpram.bufferControlOffset 0 ≤ i) :
    (replay (bringUp endpoints) h).dpram.byte i = 0 := by
  rw [dpram_bringUp, Endpoint.byte_enableAll (fun _ he _ => hs.endpointControl_lt he) _ hi,
    Memory.byte_zero]

end

end UsbGadget
