import LegoTrain.Ota.Frames

/-!
# What the app's erase frame erases

The app sends the end of the image as an exclusive address, the loader turns it into a
length as if it were inclusive, and the flash driver rounds to sectors: one byte too much
is erased, which costs a sector when the image ends on a sector boundary.

* `onFrame_eraseFlash` : the effect of the frame on the flash;
* `eraseContained_iff` : the erase keeps to the firmware partition exactly when the image
  does not fill it.
-/

namespace Ota

open ByteMem Flash Partition App Loader

/-- The first address of the firmware partition. -/
def firmwareStart : ℕ := 0x2F000

/-- The length of the firmware partition. -/
def firmwareLen : ℕ := 0xca000

/-- The two addresses of an erase frame arrive unchanged, so the length is one more than
the size of the image. -/
theorem holds_eraseFlash {recvBuf : Mem} {size : ℕ}
    (h : Holds recvBuf (eraseFlashCommandPayload size)) (hsize : size < 2 ^ 31) :
    cmdLen recvBuf = 8 ∧ eraseLen recvBuf = size + 1 := by
  refine holds_eraseRange h ?_
  unfold payloadFlashStartAddress
  omega

/-- An erase frame that nothing disturbs erases the sectors from that of the start of the
slot to that of the byte after the image. -/
theorem onFrame_eraseFlash (env : Env) {s : State} {recvBuf : Mem} {size : ℕ}
    (hrun : s.dev.running = true) (hf : s.dev.fault = .none)
    (h : Holds recvBuf (eraseFlashCommandPayload size)) (hsize : size < 2 ^ 31)
    (hend : sectorEnd (s.iapParam.iapStartAddr + size) < 2 ^ 32) :
    (onFrame env s recvBuf).dev.mem
      = Nor.erase s.dev.mem (sectorStart s.iapParam.iapStartAddr)
          (sectorEnd (s.iapParam.iapStartAddr + size)) := by
  obtain ⟨hlen, hel⟩ := holds_eraseFlash h hsize
  rw [Loader.onFrame_erase env hrun hf (holds_checksumOk h (by simp)) (holds_command h (by decide))
    hlen hel hend]

/-- The erase for an image of `size` bytes erases every sector of the image and nothing
outside the firmware partition. -/
def EraseContained (size : ℕ) : Prop :=
  ∀ (env : Env) (s : State) (recvBuf : Mem), s.dev.running = true → s.dev.fault = .none →
    s.iapParam.iapStartAddr = firmwareStart → Holds recvBuf (eraseFlashCommandPayload size) →
    (∀ x y, firmwareStart ≤ y → y < firmwareStart + size → sectorStart x = sectorStart y →
      (onFrame env s recvBuf).dev.mem x = 0xFF) ∧
    (∀ x, x < firmwareStart ∨ firmwareStart + firmwareLen ≤ x →
      (onFrame env s recvBuf).dev.mem x = s.dev.mem x)

theorem sectorStart_firmwareStart : sectorStart firmwareStart = firmwareStart := rfl

theorem sectorEnd_firmware {size : ℕ} (h : size ≤ firmwareLen) :
    sectorEnd (firmwareStart + size) < 2 ^ 32 := by
  unfold sectorEnd sectorSize firmwareStart firmwareLen at *
  omega

/-- The loader of the shipped table, over a flash that holds zeros. -/
def zeroedState : State :=
  { freshState (fun _ => 0) with iapParam := ⟨firmwareStart, firmwareStart, 0, 1, 1⟩ }

/-- The erase for an image that fills the partition also erases the first sector of the next
partition. -/
theorem erase_next_partition :
    (onFrame idleEnv zeroedState (ofBytes (eraseFlashCommandPayload firmwareLen))).dev.mem
      (firmwareStart + firmwareLen) = 0xFF := by
  have hmem := onFrame_eraseFlash idleEnv (s := zeroedState) rfl rfl
    (holds_ofBytes (eraseFlashCommandPayload firmwareLen)) (by decide)
    (sectorEnd_firmware (Nat.le_refl _))
  rw [hmem]
  exact Nor.erase_inside (by decide) (by decide)

/-- **The erase and the partition.**  An image that fits the partition is erased in full;
the erase keeps to the partition exactly when the image does not fill it. -/
theorem eraseContained_iff {size : ℕ} (h : size ≤ firmwareLen) :
    EraseContained size ↔ size < firmwareLen := by
  have hsize : size < 2 ^ 31 := Nat.lt_of_le_of_lt h (by decide)
  constructor
  · intro hc
    by_contra hfull
    obtain rfl : size = firmwareLen := by omega
    have hout := (hc idleEnv zeroedState _ rfl rfl rfl (holds_ofBytes _)).2
      (firmwareStart + firmwareLen) (.inr (Nat.le_refl _))
    rw [erase_next_partition] at hout
    exact absurd hout (by decide)
  · intro hlt env s recvBuf hrun hf hstart hframe
    have hmem := onFrame_eraseFlash env hrun hf hframe hsize
      (by rw [hstart]; exact sectorEnd_firmware h)
    rw [hstart, sectorStart_firmwareStart] at hmem
    rw [hmem]
    constructor
    · intro x y hlo hhi hxy
      refine Nor.erase_inside ?_ ?_
      · unfold sectorStart sectorSize firmwareStart at *
        omega
      · unfold sectorStart sectorEnd sectorSize firmwareStart at *
        omega
    · intro x hx
      refine Nor.erase_outside ?_
      unfold sectorEnd sectorSize firmwareStart firmwareLen at *
      omega

theorem eraseContained_smallest : EraseContained 0x1000 :=
  (eraseContained_iff (by decide)).2 (by decide)

/-- The image that fills the partition, which is a multiple of 256 bytes. -/
theorem eraseContained_fails_full : 256 ∣ firmwareLen ∧ ¬ EraseContained firmwareLen := by
  refine ⟨by decide, fun hc => ?_⟩
  have hout := (hc idleEnv zeroedState _ rfl rfl rfl (holds_ofBytes _)).2
    (firmwareStart + firmwareLen) (.inr (Nat.le_refl _))
  rw [erase_next_partition] at hout
  exact absurd hout (by decide)

end Ota
