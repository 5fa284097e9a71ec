import LegoTrain.Boot.Header
import LegoTrain.Firmware.Creator

/-!
# The layout of the emitted header

The header of the app is a packed structure: the fields that are written from a key, and
between them the CRCs, the boot configuration, the length and the hash of the image.

* `slots` : what stands in the header, with its width;
* `sealedHeader_eq` : the header is the encoding of these slots, padded;
* `slot_read` : what a memory that holds the header has at the offset of a slot.
-/

namespace Firmware

open ByteMem SoftCrc Layout Boot

/-! ## The boot configuration -/

/-- The numbers of the boot configuration are in range. -/
def BitsInRange (v : Key → ℕ) : Prop := ∀ p ∈ bootCfgParts, v p.key < 2 ^ p.bits

theorem bitField_ktWord_sign (v : Key → ℕ) : bitField (ktWord v) 0 2 = 0 := by
  unfold ktWord
  simp (disch := decide) only [bitField_or, bitField_of_le, Nat.or_zero]

theorem or_lt_four {v : Key → ℕ} (h : BitsInRange v) : v .sign ||| v .encryptType < 2 ^ 2 :=
  Nat.or_lt_two_pow (h ⟨.sign, 0, 2⟩ (by decide)) (h ⟨.encryptType, 2, 2⟩ (by decide))

/-- What stands at `encrypt_type` has `sign` in it. -/
theorem bitField_ktWord_encryptType {v : Key → ℕ} (h : BitsInRange v) :
    bitField (ktWord v) 2 2 = v .sign ||| v .encryptType := by
  unfold ktWord
  simp (disch := decide) only [bitField_or, bitField_of_le, Nat.or_zero,
    bitField_shiftLeft (or_lt_four h)]

/-- The other parts of the boot configuration stand where they should. -/
theorem bitField_ktWord {v : Key → ℕ} (h : BitsInRange v) {p : BitPart} (hp : p ∈ bootCfgParts)
    (hlo : 4 ≤ p.lo) : bitField (ktWord v) p.lo p.bits = v p.key := by
  have hat : bitField (v p.key <<< p.lo) p.lo p.bits = v p.key := bitField_shiftLeft (h p hp)
  -- every part is below the parts after it
  have hlow : ∀ q ∈ bootCfgParts, ∀ lo n, q.lo + q.bits ≤ lo →
      bitField (v q.key <<< q.lo) lo n = 0 := fun q hq lo n hle => bitField_of_lt (h q hq) hle
  have h2 : ∀ lo n, 4 ≤ lo → bitField ((v .sign ||| v .encryptType) <<< 2) lo n = 0 :=
    fun lo n hle => bitField_of_lt (or_lt_four h) hle
  have h4 := hlow ⟨.keySel, 4, 4⟩ (by decide)
  have h8 := hlow ⟨.noSegment, 8, 1⟩ (by decide)
  have h9 := hlow ⟨.cacheEnable, 9, 1⟩ (by decide)
  have h10 := hlow ⟨.notloadInBootrom, 10, 1⟩ (by decide)
  have h11 := hlow ⟨.aesRegionLock, 11, 1⟩ (by decide)
  have h12 := hlow ⟨.cacheWayDisable, 12, 4⟩ (by decide)
  have h16 := hlow ⟨.crcIgnore, 16, 1⟩ (by decide)
  have h17 := hlow ⟨.hashIgnore, 17, 2⟩ (by decide)
  simp only [bootCfgParts, List.mem_cons, List.not_mem_nil, or_false] at hp
  unfold ktWord
  rcases hp with rfl | rfl | rfl | rfl | rfl | rfl | rfl | rfl | rfl | rfl | rfl
  · cases hlo
  · exact absurd hlo (by decide)
  all_goals
    simp (disch := decide) only [bitField_or, bitField_of_le, hat, h2, h4, h8, h9, h10, h11, h12,
      h16, h17, Nat.or_zero, Nat.zero_or]

/-- Without `sign` every part of the boot configuration stands where it should. -/
theorem bitField_part {v : Key → ℕ} (hbits : BitsInRange v) (hsign : v .sign = 0) {p : BitPart}
    (hp : p ∈ bootCfgParts) : bitField (ktWord v) p.lo p.bits = v p.key := by
  have hcases : ∀ p ∈ bootCfgParts,
      p = ⟨.sign, 0, 2⟩ ∨ p = ⟨.encryptType, 2, 2⟩ ∨ 4 ≤ p.lo := by decide
  rcases hcases p hp with rfl | rfl | hlo
  · exact (bitField_ktWord_sign v).trans hsign.symm
  · rw [bitField_ktWord_encryptType hbits, hsign, Nat.zero_or]
  · exact bitField_ktWord hbits hp hlo

/-! ## The slots -/

/-- What stands in the header. -/
inductive Slot
  | field (f : Field)
  | flashCrc
  | clockCrc
  | bootCfg
  | imgLen
  | hash
  | crc
  deriving DecidableEq, Repr

/-- The slots of a table of fields. -/
def fieldSlots (l : List Field) : List (Slot × ℕ) := l.map fun f => (.field f, f.width)

/-- The header before its CRC. -/
def crcSlots : List (Slot × ℕ) :=
  fieldSlots ktHeaderFields ++ (.field ⟨.flashcfgMagicCode, .hex, 4⟩, 4) ::
    (fieldSlots ktFlashFields ++ (.flashCrc, 4) :: (.field ⟨.clkcfgMagicCode, .hex, 4⟩, 4) ::
      (fieldSlots ktClockFields ++ (.clockCrc, 4) :: (.bootCfg, 4) :: (.imgLen, 4) ::
        (fieldSlots ktImageFields ++ (.hash, 32) :: fieldSlots ktPtFields)))

/-- The header. -/
def slots : List (Slot × ℕ) := crcSlots ++ [(.crc, 4)]

theorem slots_size : (slots.map Prod.snd).sum = bootHeaderConfigSize := by
  decide +kernel

section

variable (sha256 : List UInt8 → List UInt8)

/-- The bytes of a slot. -/
def slotBytes (word : ℕ) (v : Key → ℕ) (data : List UInt8) : Slot → List UInt8
  | .field f => fieldBytes v f
  | .flashCrc => getCrc32 (ktFlashFields.flatMap (fieldBytes v))
  | .clockCrc => getCrc32 (ktClockFields.flatMap (fieldBytes v))
  | .bootCfg => leBytes 4 word
  | .imgLen => leBytes 4 data.length
  | .hash => sha256 data
  | .crc => getCrc32 (headerOf sha256 word v data)

theorem encode_fieldSlots (word : ℕ) (v : Key → ℕ) (data : List UInt8) (l : List Field) :
    encode (fieldSlots l) (slotBytes sha256 word v data) = l.flatMap (fieldBytes v) := by
  rw [encode, fieldSlots, List.flatMap_map]
  rfl

theorem headerOf_eq (word : ℕ) (v : Key → ℕ) (data : List UInt8) :
    headerOf sha256 word v data = encode crcSlots (slotBytes sha256 word v data) := by
  unfold headerOf ktAssemble ktSeal crcSlots
  simp only [encode_append, encode_cons, encode_fieldSlots, List.append_assoc]
  rw [intToBytes_ofNat (Nat.le_refl 4)]
  rfl

/-- **The header is the encoding of its slots, padded.** -/
theorem sealedHeader_eq (word : ℕ) (v : Key → ℕ) (data : List UInt8) :
    sealedHeader sha256 word v data =
      padTo 0x1000 0xFF (encode slots (slotBytes sha256 word v data)) := by
  have hcrc : encode [(Slot.crc, 4)] (slotBytes sha256 word v data) =
      getCrc32 (headerOf sha256 word v data) := List.append_nil _
  rw [sealedHeader, slots, encode_append, hcrc, ← headerOf_eq]

theorem fits_fieldSlots (word : ℕ) (v : Key → ℕ) (data : List UInt8) (l : List Field) :
    Fits (fieldSlots l) (slotBytes sha256 word v data) := by
  intro s hs
  obtain ⟨f, -, rfl⟩ := List.mem_map.1 hs
  exact length_leBytes f.width (v f.key)

variable {sha256}
variable (hsha : ∀ bs, (sha256 bs).length = 32)

include hsha

theorem fits_crcSlots (word : ℕ) (v : Key → ℕ) (data : List UInt8) :
    Fits crcSlots (slotBytes sha256 word v data) := by
  have hfields := fits_fieldSlots sha256 word v data
  have hle : ∀ n, (leBytes 4 n).length = 4 := length_leBytes 4
  exact (hfields _).append (.cons (hle _) ((hfields _).append (.cons (hle _) (.cons (hle _)
    ((hfields _).append (.cons (hle _) (.cons (hle _) (.cons (hle _)
      ((hfields _).append (.cons (hsha _) (hfields _)))))))))))

theorem fits_slots (word : ℕ) (v : Key → ℕ) (data : List UInt8) :
    Fits slots (slotBytes sha256 word v data) := by
  refine (fits_crcSlots hsha word v data).append (.cons (length_leBytes 4 _) ?_)
  intro s hs
  cases hs

theorem length_encode_slots (word : ℕ) (v : Key → ℕ) (data : List UInt8) :
    (encode slots (slotBytes sha256 word v data)).length = bootHeaderConfigSize := by
  rw [length_encode (fits_slots hsha word v data), slots_size]

theorem sealedHeader_eq_append (word : ℕ) (v : Key → ℕ) (data : List UInt8) :
    sealedHeader sha256 word v data = encode slots (slotBytes sha256 word v data) ++
      List.replicate (0x1000 - bootHeaderConfigSize) 0xFF := by
  rw [sealedHeader_eq, padTo_eq, length_encode_slots hsha]

theorem length_sealedHeader (word : ℕ) (v : Key → ℕ) (data : List UInt8) :
    (sealedHeader sha256 word v data).length = 0x1000 := by
  rw [sealedHeader_eq_append hsha, List.length_append, length_encode_slots hsha,
    List.length_replicate]
  rfl

/-! ## Reading the header -/

variable {word : ℕ} {v : Key → ℕ} {data : List UInt8}

/-- The header at the start of a buffer. -/
theorem read_sealedHeader (rest : List UInt8) :
    read (ofBytes (sealedHeader sha256 word v data ++ rest)) 0 bootHeaderConfigSize =
      encode slots (slotBytes sha256 word v data) := by
  have hlen := length_encode_slots hsha word v data
  rw [sealedHeader_eq_append hsha, List.append_assoc, read_ofBytes, List.drop_zero,
    List.take_left' hlen]
  rw [List.length_append, hlen]
  omega

/-- **What a memory that holds the header has at the offset of a slot.** -/
theorem slot_read {h : Mem} (hh : read h 0 bootHeaderConfigSize =
      encode slots (slotBytes sha256 word v data)) {s : Slot} (hs : s ∈ slots.map Prod.fst) :
    read h (offset slots s) (width slots s) = slotBytes sha256 word v data s := by
  have hmember := member_encode (fits_slots hsha word v data) hs []
  have hle := offset_add_width_le hs
  rw [slots_size] at hle
  rw [List.append_nil, ← hh, member, read_sub hle, Nat.zero_add] at hmember
  exact hmember

/-- What it has where a run of slots stands. -/
theorem part_read {h : Mem} (hh : read h 0 bootHeaderConfigSize =
      encode slots (slotBytes sha256 word v data)) {l₁ l₂ l₃ : List (Slot × ℕ)}
    (hs : slots = l₁ ++ (l₂ ++ l₃)) :
    read h (l₁.map Prod.snd).sum (l₂.map Prod.snd).sum =
      encode l₂ (slotBytes sha256 word v data) := by
  have hfits := fits_slots hsha word v data
  have hsum := slots_size
  rw [hs] at hh hfits hsum
  rw [List.map_append, List.map_append, List.sum_append, List.sum_append] at hsum
  have hpart := part_encode l₃ (fun f hf => hfits f (List.mem_append_left _ hf))
    (fun f hf => hfits f (List.mem_append_right l₁ (List.mem_append_left l₃ hf)))
  rw [← hh, read_sub (by omega), Nat.zero_add] at hpart
  exact hpart

/-- The CRC of the header is right. -/
theorem crc32_read {h : Mem} (hh : read h 0 bootHeaderConfigSize =
      encode slots (slotBytes sha256 word v data)) :
    BootHeader.crc32 h = bflbSoftCrc32 (read h 0 (bootHeaderConfigSize - 4)) := by
  have hcrc : read h 172 4 = leBytes 4 (bflbSoftCrc32 (headerOf sha256 word v data)) :=
    slot_read hsha hh (s := .crc) (by decide +kernel)
  have hslots : slots = [] ++ (crcSlots ++ [(.crc, 4)]) := rfl
  have hpart : read h 0 (bootHeaderConfigSize - 4) = encode crcSlots _ := part_read hsha hh hslots
  rw [BootHeader.crc32, le_of_read hcrc, hpart, headerOf_eq, Nat.mod_eq_of_lt (bflbSoftCrc32_lt _)]

/-- The word of the boot configuration. -/
theorem bootCfg_read {h : Mem} (hh : read h 0 bootHeaderConfigSize =
      encode slots (slotBytes sha256 word v data)) :
    BootHeader.bootCfg h = word % 2 ^ 32 := by
  have hword : read h 116 4 = leBytes 4 word := slot_read hsha hh (s := .bootCfg) (by decide +kernel)
  exact le_of_read hword

end

/-- A SHA-256 that is right for the empty string. -/
def sha256Empty (_ : List UInt8) : List UInt8 :=
  [0xe3, 0xb0, 0xc4, 0x42, 0x98, 0xfc, 0x1c, 0x14, 0x9a, 0xfb, 0xf4, 0xc8, 0x99, 0x6f, 0xb9, 0x24,
   0x27, 0xae, 0x41, 0xe4, 0x64, 0x9b, 0x93, 0x4c, 0xa4, 0x95, 0x99, 0x1b, 0x78, 0x52, 0xb8, 0x55]

end Firmware
