import LegoTrain.Ota.Frames

/-!
# Frames with one wrong byte

What the loader makes of a frame of the app in which one byte of the length or of the data is
wrong.  The checksum is a sum of bytes over a range that the length field ends, and a checksum
byte of zero means that nothing is checked.

* `checksum_alterData`, `checksum_alterLength` : the sum of the altered frame;
* `altered_rejected` : the wrong byte is noticed, but for the frames of `Unnoticed`;
* `altered_accepted` : two frames that are obeyed.
-/

namespace Ota

open ByteMem Flash Partition App Loader

/-- What the loop does with a frame that it accepts. -/
def execute (env : Env) (s : State) (recvBuf : Mem) : State :=
  let r := cmdProcess env s (recvBuf 0).toNat (cmdData recvBuf) (cmdLen recvBuf)
  if r.2 = success then r.1 else countError r.1

theorem onFrame_eq (env : Env) (s : State) (recvBuf : Mem) :
    onFrame env s recvBuf =
      if checksumOk recvBuf then execute env s recvBuf else ifWrite s (nackBytes cmdCrcError) :=
  rfl

/-! ## Sums of bytes -/

/-- The sum of a byte string. -/
def byteSum (bs : List UInt8) : ℕ := (bs.map UInt8.toNat).sum

@[simp] theorem byteSum_nil : byteSum [] = 0 := rfl

@[simp] theorem byteSum_cons (b : UInt8) (bs : List UInt8) :
    byteSum (b :: bs) = b.toNat + byteSum bs := rfl

theorem byteSum_append (bs cs : List UInt8) : byteSum (bs ++ cs) = byteSum bs + byteSum cs := by
  simp [byteSum]

theorem byteSum_read_one (m : Mem) (a : ℕ) : byteSum (read m a 1) = (m a).toNat := rfl

/-- The bytes behind the end of a zero-initialised buffer's content do not count. -/
theorem byteSum_read_ofBytes (bs : List UInt8) (a n : ℕ) :
    byteSum (read (ofBytes bs) a n) = byteSum ((bs.drop a).take n) := by
  induction n with
  | zero => rfl
  | succ n ih =>
    rw [read_append, byteSum_append, ih, List.take_add_one, byteSum_append, List.getElem?_drop,
      byteSum_read_one]
    congr 1
    by_cases h : a + n < bs.length
    · have hbyte := write_of_mem (m := fun _ => 0) (a := 0) h
      rw [Nat.zero_add] at hbyte
      simp [ofBytes, hbyte, h]
    · have hge : 0 + bs.length ≤ a + n := by omega
      have hbyte := write_of_ge (m := fun _ => 0) hge
      simp [ofBytes, hbyte, h]

/-- One byte of a string is replaced. -/
theorem byteSum_set {bs : List UInt8} {i : ℕ} (h : i < bs.length) (b : UInt8) :
    byteSum (bs.set i b) + bs[i].toNat = byteSum bs + b.toNat := by
  induction bs generalizing i with
  | nil => simp at h
  | cons c bs ih =>
    cases i with
    | zero =>
      simp only [List.set_cons_zero, byteSum_cons, List.getElem_cons_zero]
      omega
    | succ i =>
      have hi := ih (by simpa using h)
      simp only [List.set_cons_succ, byteSum_cons, List.getElem_cons_succ]
      omega

theorem byteSum_take_add_drop (bs : List UInt8) (n : ℕ) :
    byteSum (bs.take n) + byteSum (bs.drop n) = byteSum bs := by
  rw [← byteSum_append, List.take_append_drop]

/-! ## The checksum of a frame -/

/-- A frame with its two length bytes and its data, as they arrive. -/
def rawFrame (command checksum : ℕ) (len0 len1 : UInt8) (data : List UInt8) : List UInt8 :=
  UInt8.ofNat command :: UInt8.ofNat checksum :: len0 :: len1 :: data

theorem createPayload_rawFrame (command : ℕ) (data : List UInt8) :
    createPayload command data = rawFrame command (payloadChecksum data)
      (UInt8.ofNat data.length) (UInt8.ofNat (data.length / 256)) data := rfl

theorem cmdLen_rawFrame (command checksum : ℕ) (len0 len1 : UInt8) (data : List UInt8) :
    cmdLen (ofBytes (rawFrame command checksum len0 len1 data)) = len0.toNat + 256 * len1.toNat := by
  rw [cmdLen, le, read_ofBytes (by simp [rawFrame])]
  simp [rawFrame, leNat]

/-- The sum that the loader computes. -/
theorem checksum_rawFrame (command checksum : ℕ) (len0 len1 : UInt8) (data : List UInt8) :
    Loader.checksum (ofBytes (rawFrame command checksum len0 len1 data)) =
      (len0.toNat + len1.toNat + byteSum (data.take (len0.toNat + 256 * len1.toNat))) % 256 := by
  rw [Loader.checksum, cmdLen_rawFrame]
  have hsum := byteSum_read_ofBytes (rawFrame command checksum len0 len1 data) 2
    (len0.toNat + 256 * len1.toNat + 2)
  rw [byteSum] at hsum
  rw [hsum]
  simp only [rawFrame, List.drop_succ_cons, List.drop_zero, List.take_succ_cons, byteSum_cons]
  omega

/-- When the loader accepts a frame. -/
theorem checksumOk_rawFrame (command : ℕ) {checksum : ℕ} (hlt : checksum < 256)
    (len0 len1 : UInt8) (data : List UInt8) :
    checksumOk (ofBytes (rawFrame command checksum len0 len1 data)) = true ↔
      checksum = 0 ∨
        (len0.toNat + len1.toNat + byteSum (data.take (len0.toNat + 256 * len1.toNat))) % 256 =
          checksum := by
  have hbyte : ofBytes (rawFrame command checksum len0 len1 data) 1 = UInt8.ofNat checksum := rfl
  have hnat : (UInt8.ofNat checksum).toNat = checksum := by
    rw [UInt8.toNat_ofNat', Nat.mod_eq_of_lt hlt]
  have hzero : UInt8.ofNat checksum = 0 ↔ checksum = 0 := by
    rw [← UInt8.toNat_inj, hnat]
    rfl
  rw [checksumOk, decide_eq_true_eq, checksum_rawFrame, hbyte, hnat, hzero]

/-! ## One wrong byte -/

/-- The length that an altered length field gives: byte 2 is the low one, byte 3 the high one. -/
def alteredLen (len i : ℕ) (b : UInt8) : ℕ :=
  if i = 2 then b.toNat + 256 * (len / 256)
  else if i = 3 then len % 256 + 256 * b.toNat
  else len

/-- The byte of a length field. -/
def lenByte (len i : ℕ) : ℕ := if i = 2 then len % 256 else len / 256

/-- The frame is not checked, or the length has become smaller and what the length byte and the
sum have lost makes up a multiple of 256. -/
def Unnoticed (data : List UInt8) (i : ℕ) (b : UInt8) : Prop :=
  payloadChecksum data = 0 ∨
    alteredLen data.length i b < data.length ∧
      (lenByte data.length i - b.toNat + byteSum (data.drop (alteredLen data.length i b))) % 256 = 0

instance (data : List UInt8) (i : ℕ) (b : UInt8) : Decidable (Unnoticed data i b) :=
  inferInstanceAs (Decidable (_ ∨ _))

/-- `payloadChecksum` as a sum of bytes. -/
theorem payloadChecksum_byteSum {data : List UInt8} (hlen : data.length < 65536) :
    payloadChecksum data =
      (data.length % 256 + data.length / 256 + byteSum data) % 256 := by
  rw [payloadChecksum_eq, byteSum, Nat.mod_eq_of_lt (a := data.length / 256) (by omega)]

/-- A wrong byte in the data changes the sum. -/
theorem checksum_alterData {data : List UInt8} (hlen : data.length < 65536) {j : ℕ}
    (hj : j < data.length) {b : UInt8} (hb : data[j] ≠ b) :
    (data.length % 256 + data.length / 256 + byteSum (data.set j b)) % 256
      ≠ payloadChecksum data := by
  have hset := byteSum_set hj b
  have hne : data[j].toNat ≠ b.toNat := fun h => hb (UInt8.toNat_inj.1 h)
  have hlt := data[j].toNat_lt
  have hlt' := b.toNat_lt
  rw [payloadChecksum_byteSum hlen]
  omega

/-- A wrong length changes the sum, unless it is a smaller one and the loss is a multiple of
256. -/
theorem checksum_alterLength {data : List UInt8} (hlen : data.length < 65536) {len0 len1 : ℕ}
    (h0 : len0 < 256) (h1 : len1 < 256)
    (halter : len0 ≠ data.length % 256 ∧ len1 = data.length / 256 ∨
      len0 = data.length % 256 ∧ len1 ≠ data.length / 256) :
    (len0 + len1 + byteSum (data.take (len0 + 256 * len1))) % 256 = payloadChecksum data ↔
      len0 + 256 * len1 < data.length ∧
        (data.length % 256 + data.length / 256 - (len0 + len1) +
          byteSum (data.drop (len0 + 256 * len1))) % 256 = 0 := by
  have hsplit := byteSum_take_add_drop data (len0 + 256 * len1)
  rw [payloadChecksum_byteSum hlen]
  by_cases hlt : len0 + 256 * len1 < data.length
  · simp only [hlt, true_and]
    omega
  · have htake : data.take (len0 + 256 * len1) = data := List.take_of_length_le (by omega)
    rw [htake]
    simp only [hlt, false_and, iff_false]
    omega

section Altered

variable {command : ℕ} {data : List UInt8} (hlen : data.length < 65536) {i : ℕ} (h2 : 2 ≤ i)
  (hi : i < data.length + 4) {b : UInt8} (hb : (createPayload command data)[i]? ≠ some b)
include hlen h2 hi hb

/-- When the loader accepts a frame with one wrong byte. -/
theorem checksumOk_altered_iff :
    checksumOk (ofBytes ((createPayload command data).set i b)) = true ↔ Unnoticed data i b := by
  have hsum := payloadChecksum_lt data
  have hlow : (UInt8.ofNat data.length).toNat = data.length % 256 := UInt8.toNat_ofNat'
  have hhigh : (UInt8.ofNat (data.length / 256)).toNat = data.length / 256 := by
    rw [UInt8.toNat_ofNat']
    omega
  have hlt := b.toNat_lt
  match i, h2 with
  | 2, _ =>
    have hne : b.toNat ≠ data.length % 256 := by
      intro h
      refine hb (congrArg some (UInt8.toNat_inj.1 ?_))
      rw [hlow, h]
    have hlen1 : data.length / 256 < 256 := by omega
    have halter := checksum_alterLength hlen hlt hlen1 (.inl ⟨hne, rfl⟩)
    have hframe := checksumOk_rawFrame command hsum b (UInt8.ofNat (data.length / 256)) data
    rw [hhigh, halter] at hframe
    refine hframe.trans (or_congr_right (and_congr_right fun hlt' => ?_))
    have hloss : data.length % 256 + data.length / 256 - (b.toNat + data.length / 256) =
        data.length % 256 - b.toNat := by omega
    rw [hloss]
    rfl
  | 3, _ =>
    have hne : b.toNat ≠ data.length / 256 := by
      intro h
      refine hb (congrArg some (UInt8.toNat_inj.1 ?_))
      rw [hhigh, h]
    have hlen0 : data.length % 256 < 256 := by omega
    have halter := checksum_alterLength hlen hlen0 hlt (.inr ⟨rfl, hne⟩)
    have hframe := checksumOk_rawFrame command hsum (UInt8.ofNat data.length) b data
    rw [hlow, halter] at hframe
    refine hframe.trans (or_congr_right (and_congr_right fun hlt' => ?_))
    have hloss : data.length % 256 + data.length / 256 - (data.length % 256 + b.toNat) =
        data.length / 256 - b.toNat := by omega
    rw [hloss]
    rfl
  | j + 4, _ =>
    have hj : j < data.length := by omega
    have hne : data[j] ≠ b := by
      intro h
      refine hb ?_
      rw [createPayload_rawFrame]
      simp [rawFrame, h, hj]
    have halter := checksum_alterData hlen hj hne
    have hframe := checksumOk_rawFrame command hsum (UInt8.ofNat data.length)
      (UInt8.ofNat (data.length / 256)) (data.set j b)
    have hall : (data.set j b).take (data.length % 256 + 256 * (data.length / 256)) =
        data.set j b := List.take_of_length_le (by rw [List.length_set]; omega)
    rw [hlow, hhigh, hall] at hframe
    refine hframe.trans (or_congr_right (iff_of_false halter ?_))
    rintro ⟨hlt', -⟩
    exact lt_irrefl _ hlt'

/-- **A wrong byte is noticed**: the loader answers with the checksum error and does nothing
else, exactly when the frame is not one of those of `Unnoticed`; one of those it executes. -/
theorem altered_rejected (env : Env) (s : State) :
    (¬ Unnoticed data i b →
      onFrame env s (ofBytes ((createPayload command data).set i b)) =
        ifWrite s (nackBytes cmdCrcError)) ∧
    (Unnoticed data i b →
      onFrame env s (ofBytes ((createPayload command data).set i b)) =
        execute env s (ofBytes ((createPayload command data).set i b))) := by
  have hiff := checksumOk_altered_iff hlen h2 hi hb
  rw [onFrame_eq]
  constructor
  · intro h
    rw [if_neg (fun hok => h (hiff.1 hok))]
  · intro h
    rw [if_pos (hiff.2 h)]

end Altered

/-- A wrong byte in the data of a frame that is checked. -/
theorem altered_rejected_jedec :
    onFrame idleEnv (freshState fun _ => 0xFF)
        (ofBytes ((createPayload bflbEflashLoaderCmdReadJedec [0]).set 4 1)) =
      ifWrite (freshState fun _ => 0xFF) (nackBytes cmdCrcError) :=
  (altered_rejected (by decide) (by decide) (by decide) (by decide) idleEnv _).1 (by decide)

/-- A page frame whose checksum is zero is not checked, and a wrong byte goes into the flash; a
frame that has lost its last byte, `0xFF`, with its length has the same sum. -/
theorem altered_accepted :
    (onFrame idleEnv (freshState fun _ => 0xFF) (ofBytes
        ((createPayload bflbEflashLoaderCmdFlashWrite [0, 0, 3, 0, 0xF8]).set 8 0))).dev.mem 0x30000
      = 0 ∧
    checksumOk (ofBytes
      ((createPayload bflbEflashLoaderCmdFlashWrite [0, 0, 3, 0, 1, 0xFF]).set 2 5)) = true ∧
    ¬ ∀ (env : Env) (s : State) (command : ℕ) (data : List UInt8) (i : ℕ) (b : UInt8),
      data.length < 65536 → 2 ≤ i → i < data.length + 4 →
      (createPayload command data)[i]? ≠ some b →
      onFrame env s (ofBytes ((createPayload command data).set i b)) =
        ifWrite s (nackBytes cmdCrcError) := by
  have hmem : (onFrame idleEnv (freshState fun _ => 0xFF) (ofBytes
      ((createPayload bflbEflashLoaderCmdFlashWrite [0, 0, 3, 0, 0xF8]).set 8 0))).dev.mem 0x30000
        = 0 := by
    decide
  refine ⟨hmem, by decide, ?_⟩
  intro h
  have hnack := h idleEnv (freshState fun _ => 0xFF) bflbEflashLoaderCmdFlashWrite
    [0, 0, 3, 0, 0xF8] 8 0 (by decide) (by decide) (by decide) (by decide)
  rw [hnack, ifWrite_dev] at hmem
  exact absurd hmem (by decide)

end Ota
