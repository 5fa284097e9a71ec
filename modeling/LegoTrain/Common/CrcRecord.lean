import LegoTrain.Common.SoftCrc
import LegoTrain.Lib.Crc

/-!
# Records that end with their CRC

`BFLB_Soft_CRC32_Ex` is a CRC of `LegoTrain.Lib.Crc` over a register of 32 bits, and so is
`BFLB_Soft_CRC32_Table`, which takes its shifts from a table.

* `bflbSoftCrc32Table_eq` : the table gives the same CRC as the shifts;
* `Sealed` : the last four bytes of a record are the CRC of the others, as in the partition
  table and in the boot header;
* `Sealed.unique` : a `Burst` of four bytes does not lead from one such record to another.
-/

namespace SoftCrc

open ByteMem

/-- The polynomial of the inner loop. -/
def crcPoly : BitVec 32 := 0xEDB88320#32

/-! ## The shifts -/

theorem crcBit_toBitVec (c : UInt32) : (crcBit c).toBitVec = Crc.step crcPoly c.toBitVec := by
  have hbit : c &&& 1 = 1 ↔ c.toBitVec.getLsbD 0 = true := by
    rw [← UInt32.toBitVec_inj, UInt32.toBitVec_and]
    have hone : c.toBitVec &&& (1 : UInt32).toBitVec =
        BitVec.setWidth 32 (BitVec.ofBool (c.toBitVec.getLsbD 0)) :=
      BitVec.and_one_eq_setWidth_ofBool_getLsbD
    rw [hone]
    cases c.toBitVec.getLsbD 0 <;> decide
  by_cases h : c &&& 1 = 1
  · rw [crcBit, if_pos h, Crc.step, if_pos (hbit.1 h)]
    rfl
  · rw [crcBit, if_neg h, Crc.step, if_neg fun hb => h (hbit.2 hb)]
    rfl

theorem toBitVec_toUInt32 (b : UInt8) : b.toUInt32.toBitVec = BitVec.ofNat 32 b.toNat := by
  apply BitVec.eq_of_toNat_eq
  have hb : b.toNat < 2 ^ 32 := Nat.lt_of_lt_of_le b.toNat_lt (by decide)
  rw [BitVec.toNat_ofNat, Nat.mod_eq_of_lt hb]
  rfl

theorem crcByte_toBitVec (c : UInt32) (b : UInt8) :
    (crcByte c b).toBitVec = Crc.feed crcPoly c.toBitVec [b] := by
  simp only [crcByte, crcBit_toBitVec, UInt32.toBitVec_xor, toBitVec_toUInt32, Crc.feed, Crc.steps,
    List.foldl_cons, List.foldl_nil]

theorem foldl_crcByte_toBitVec (c : UInt32) (bs : List UInt8) :
    (bs.foldl crcByte c).toBitVec = Crc.feed crcPoly c.toBitVec bs := by
  induction bs generalizing c with
  | nil => rfl
  | cons b bs ih => rw [List.foldl_cons, ih, crcByte_toBitVec, ← Crc.feed_append,
      List.singleton_append]

/-! ## The table -/

/-- `crc32Tab`. -/
def crc32Tab : Array UInt32 := #[
    0x00000000, 0x77073096, 0xee0e612c, 0x990951ba, 0x076dc419, 0x706af48f, 0xe963a535, 0x9e6495a3,
    0x0edb8832, 0x79dcb8a4, 0xe0d5e91e, 0x97d2d988, 0x09b64c2b, 0x7eb17cbd, 0xe7b82d07, 0x90bf1d91,
    0x1db71064, 0x6ab020f2, 0xf3b97148, 0x84be41de, 0x1adad47d, 0x6ddde4eb, 0xf4d4b551, 0x83d385c7,
    0x136c9856, 0x646ba8c0, 0xfd62f97a, 0x8a65c9ec, 0x14015c4f, 0x63066cd9, 0xfa0f3d63, 0x8d080df5,
    0x3b6e20c8, 0x4c69105e, 0xd56041e4, 0xa2677172, 0x3c03e4d1, 0x4b04d447, 0xd20d85fd, 0xa50ab56b,
    0x35b5a8fa, 0x42b2986c, 0xdbbbc9d6, 0xacbcf940, 0x32d86ce3, 0x45df5c75, 0xdcd60dcf, 0xabd13d59,
    0x26d930ac, 0x51de003a, 0xc8d75180, 0xbfd06116, 0x21b4f4b5, 0x56b3c423, 0xcfba9599, 0xb8bda50f,
    0x2802b89e, 0x5f058808, 0xc60cd9b2, 0xb10be924, 0x2f6f7c87, 0x58684c11, 0xc1611dab, 0xb6662d3d,
    0x76dc4190, 0x01db7106, 0x98d220bc, 0xefd5102a, 0x71b18589, 0x06b6b51f, 0x9fbfe4a5, 0xe8b8d433,
    0x7807c9a2, 0x0f00f934, 0x9609a88e, 0xe10e9818, 0x7f6a0dbb, 0x086d3d2d, 0x91646c97, 0xe6635c01,
    0x6b6b51f4, 0x1c6c6162, 0x856530d8, 0xf262004e, 0x6c0695ed, 0x1b01a57b, 0x8208f4c1, 0xf50fc457,
    0x65b0d9c6, 0x12b7e950, 0x8bbeb8ea, 0xfcb9887c, 0x62dd1ddf, 0x15da2d49, 0x8cd37cf3, 0xfbd44c65,
    0x4db26158, 0x3ab551ce, 0xa3bc0074, 0xd4bb30e2, 0x4adfa541, 0x3dd895d7, 0xa4d1c46d, 0xd3d6f4fb,
    0x4369e96a, 0x346ed9fc, 0xad678846, 0xda60b8d0, 0x44042d73, 0x33031de5, 0xaa0a4c5f, 0xdd0d7cc9,
    0x5005713c, 0x270241aa, 0xbe0b1010, 0xc90c2086, 0x5768b525, 0x206f85b3, 0xb966d409, 0xce61e49f,
    0x5edef90e, 0x29d9c998, 0xb0d09822, 0xc7d7a8b4, 0x59b33d17, 0x2eb40d81, 0xb7bd5c3b, 0xc0ba6cad,
    0xedb88320, 0x9abfb3b6, 0x03b6e20c, 0x74b1d29a, 0xead54739, 0x9dd277af, 0x04db2615, 0x73dc1683,
    0xe3630b12, 0x94643b84, 0x0d6d6a3e, 0x7a6a5aa8, 0xe40ecf0b, 0x9309ff9d, 0x0a00ae27, 0x7d079eb1,
    0xf00f9344, 0x8708a3d2, 0x1e01f268, 0x6906c2fe, 0xf762575d, 0x806567cb, 0x196c3671, 0x6e6b06e7,
    0xfed41b76, 0x89d32be0, 0x10da7a5a, 0x67dd4acc, 0xf9b9df6f, 0x8ebeeff9, 0x17b7be43, 0x60b08ed5,
    0xd6d6a3e8, 0xa1d1937e, 0x38d8c2c4, 0x4fdff252, 0xd1bb67f1, 0xa6bc5767, 0x3fb506dd, 0x48b2364b,
    0xd80d2bda, 0xaf0a1b4c, 0x36034af6, 0x41047a60, 0xdf60efc3, 0xa867df55, 0x316e8eef, 0x4669be79,
    0xcb61b38c, 0xbc66831a, 0x256fd2a0, 0x5268e236, 0xcc0c7795, 0xbb0b4703, 0x220216b9, 0x5505262f,
    0xc5ba3bbe, 0xb2bd0b28, 0x2bb45a92, 0x5cb36a04, 0xc2d7ffa7, 0xb5d0cf31, 0x2cd99e8b, 0x5bdeae1d,
    0x9b64c2b0, 0xec63f226, 0x756aa39c, 0x026d930a, 0x9c0906a9, 0xeb0e363f, 0x72076785, 0x05005713,
    0x95bf4a82, 0xe2b87a14, 0x7bb12bae, 0x0cb61b38, 0x92d28e9b, 0xe5d5be0d, 0x7cdcefb7, 0x0bdbdf21,
    0x86d3d2d4, 0xf1d4e242, 0x68ddb3f8, 0x1fda836e, 0x81be16cd, 0xf6b9265b, 0x6fb077e1, 0x18b74777,
    0x88085ae6, 0xff0f6a70, 0x66063bca, 0x11010b5c, 0x8f659eff, 0xf862ae69, 0x616bffd3, 0x166ccf45,
    0xa00ae278, 0xd70dd2ee, 0x4e048354, 0x3903b3c2, 0xa7672661, 0xd06016f7, 0x4969474d, 0x3e6e77db,
    0xaed16a4a, 0xd9d65adc, 0x40df0b66, 0x37d83bf0, 0xa9bcae53, 0xdebb9ec5, 0x47b2cf7f, 0x30b5ffe9,
    0xbdbdf21c, 0xcabac28a, 0x53b39330, 0x24b4a3a6, 0xbad03605, 0xcdd70693, 0x54de5729, 0x23d967bf,
    0xb3667a2e, 0xc4614ab8, 0x5d681b02, 0x2a6f2b94, 0xb40bbe37, 0xc30c8ea1, 0x5a05df1b, 0x2d02ef8d]

/-- One pass of the loop over the bytes, with the table. -/
def crcTableByte (crc : UInt32) (b : UInt8) : UInt32 :=
  crc32Tab.getD ((crc ^^^ b.toUInt32) &&& 0xFF).toNat 0 ^^^ (crc >>> 8)

/-- `BFLB_Soft_CRC32_Table`. -/
def bflbSoftCrc32Table (dataIn : List UInt8) : UInt32 :=
  dataIn.foldl crcTableByte (0 ^^^ 0xffffffff) ^^^ 0xffffffff

theorem crc32Tab_getD : ∀ i : Fin 256,
    (crc32Tab.getD i 0).toBitVec = Crc.tableEntry crcPoly (UInt8.ofNat i) := by
  decide +kernel

theorem crcTableByte_eq (crc : UInt32) (b : UInt8) : crcTableByte crc b = crcByte crc b := by
  have hlow : ((crc ^^^ b.toUInt32) &&& 0xFF).toNat = (crc ^^^ b.toUInt32).toNat % 256 := by
    rw [UInt32.toNat_and]
    exact Nat.and_two_pow_sub_one_eq_mod _ 8
  have hlt : ((crc ^^^ b.toUInt32) &&& 0xFF).toNat < 256 := by
    rw [hlow]
    exact Nat.mod_lt _ (by decide)
  have hindex : UInt8.ofNat ((crc ^^^ b.toUInt32) &&& 0xFF).toNat =
      UInt8.ofNat (crc.toBitVec ^^^ BitVec.ofNat 32 b.toNat).toNat := by
    rw [hlow, ← toBitVec_toUInt32, ← UInt32.toBitVec_xor]
    apply UInt8.toNat_inj.1
    rw [UInt8.toNat_ofNat', UInt8.toNat_ofNat', Nat.mod_mod_of_dvd _ (by decide)]
    rfl
  have hentry := crc32Tab_getD ⟨_, hlt⟩
  apply UInt32.toBitVec_inj.1
  rw [crcByte_toBitVec, Crc.feed_table _ _ _ (by decide), ← hindex, ← hentry]
  rfl

/-- **The table computes the CRC of the loop**, of any string. -/
theorem bflbSoftCrc32Table_eq (dataIn : List UInt8) :
    bflbSoftCrc32Table dataIn = bflbSoftCrc32Ex 0 dataIn := by
  have hstep : crcTableByte = crcByte := funext fun crc => funext fun b => crcTableByte_eq crc b
  have hnot : ∀ x : UInt32, x ^^^ 0xffffffff = ~~~ x := by
    intro x
    apply UInt32.toBitVec_inj.1
    rw [UInt32.toBitVec_xor, UInt32.toBitVec_not]
    exact BitVec.xor_allOnes
  rw [bflbSoftCrc32Table, hstep, hnot]
  rfl

/-! ## Sealed records -/

/-- The four bytes after the `n` bytes at `a` are their CRC. -/
def Sealed (m : Mem) (a n : ℕ) : Prop := le m (a + n) 4 = bflbSoftCrc32 (read m a n)

/-- A string that is written with its CRC is sealed. -/
theorem sealed_write (m : Mem) (a : ℕ) (bs : List UInt8) :
    Sealed (write m a (bs ++ leBytes 4 (bflbSoftCrc32 bs))) a bs.length := by
  have hlen : (bs ++ leBytes 4 (bflbSoftCrc32 bs)).length = bs.length + 4 := by simp
  have hbody : read (write m a (bs ++ leBytes 4 (bflbSoftCrc32 bs))) (a + 0) bs.length = bs := by
    rw [read_write_sub (by omega), List.drop_zero, List.take_left]
  have hcrc : read (write m a (bs ++ leBytes 4 (bflbSoftCrc32 bs))) (a + bs.length) 4 =
      leBytes 4 (bflbSoftCrc32 bs) := by
    rw [read_write_sub (by omega), List.drop_left, List.take_of_length_le (by simp)]
  rw [Nat.add_zero] at hbody
  rw [Sealed, le, hcrc, hbody, leNat_leBytes_of_lt (bflbSoftCrc32_lt bs)]

/-- What the register holds after a record and its CRC, whatever the record is. -/
def residue : BitVec 32 := Crc.steps crcPoly 32 (BitVec.allOnes 32)

/-- A record is sealed when the register ends in the residue. -/
theorem sealed_iff {m : Mem} {a n : ℕ} :
    Sealed m a n ↔ Crc.feed crcPoly (BitVec.allOnes 32) (read m a (n + 4)) = residue := by
  have hcrc : bflbSoftCrc32 (read m a n) =
      (~~~ Crc.feed crcPoly (BitVec.allOnes 32) (read m a n)).toNat := by
    have hfold := foldl_crcByte_toBitVec (~~~ 0) (read m a n)
    rw [bflbSoftCrc32, bflbSoftCrc32Ex, ← UInt32.toNat_toBitVec, UInt32.toBitVec_not, hfold]
    rfl
  have hlt : le m (a + n) 4 < 2 ^ 32 := le_lt m (a + n) 4
  have hfit : 8 * (read m (a + n) 4).length ≤ 32 := by simp
  rw [read_append, Crc.feed_append, Crc.feed_eq crcPoly hfit, length_read, residue, Sealed, hcrc]
  generalize Crc.feed crcPoly (BitVec.allOnes 32) (read m a n) = c
  constructor
  · intro h
    have hfield : BitVec.ofNat 32 (leNat (read m (a + n) 4)) = ~~~ c := by
      apply BitVec.eq_of_toNat_eq
      rw [BitVec.toNat_ofNat, ← h]
      exact Nat.mod_eq_of_lt hlt
    rw [hfield, ← BitVec.xor_allOnes, ← BitVec.xor_assoc, BitVec.xor_self, BitVec.zero_xor]
  · intro h
    have hones := Crc.steps_injective crcPoly (by decide) h
    have hfield : BitVec.ofNat 32 (leNat (read m (a + n) 4)) = ~~~ c := by
      rw [← BitVec.xor_allOnes, ← hones, ← BitVec.xor_assoc, BitVec.xor_self, BitVec.zero_xor]
    rw [← hfield, BitVec.toNat_ofNat]
    exact (Nat.mod_eq_of_lt hlt).symm

/-- The memories differ in the four bytes from `i` on, at most. -/
def Burst (m m' : Mem) (i : ℕ) : Prop := ∀ x, m' x ≠ m x → i ≤ x ∧ x < i + 4

/-- **A burst does not lead to another sealed record.** -/
theorem Sealed.unique {m m' : Mem} {a n i : ℕ} (h : Sealed m a n) (h' : Sealed m' a n)
    (hburst : Burst m m' i) :
    read m' a (n + 4) = read m a (n + 4) := by
  -- four bytes of the record that hold what the burst changes in it
  obtain ⟨p, hp, hin⟩ : ∃ p, p ≤ n ∧
      ∀ x, m' x ≠ m x → a ≤ x → x < a + (n + 4) → a + p ≤ x ∧ x < a + p + 4 := by
    refine ⟨min (i - a) n, Nat.min_le_right _ _, fun x hx ha hend => ?_⟩
    have hburst := hburst x hx
    omega
  have hcut : ∀ m : Mem, read m a (n + 4) =
      read m a p ++ read m (a + p) 4 ++ read m (a + p + 4) (n - p) := by
    intro m
    have hlen : n + 4 = p + 4 + (n - p) := by omega
    rw [hlen, read_append, read_append, Nat.add_assoc a p 4]
  have hpre : read m' a p = read m a p := by
    refine read_congr fun j hj => by_contra fun hne => ?_
    have hat := hin (a + j) hne (by omega) (by omega)
    omega
  have hpost : read m' (a + p + 4) (n - p) = read m (a + p + 4) (n - p) := by
    refine read_congr fun j hj => by_contra fun hne => ?_
    have hat := hin (a + p + 4 + j) hne (by omega) (by omega)
    omega
  have hres := (sealed_iff.1 h').trans (sealed_iff.1 h).symm
  rw [hcut, hcut m, hpre, hpost] at hres
  have hmid := Crc.feed_burst crcPoly (by decide) (by simp) (by simp) hres
  rw [hcut, hcut m, hpre, hpost, hmid]

end SoftCrc
