import Mathlib.Data.List.GetD
import Mathlib.Algebra.Order.Ring.Int

/-!
# Byte memories and little-endian numbers

A memory maps offsets to bytes.  The same type serves for a flash array, for a
buffer in RAM and for a structure overlaid on either of them, so that a field of
a packed structure is a read at a fixed offset.

* `read` and `write` move byte strings out of and into a memory, and the
  `read_write` lemmas say where a write is seen and where it is not;
* `leBytes` and `leNat` are the little-endian codec: `leNat_leBytes` is the
  round trip and `leBytes_leNat` its converse.
-/

namespace ByteMem

/-- A byte-addressed memory. -/
abbrev Mem := ℕ → UInt8

/-! ## Reading and writing byte strings -/

/-- The `n` bytes from offset `a` on. -/
def read (m : Mem) (a n : ℕ) : List UInt8 := (List.range n).map fun i => m (a + i)

/-- Store the byte string `bs` from offset `a` on. -/
def write (m : Mem) (a : ℕ) (bs : List UInt8) : Mem :=
  fun x => if a ≤ x then bs.getD (x - a) (m x) else m x

@[simp] theorem length_read (m : Mem) (a n : ℕ) : (read m a n).length = n := by
  simp [read]

@[simp] theorem read_zero (m : Mem) (a : ℕ) : read m a 0 = [] := rfl

@[simp] theorem getElem_read (m : Mem) (a n i : ℕ) (h : i < (read m a n).length) :
    (read m a n)[i] = m (a + i) := by
  simp [read]

theorem getD_read {m : Mem} {a n i : ℕ} (h : i < n) (d : UInt8) :
    (read m a n).getD i d = m (a + i) := by
  rw [List.getD_eq_getElem _ _ (by simpa using h), getElem_read]

/-- Two reads agree as soon as the bytes they fetch do. -/
theorem read_congr {m m' : Mem} {a b n : ℕ} (h : ∀ i, i < n → m (a + i) = m' (b + i)) :
    read m a n = read m' b n := by
  refine List.map_congr_left fun i hi => h i ?_
  simpa using hi

theorem read_append (m : Mem) (a n k : ℕ) :
    read m a (n + k) = read m a n ++ read m (a + n) k := by
  simp [read, List.range_add, Nat.add_assoc]

theorem take_read {m : Mem} {a n k : ℕ} (h : k ≤ n) : (read m a n).take k = read m a k := by
  obtain ⟨j, rfl⟩ := Nat.exists_eq_add_of_le h
  rw [read_append, List.take_left' (length_read m a k)]

theorem drop_read {m : Mem} {a n k : ℕ} (h : k ≤ n) :
    (read m a n).drop k = read m (a + k) (n - k) := by
  obtain ⟨j, rfl⟩ := Nat.exists_eq_add_of_le h
  rw [read_append, List.drop_left' (length_read m a k), Nat.add_sub_cancel_left]

/-- The part of a read that is itself a read. -/
theorem read_sub {m : Mem} {a n o k : ℕ} (h : o + k ≤ n) :
    ((read m a n).drop o).take k = read m (a + o) k := by
  rw [drop_read (by omega), take_read (by omega)]

/-- Parts of equal reads are equal. -/
theorem read_sub_congr {m m' : Mem} {a b n o k : ℕ} (h : read m a n = read m' b n)
    (hk : o + k ≤ n) : read m (a + o) k = read m' (b + o) k := by
  rw [← read_sub hk, ← read_sub hk, h]

/-- Splitting a byte string along a memory: a read equals `bs` exactly when the memory
holds `bs` byte by byte. -/
theorem read_eq_iff {m : Mem} {a : ℕ} {bs : List UInt8} :
    read m a bs.length = bs ↔ ∀ i, i < bs.length → m (a + i) = bs.getD i 0 := by
  constructor
  · intro h i hi
    have h' := congrArg (fun l => l.getD i 0) h
    simpa only [getD_read hi] using h'
  · intro h
    refine List.ext_getElem (by simp) fun i h1 h2 => ?_
    rw [getElem_read, h i h2, List.getD_eq_getElem _ _ h2]

@[simp] theorem write_nil (m : Mem) (a : ℕ) : write m a [] = m := by
  funext x
  simp [write]

theorem write_of_lt {m : Mem} {a x : ℕ} {bs : List UInt8} (h : x < a) :
    write m a bs x = m x := by
  rw [write, if_neg (by omega)]

theorem write_of_ge {m : Mem} {a x : ℕ} {bs : List UInt8} (h : a + bs.length ≤ x) :
    write m a bs x = m x := by
  rw [write, if_pos (by omega), List.getD_eq_default _ _ (by omega)]

theorem write_of_mem {m : Mem} {a i : ℕ} {bs : List UInt8} (h : i < bs.length) :
    write m a bs (a + i) = bs.getD i 0 := by
  rw [write, if_pos (by omega), Nat.add_sub_cancel_left, List.getD_eq_getElem _ _ h,
    List.getD_eq_getElem _ _ h]

/-- A write changes nothing outside the range it covers. -/
theorem write_outside {m : Mem} {a x : ℕ} {bs : List UInt8}
    (h : x < a ∨ a + bs.length ≤ x) : write m a bs x = m x := by
  rcases h with h | h
  · exact write_of_lt h
  · exact write_of_ge h

/-- What has been written is read back. -/
theorem read_write_same (m : Mem) (a : ℕ) (bs : List UInt8) :
    read (write m a bs) a bs.length = bs :=
  read_eq_iff.2 fun _ hi => write_of_mem hi

/-- A part of what has been written is read back. -/
theorem read_write_sub {m : Mem} {a o n : ℕ} {bs : List UInt8} (h : o + n ≤ bs.length) :
    read (write m a bs) (a + o) n = (bs.drop o).take n := by
  rw [← read_sub h (m := write m a bs) (a := a), read_write_same]

/-- A read that misses the written range sees the old memory. -/
theorem read_write_disjoint {m : Mem} {a b n : ℕ} {bs : List UInt8}
    (h : b + n ≤ a ∨ a + bs.length ≤ b) : read (write m a bs) b n = read m b n := by
  refine read_congr fun i hi => write_outside ?_
  omega

/-- The next part of a byte string, written behind what is there already. -/
theorem read_write_next {m : Mem} {n : ℕ} {bs part : List UInt8} (h : read m 0 n = bs.take n)
    (hp : part = (bs.drop n).take part.length) :
    read (write m n part) 0 (n + part.length) = bs.take (n + part.length) := by
  have hold : read (write m n part) 0 n = read m 0 n := read_write_disjoint (.inl (by omega))
  have hnew : read (write m n part) (0 + n) part.length = part := by
    rw [Nat.zero_add]
    exact read_write_same _ _ _
  rw [read_append, hold, hnew, h, List.take_add, ← hp]

theorem write_append (m : Mem) (a : ℕ) (bs cs : List UInt8) :
    write m a (bs ++ cs) = write (write m a bs) (a + bs.length) cs := by
  funext x
  by_cases hx : x < a
  · rw [write_of_lt hx, write_of_lt (by omega), write_of_lt hx]
  by_cases hb : x < a + bs.length
  · obtain ⟨i, rfl⟩ := Nat.exists_eq_add_of_le (Nat.not_lt.1 hx)
    have hi : i < bs.length := by omega
    rw [write_of_lt hb, write_of_mem hi, write_of_mem (by simp; omega),
      List.getD_append _ _ _ _ hi]
  by_cases hc : x < a + bs.length + cs.length
  · obtain ⟨i, rfl⟩ := Nat.exists_eq_add_of_le (Nat.not_lt.1 hb)
    have hi : i < cs.length := by omega
    rw [write_of_mem hi, Nat.add_assoc, write_of_mem (by simp; omega),
      List.getD_append_right _ _ _ _ (by omega), Nat.add_sub_cancel_left]
  · rw [write_of_ge (by simp; omega), write_of_ge (by omega), write_of_ge (by omega)]

/-- Changing one byte is writing back a read with that byte changed. -/
theorem write_byte_eq {m : Mem} {a n i : ℕ} (h : i < n) (b : UInt8) :
    write m (a + i) [b] = write m a ((read m a n).set i b) := by
  funext x
  by_cases hx : x < a ∨ a + n ≤ x
  · rw [write_outside (by simp; omega), write_outside (by simpa using hx)]
  · obtain ⟨j, rfl⟩ := Nat.exists_eq_add_of_le (show a ≤ x by omega)
    have hj : j < ((read m a n).set i b).length := by
      rw [List.length_set, length_read]
      omega
    rw [write_of_mem hj, List.getD_eq_getElem _ _ hj, List.getElem_set]
    by_cases hij : i = j
    · subst hij
      have h0 : 0 < [b].length := Nat.one_pos
      rw [if_pos rfl]
      exact write_of_mem h0
    · rw [if_neg hij, getElem_read, write_outside (by simp; omega)]

/-- A buffer that holds the byte string `bs`, and zeros after it. -/
def ofBytes (bs : List UInt8) : Mem := write (fun _ => 0) 0 bs

theorem read_ofBytes {bs : List UInt8} {o n : ℕ} (h : o + n ≤ bs.length) :
    read (ofBytes bs) o n = (bs.drop o).take n := by
  have h' := read_write_sub (m := fun _ => 0) (a := 0) h
  rwa [Nat.zero_add] at h'

/-! ## Little-endian numbers -/

/-- The `w` low bytes of `n`, least significant first. -/
def leBytes : ℕ → ℕ → List UInt8
  | 0, _ => []
  | w + 1, n => UInt8.ofNat n :: leBytes w (n / 256)

/-- The number a byte string spells, least significant byte first. -/
def leNat : List UInt8 → ℕ
  | [] => 0
  | b :: bs => b.toNat + 256 * leNat bs

@[simp] theorem length_leBytes (w n : ℕ) : (leBytes w n).length = w := by
  induction w generalizing n with
  | zero => rfl
  | succ w ih => simp [leBytes, ih]

theorem leBytes_eq_map (w n : ℕ) :
    leBytes w n = (List.range w).map fun i => UInt8.ofNat (n / 256 ^ i) := by
  induction w generalizing n with
  | zero => rfl
  | succ w ih =>
    rw [leBytes, ih, List.range_succ_eq_map, List.map_cons, List.map_map, Nat.pow_zero, Nat.div_one]
    congr 1
    refine List.map_congr_left fun i _ => ?_
    rw [Function.comp, Nat.succ_eq_add_one, Nat.pow_succ, Nat.mul_comm, Nat.div_div_eq_div_mul]

theorem leNat_lt (bs : List UInt8) : leNat bs < 256 ^ bs.length := by
  induction bs with
  | nil => simp [leNat]
  | cons b bs ih =>
    have hb : b.toNat < 256 := b.toNat_lt
    rw [leNat, List.length_cons, Nat.pow_succ]
    omega

/-- Decoding what was encoded gives the number back, modulo the width. -/
theorem leNat_leBytes (w n : ℕ) : leNat (leBytes w n) = n % 256 ^ w := by
  induction w generalizing n with
  | zero => simp [leBytes, leNat, Nat.mod_one]
  | succ w ih =>
    have hb : (UInt8.ofNat n).toNat = n % 256 := UInt8.toNat_ofNat'
    rw [leBytes, leNat, ih, hb, Nat.pow_succ, Nat.mul_comm (256 ^ w), Nat.mod_mul]

theorem leNat_leBytes_of_lt {w n : ℕ} (h : n < 256 ^ w) : leNat (leBytes w n) = n := by
  rw [leNat_leBytes, Nat.mod_eq_of_lt h]

/-- Encoding what was decoded gives the byte string back. -/
theorem leBytes_leNat (bs : List UInt8) : leBytes bs.length (leNat bs) = bs := by
  induction bs with
  | nil => rfl
  | cons b bs ih =>
    have hb : b.toNat < 256 := b.toNat_lt
    have hdiv : (b.toNat + 256 * leNat bs) / 256 = leNat bs := by omega
    have hmod : UInt8.ofNat (b.toNat + 256 * leNat bs) = b := by
      refine UInt8.toNat_inj.1 ?_
      rw [UInt8.toNat_ofNat']
      omega
    rw [leNat, List.length_cons, leBytes, hdiv, ih, hmod]

theorem leBytes_mod (w n : ℕ) : leBytes w (n % 256 ^ w) = leBytes w n := by
  have h := leBytes_leNat (leBytes w n)
  rwa [leNat_leBytes, length_leBytes] at h

/-- The little-endian number stored in the `w` bytes at offset `a`. -/
def le (m : Mem) (a w : ℕ) : ℕ := leNat (read m a w)

theorem le_lt (m : Mem) (a w : ℕ) : le m a w < 256 ^ w := by
  have h := leNat_lt (read m a w)
  rwa [length_read] at h

theorem le_congr {m m' : Mem} {a b w : ℕ} (h : read m a w = read m' b w) :
    le m a w = le m' b w := by
  rw [le, le, h]

/-- A part of a stored number. -/
theorem le_sub_of_read {m : Mem} {a w x k n : ℕ} (h : read m a w = leBytes w x) (hk : k + n ≤ w) :
    le m (a + k) n = x / 256 ^ k % 256 ^ n := by
  have hpart : read m (a + k) n = leBytes n (x / 256 ^ k) := by
    rw [leBytes_eq_map, read]
    refine List.map_congr_left fun i hi => ?_
    have hi : i < n := List.mem_range.1 hi
    have hbyte := getD_read (m := m) (a := a) (show k + i < w by omega) 0
    rw [h, leBytes_eq_map, List.getD_eq_getElem _ _ (by simp; omega), List.getElem_map,
      List.getElem_range, ← Nat.add_assoc] at hbyte
    rw [← hbyte, Nat.pow_add, Nat.div_div_eq_div_mul]
  rw [le, hpart, leNat_leBytes]

theorem le_of_read {m : Mem} {a w x : ℕ} (h : read m a w = leBytes w x) :
    le m a w = x % 256 ^ w := by
  rw [le, h, leNat_leBytes]

/-- Reading back a number that was stored. -/
theorem le_write_same (m : Mem) (a w n : ℕ) : le (write m a (leBytes w n)) a w = n % 256 ^ w := by
  have h := read_write_same m a (leBytes w n)
  rw [length_leBytes] at h
  rw [le, h, leNat_leBytes]

theorem le_write_disjoint {m : Mem} {a b w : ℕ} {bs : List UInt8}
    (h : b + w ≤ a ∨ a + bs.length ≤ b) : le (write m a bs) b w = le m b w :=
  le_congr (read_write_disjoint h)

end ByteMem
