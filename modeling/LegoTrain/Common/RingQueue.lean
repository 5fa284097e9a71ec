import Mathlib.Data.List.Basic
import LegoTrain.Common.RingBuffer

/-!
# The ring buffer is a bounded queue

* `Ok`, `contents` : the invariant of the indices and mirrors, and the bytes in the buffer;
* `writeSection_spec` : a write puts its bytes behind the others, as many as it saw room for;
* `readSection_spec` : a read takes the first ones, as many as it saw;
* `ringBufferPeek_eq` : a peek shows what a read would take.

The last two hold with an old look at the length too, as long as the other party has only made
more room, or put in more.
-/

namespace RingBuffer

open ByteMem Ring

variable {σ : Type*} {rb rb' : RingBufferType} {n k l : ℕ} {p : Mem} {bs : List UInt8}

/-! ## The invariant -/

theorem u32Sub_of_le {a b : ℕ} (h : b ≤ a) (ha : a < 2 ^ 32) : u32Sub a b = a - b := by
  unfold u32Sub
  omega

theorem u32Add_of_lt {a b : ℕ} (h : a + b < 2 ^ 32) : u32Add a b = a + b := Nat.mod_eq_of_lt h

theorem not_not_mirror (x : UInt8) : ~~~~~~x = x := UInt8.not_not

theorem mirror_ne_not (x : UInt8) : x ≠ ~~~x := by
  intro h
  have hnat := congrArg UInt8.toNat h
  have hlt := x.toNat_lt
  rw [UInt8.toNat_not] at hnat
  have hsize : UInt8.size = 256 := rfl
  omega

/-- The indices are in the buffer, and the writer is ahead of the reader by no more than the
buffer holds. -/
structure Ok (rb : RingBufferType) : Prop where
  size_lt : rb.size < 2 ^ 32
  read_lt : rb.readIndex < rb.size
  write_lt : rb.writeIndex < rb.size
  mirrors : rb.readMirror = rb.writeMirror ∧ rb.readIndex ≤ rb.writeIndex ∨
    rb.readMirror = ~~~rb.writeMirror ∧ rb.writeIndex ≤ rb.readIndex

/-- The bytes that are in the buffer, the oldest first. -/
def contents (rb : RingBufferType) : List UInt8 :=
  window rb.pointer rb.size rb.readIndex (ringBufferGetLength rb)

@[simp] theorem length_contents : (contents rb).length = ringBufferGetLength rb := length_window

theorem length_take_contents (hn : n ≤ ringBufferGetLength rb) :
    ((contents rb).take n).length = n := by
  rw [List.length_take, length_contents, Nat.min_eq_left hn]

/-- What the length says about the indices. -/
theorem Ok.length_cases (h : Ok rb) :
    (rb.readMirror = rb.writeMirror ∧ rb.readIndex + ringBufferGetLength rb = rb.writeIndex) ∨
    (rb.readMirror = ~~~rb.writeMirror ∧
      rb.readIndex + ringBufferGetLength rb = rb.writeIndex + rb.size ∧
      rb.writeIndex ≤ rb.readIndex) := by
  have hsize := h.size_lt
  have hr := h.read_lt
  have hw := h.write_lt
  unfold ringBufferGetLength
  rcases h.mirrors with ⟨hm, hle⟩ | ⟨hm, hle⟩
  · refine .inl ⟨hm, ?_⟩
    rw [if_pos hm, u32Sub_of_le hle (by omega)]
    omega
  · have hne : rb.readMirror ≠ rb.writeMirror := by
      rw [hm]
      exact (mirror_ne_not _).symm
    refine .inr ⟨hm, ?_, hle⟩
    rw [if_neg hne, u32Sub_of_le hle (by omega), u32Sub_of_le (by omega) hsize]
    omega

/-- The length from the indices, in the same mirror and in different ones. -/
theorem ok_of_length_eq (hsize : rb.size < 2 ^ 32) (hm : rb.readMirror = rb.writeMirror)
    (hw : rb.writeIndex < rb.size) (hlen : rb.readIndex + l = rb.writeIndex) :
    Ok rb ∧ ringBufferGetLength rb = l := by
  refine ⟨⟨hsize, by omega, hw, .inl ⟨hm, by omega⟩⟩, ?_⟩
  rw [ringBufferGetLength, if_pos hm, u32Sub_of_le (by omega) (by omega)]
  omega

theorem ok_of_length_ne (hsize : rb.size < 2 ^ 32) (hm : rb.readMirror = ~~~rb.writeMirror)
    (hr : rb.readIndex < rb.size) (hle : rb.writeIndex ≤ rb.readIndex)
    (hlen : rb.readIndex + l = rb.writeIndex + rb.size) :
    Ok rb ∧ ringBufferGetLength rb = l := by
  refine ⟨⟨hsize, hr, by omega, .inr ⟨hm, hle⟩⟩, ?_⟩
  have hne : rb.readMirror ≠ rb.writeMirror := by
    rw [hm]
    exact (mirror_ne_not _).symm
  rw [ringBufferGetLength, if_neg hne, u32Sub_of_le hle (by omega), u32Sub_of_le (by omega) hsize]
  omega

theorem Ok.length_le (h : Ok rb) : ringBufferGetLength rb ≤ rb.size := by
  have hr := h.read_lt
  have hw := h.write_lt
  rcases h.length_cases with ⟨-, hlen⟩ | ⟨-, hlen, hle⟩ <;> omega

theorem Ok.emptyLength_eq (h : Ok rb) :
    ringBufferGetEmptyLength rb = rb.size - ringBufferGetLength rb :=
  u32Sub_of_le h.length_le h.size_lt

/-- The writer stands behind the contents. -/
theorem Ok.write_mod (h : Ok rb) :
    (rb.readIndex + ringBufferGetLength rb) % rb.size = rb.writeIndex := by
  have hw := h.write_lt
  rcases h.length_cases with ⟨-, hlen⟩ | ⟨-, hlen, -⟩
  · rw [hlen, Nat.mod_eq_of_lt hw]
  · rw [hlen, Nat.add_mod_right, Nat.mod_eq_of_lt hw]

theorem ok_init {size : ℕ} (h0 : 0 < size) (h : size < 2 ^ 32) (buffer : Mem) :
    Ok (ringBufferInit buffer size) := ⟨h, h0, h0, .inl ⟨rfl, le_rfl⟩⟩

theorem contents_init {size : ℕ} (h0 : 0 < size) (h : size < 2 ^ 32) (buffer : Mem) :
    contents (ringBufferInit buffer size) = [] := by
  have hzero : Ok (ringBufferInit buffer size) ∧
      ringBufferGetLength (ringBufferInit buffer size) = 0 := ok_of_length_eq h rfl h0 rfl
  rw [contents, hzero.2, window_zero]

theorem Ok.reset (h : Ok rb) : Ok (ringBufferReset rb) :=
  ok_init (Nat.zero_lt_of_lt h.read_lt) h.size_lt rb.pointer

/-! ## The indices go around -/

/-- An index and its mirror, `n` bytes on. -/
def advance (size : ℕ) (mirror : UInt8) (index n : ℕ) : UInt8 × ℕ :=
  if size - index > n then (mirror, index + n) else (~~~mirror, index + n - size)

/-- The buffer when `n` bytes have been written behind its contents. -/
def written (rb : RingBufferType) (p : Mem) (n : ℕ) : RingBufferType :=
  { rb with
    pointer := p
    writeMirror := (advance rb.size rb.writeMirror rb.writeIndex n).1
    writeIndex := (advance rb.size rb.writeMirror rb.writeIndex n).2 }

/-- The buffer when `n` bytes have been taken from the front. -/
def taken (rb : RingBufferType) (n : ℕ) : RingBufferType :=
  { rb with
    readMirror := (advance rb.size rb.readMirror rb.readIndex n).1
    readIndex := (advance rb.size rb.readMirror rb.readIndex n).2 }

theorem advance_lt {size index : ℕ} {mirror : UInt8} (h : index < size) (hn : n ≤ size) :
    (advance size mirror index n).2 < size := by
  unfold advance
  split <;> dsimp only <;> omega

theorem Ok.ok_written (h : Ok rb) (p : Mem) (hn : n ≤ rb.size - ringBufferGetLength rb) :
    Ok (written rb p n) ∧
      ringBufferGetLength (written rb p n) = ringBufferGetLength rb + n := by
  have hle := h.length_le
  have hw := h.write_lt
  have hr := h.read_lt
  unfold written advance
  rcases h.length_cases with ⟨hm, hlen⟩ | ⟨hm, hlen, hwr⟩
  · split
    · exact ok_of_length_eq h.size_lt hm (by dsimp only; omega) (by dsimp only; omega)
    · exact ok_of_length_ne h.size_lt (by dsimp only; rw [hm, not_not_mirror]) hr
        (by dsimp only; omega) (by dsimp only; omega)
  · rw [if_pos (by omega)]
    exact ok_of_length_ne h.size_lt hm hr (by dsimp only; omega) (by dsimp only; omega)

theorem Ok.ok_taken (h : Ok rb) (hn : n ≤ ringBufferGetLength rb) :
    Ok (taken rb n) ∧ ringBufferGetLength (taken rb n) = ringBufferGetLength rb - n := by
  have hle := h.length_le
  have hw := h.write_lt
  have hr := h.read_lt
  unfold taken advance
  rcases h.length_cases with ⟨hm, hlen⟩ | ⟨hm, hlen, hwr⟩
  · rw [if_pos (by omega)]
    exact ok_of_length_eq h.size_lt hm hw (by dsimp only; omega)
  · split
    · exact ok_of_length_ne h.size_lt hm (by dsimp only; omega) (by dsimp only; omega)
        (by dsimp only; omega)
    · exact ok_of_length_eq h.size_lt (by dsimp only; rw [hm, not_not_mirror]) hw
        (by dsimp only; omega)

/-! ## The bytes behind the contents -/

/-- The cells behind the contents start at the index of the writer. -/
theorem Ok.window_write (h : Ok rb) (p : Mem) (n : ℕ) :
    window p rb.size (rb.readIndex + ringBufferGetLength rb) n =
      window p rb.size rb.writeIndex n := by
  rw [← window_mod, h.write_mod]

theorem Ok.contents_written (h : Ok rb) (hn : n ≤ rb.size - ringBufferGetLength rb)
    (hold : ∀ x, (∀ i < n, x ≠ (rb.writeIndex + i) % rb.size) → p x = rb.pointer x)
    (hnew : window p rb.size rb.writeIndex n = bs) :
    contents (written rb p n) = contents rb ++ bs := by
  have hle := h.length_le
  rw [contents, (h.ok_written p hn).2]
  show window p rb.size rb.readIndex (ringBufferGetLength rb + n) = contents rb ++ bs
  refine window_store (by omega) ?_ ((h.window_write p n).trans hnew)
  intro x hx
  refine hold x fun i hi => ?_
  rw [← h.write_mod, Nat.mod_add_mod]
  exact hx i hi

/-- Writing without reaching the end of the buffer. -/
theorem Ok.contents_plain (h : Ok rb) (hn : rb.writeIndex + bs.length < rb.size)
    (hroom : bs.length ≤ rb.size - ringBufferGetLength rb) :
    contents (written rb (write rb.pointer rb.writeIndex bs) bs.length) =
      contents rb ++ bs := by
  refine h.contents_written hroom ?_ ?_
  · intro x hx
    refine write_outside ?_
    by_contra hin
    refine hx (x - rb.writeIndex) (by omega) ?_
    rw [Nat.mod_eq_of_lt (by omega)]
    omega
  · rw [window_flat (by omega)]
    exact read_write_same _ _ _

/-- Writing up to the end of the buffer and on from its beginning. -/
theorem Ok.contents_around (h : Ok rb) {bs' : List UInt8}
    (hbs : rb.writeIndex + bs.length = rb.size)
    (hroom : bs.length + bs'.length ≤ rb.size - ringBufferGetLength rb) :
    contents (written rb (write (write rb.pointer rb.writeIndex bs) 0 bs')
      (bs.length + bs'.length)) = contents rb ++ (bs ++ bs') := by
  have hle := h.length_le
  refine h.contents_written hroom ?_ ?_
  · intro x hx
    have hx' : ¬ (x < bs'.length) := by
      intro hlt
      refine hx (bs.length + x) (by omega) ?_
      rw [← Nat.add_assoc, hbs, Nat.add_mod_left, Nat.mod_eq_of_lt (by omega)]
    rw [write_outside (by omega)]
    refine write_outside ?_
    by_contra hin
    refine hx (x - rb.writeIndex) (by omega) ?_
    rw [Nat.mod_eq_of_lt (by omega)]
    omega
  · have hfirst : window (write (write rb.pointer rb.writeIndex bs) 0 bs') rb.size rb.writeIndex
        bs.length = bs := by
      rw [window_flat (by omega)]
      refine Eq.trans ?_ (read_write_same rb.pointer rb.writeIndex bs)
      exact read_write_disjoint (by omega)
    rw [window_add, hfirst, hbs, ← window_mod, Nat.mod_self, window_flat (by omega)]
    exact congrArg (bs ++ ·) (read_write_same _ 0 bs')

/-! ## The callbacks -/

/-- The bytes of some calls of a callback, one after the other. -/
def WriteCallback.fills (writeCb : WriteCallback σ) : σ → List ℕ → List UInt8 × σ
  | parameter, [] => ([], parameter)
  | parameter, length :: lengths =>
    let (bs, parameter) := writeCb.fill parameter length
    let (bs', parameter) := writeCb.fills parameter lengths
    (bs ++ bs', parameter)

theorem WriteCallback.length_fills (writeCb : WriteCallback σ) (lengths : List ℕ) (parameter : σ) :
    (writeCb.fills parameter lengths).1.length = lengths.sum := by
  induction lengths generalizing parameter with
  | nil => rfl
  | cons length lengths ih =>
    simp only [WriteCallback.fills, List.length_append, writeCb.length_fill, ih, List.sum_cons]

/-- Copying in parts is copying. -/
theorem fills_ringBufferWriteCopy (m : Mem) (lengths : List ℕ) (src : ℕ) :
    (ringBufferWriteCopy m).fills src lengths =
      (read m src lengths.sum, src + lengths.sum) := by
  induction lengths generalizing src with
  | nil => rfl
  | cons length lengths ih =>
    simp only [WriteCallback.fills, ringBufferWriteCopy] at ih ⊢
    simp only [ih, List.sum_cons, read_append, Nat.add_assoc]

theorem foldl_ringBufferReadCopy (chunks : List (List UInt8)) (m : Mem) (dest : ℕ) :
    chunks.foldl ringBufferReadCopy (m, dest) =
      (write m dest chunks.flatten, dest + chunks.flatten.length) := by
  induction chunks generalizing m dest with
  | nil => simp
  | cons chunk chunks ih =>
    simp only [List.foldl_cons, ringBufferReadCopy, ih, List.flatten_cons, List.length_append,
      Nat.add_assoc, Prod.mk.injEq, and_true]
    exact (write_append m dest chunk chunks.flatten).symm

/-! ## The operations -/

theorem Ok.indexRemained (h : Ok rb) : u32Sub rb.size rb.writeIndex = rb.size - rb.writeIndex :=
  u32Sub_of_le h.write_lt.le h.size_lt

/-- What `Ring_Buffer_Write_Callback` does, as long as there is at least as much room as it saw. -/
theorem writeSection_spec (h : Ok rb) {sizeRemained : ℕ}
    (hs : sizeRemained ≤ rb.size - ringBufferGetLength rb) (length : ℕ)
    (writeCb : WriteCallback σ) (parameter : σ) :
    ∃ rb' lengths, writeSection rb sizeRemained length writeCb parameter =
        (rb', min length sizeRemained, (writeCb.fills parameter lengths).2) ∧
      lengths.sum = min length sizeRemained ∧ Ok rb' ∧ rb'.size = rb.size ∧
      contents rb' = contents rb ++ (writeCb.fills parameter lengths).1 := by
  have hw := h.write_lt
  have hsize := h.size_lt
  unfold writeSection
  by_cases h0 : sizeRemained = 0
  · refine ⟨rb, [], ?_, ?_, h, rfl, ?_⟩
    · simp [h0, WriteCallback.fills]
    · simp [h0]
    · simp [WriteCallback.fills]
  have hmin : (if length > sizeRemained then sizeRemained else length) =
      min length sizeRemained := by
    split <;> omega
  simp only [if_neg h0, hmin, h.indexRemained]
  generalize hn : min length sizeRemained = n
  by_cases hplain : rb.size - rb.writeIndex > n
  · have hbs := writeCb.length_fill parameter n
    generalize hfill : writeCb.fill parameter n = r at hbs
    obtain ⟨bs, parameter'⟩ := r
    dsimp only at hbs
    subst hbs
    have heq : written rb (write rb.pointer rb.writeIndex bs) bs.length =
        { rb with
          pointer := write rb.pointer rb.writeIndex bs
          writeIndex := u32Add rb.writeIndex bs.length } := by
      rw [u32Add_of_lt (by omega), written, advance, if_pos hplain]
    have hroom : bs.length ≤ rb.size - ringBufferGetLength rb := by omega
    refine ⟨_, [bs.length], ?_, List.sum_singleton,
      (h.ok_written (write rb.pointer rb.writeIndex bs) hroom).1, rfl, ?_⟩
    · simp only [if_pos hplain, hfill, heq, WriteCallback.fills]
    · simp only [WriteCallback.fills, hfill, List.append_nil]
      exact h.contents_plain (by omega) hroom
  · have hsub : u32Sub n (rb.size - rb.writeIndex) = n - (rb.size - rb.writeIndex) :=
      u32Sub_of_le (by omega) (by omega)
    have hbs := writeCb.length_fill parameter (rb.size - rb.writeIndex)
    generalize hfill : writeCb.fill parameter (rb.size - rb.writeIndex) = r at hbs
    obtain ⟨bs, parameter'⟩ := r
    have hbs' := writeCb.length_fill parameter' (n - (rb.size - rb.writeIndex))
    generalize hfill' : writeCb.fill parameter' (n - (rb.size - rb.writeIndex)) = r at hbs'
    obtain ⟨bs', parameter''⟩ := r
    dsimp only at hbs hbs'
    have hsum : bs.length + bs'.length = n := by omega
    have hroom : n ≤ rb.size - ringBufferGetLength rb := by omega
    have heq : written rb (write (write rb.pointer rb.writeIndex bs) 0 bs') n =
        { rb with
          pointer := write (write rb.pointer rb.writeIndex bs) 0 bs'
          writeIndex := n - (rb.size - rb.writeIndex)
          writeMirror := ~~~rb.writeMirror } := by
      have hindex : rb.writeIndex + n - rb.size = n - (rb.size - rb.writeIndex) := by omega
      rw [written, advance, if_neg hplain, hindex]
    refine ⟨_, [rb.size - rb.writeIndex, n - (rb.size - rb.writeIndex)], ?_, ?_,
      (h.ok_written (write (write rb.pointer rb.writeIndex bs) 0 bs') hroom).1, rfl, ?_⟩
    · simp only [if_neg hplain, hsub, hfill, hfill', WriteCallback.fills]
      rw [heq]
    · simp only [List.sum_cons, List.sum_nil]
      omega
    · simp only [WriteCallback.fills, hfill, hfill', List.append_nil]
      rw [← hsum]
      exact h.contents_around (by omega) (by omega)

/-- The same with `Ring_Buffer_Write_Copy`. -/
theorem writeSection_copy (h : Ok rb) {sizeRemained : ℕ}
    (hs : sizeRemained ≤ rb.size - ringBufferGetLength rb) (m : Mem) (src length : ℕ) :
    ∃ rb', writeSection rb sizeRemained length (ringBufferWriteCopy m) src =
        (rb', min length sizeRemained, src + min length sizeRemained) ∧
      Ok rb' ∧ rb'.size = rb.size ∧
      contents rb' = contents rb ++ read m src (min length sizeRemained) := by
  obtain ⟨rb', lengths, hwrite, hsum, hok, hsize, hcontents⟩ :=
    writeSection_spec h hs length (ringBufferWriteCopy m) src
  rw [fills_ringBufferWriteCopy, hsum] at hwrite hcontents
  exact ⟨rb', hwrite, hok, hsize, hcontents⟩

/-- The writer leaves the reader where it is. -/
theorem writeSection_readIndex (rb : RingBufferType) (sizeRemained length : ℕ)
    (writeCb : WriteCallback σ) (parameter : σ) :
    (writeSection rb sizeRemained length writeCb parameter).1.readIndex = rb.readIndex := by
  unfold writeSection
  by_cases h0 : sizeRemained = 0
  · rw [if_pos h0]
  rw [if_neg h0]
  generalize (if length > sizeRemained then sizeRemained else length) = n
  by_cases hplain : u32Sub rb.size rb.writeIndex > n
  · simp only [if_pos hplain]
  · simp only [if_neg hplain]

theorem advance_mod {size index : ℕ} {mirror : UInt8} (h : index < size) (hn : n ≤ size) :
    (advance size mirror index n).2 = (index + n) % size := by
  unfold advance
  split
  · rw [Nat.mod_eq_of_lt (by omega)]
  · rw [Nat.mod_eq_sub_mod (by omega), Nat.mod_eq_of_lt (by omega)]

theorem Ok.contents_taken (h : Ok rb) (hn : n ≤ ringBufferGetLength rb) :
    contents (taken rb n) = (contents rb).drop n := by
  have hle := h.length_le
  rw [contents, contents, drop_window hn, (h.ok_taken hn).2, ← window_mod]
  show window rb.pointer rb.size ((advance rb.size rb.readMirror rb.readIndex n).2 % rb.size) _ = _
  rw [advance_mod h.read_lt (by omega), Nat.mod_mod, window_mod]

/-- What `Ring_Buffer_Read_Callback` does, as long as there is at least as much as it saw. -/
theorem readSection_spec (h : Ok rb) {size : ℕ} (hs : size ≤ ringBufferGetLength rb) (length : ℕ)
    (readCb : ReadCallback σ) (parameter : σ) :
    ∃ chunks : List (List UInt8), readSection rb size length readCb parameter =
        (taken rb (min length size), min length size, chunks.foldl readCb parameter) ∧
      chunks.flatten = (contents rb).take (min length size) := by
  have hr := h.read_lt
  have hle := h.length_le
  have hsize := h.size_lt
  have htake : (contents rb).take (min length size) =
      window rb.pointer rb.size rb.readIndex (min length size) := take_window (by omega)
  rw [htake]
  unfold readSection
  by_cases h0 : size = 0
  · have hsame : taken rb 0 = rb := by
      rw [taken, advance, if_pos (by omega)]
      rfl
    exact ⟨[], by simp [h0, hsame], by simp [h0]⟩
  have hmin : (if size < length then size else length) = min length size := by
    split <;> omega
  have hindex : u32Sub rb.size rb.readIndex = rb.size - rb.readIndex := u32Sub_of_le hr.le hsize
  simp only [if_neg h0, hmin, hindex]
  generalize hn : min length size = n
  by_cases hplain : rb.size - rb.readIndex > n
  · refine ⟨[read rb.pointer rb.readIndex n], ?_, ?_⟩
    · rw [if_pos hplain, u32Add_of_lt (by omega), taken, advance, if_pos hplain]
      rfl
    · rw [window_flat (by omega)]
      exact List.append_nil _
  · have hsub : u32Sub n (rb.size - rb.readIndex) = n - (rb.size - rb.readIndex) :=
      u32Sub_of_le (by omega) (by omega)
    have hnext : rb.readIndex + n - rb.size = n - (rb.size - rb.readIndex) := by omega
    refine ⟨[read rb.pointer rb.readIndex (rb.size - rb.readIndex),
      read rb.pointer 0 (n - (rb.size - rb.readIndex))], ?_, ?_⟩
    · rw [if_neg hplain, hsub, taken, advance, if_neg hplain, hnext]
      rfl
    · have hsum : rb.size - rb.readIndex + (n - (rb.size - rb.readIndex)) = n := by omega
      rw [← hsum, window_around (by omega) (by omega)]
      simp [ByteMem.read]

/-- The same with `Ring_Buffer_Read_Copy`. -/
theorem readSection_copy (h : Ok rb) {size : ℕ} (hs : size ≤ ringBufferGetLength rb) (m : Mem)
    (dest length : ℕ) :
    readSection rb size length ringBufferReadCopy (m, dest) =
      (taken rb (min length size), min length size,
        (write m dest ((contents rb).take (min length size)), dest + min length size)) := by
  obtain ⟨chunks, hread, hflat⟩ := readSection_spec h hs length ringBufferReadCopy (m, dest)
  have hlen : ((contents rb).take (min length size)).length = min length size :=
    length_take_contents (by omega)
  rw [hread, foldl_ringBufferReadCopy, hflat, hlen]

/-- One byte more. -/
theorem Ok.contents_push (h : Ok rb) (hroom : 1 ≤ rb.size - ringBufferGetLength rb) (b : UInt8) :
    contents (written rb (write rb.pointer rb.writeIndex [b]) 1) = contents rb ++ [b] := by
  have hw := h.write_lt
  by_cases hend : rb.writeIndex + 1 < rb.size
  · have hlt : rb.writeIndex + [b].length < rb.size := hend
    exact h.contents_plain hlt hroom
  · have heq : rb.writeIndex + [b].length = rb.size := show rb.writeIndex + 1 = rb.size by omega
    have hnone : [b].length + ([] : List UInt8).length ≤ rb.size - ringBufferGetLength rb := hroom
    have haround := h.contents_around heq hnone
    rwa [write_nil] at haround

/-- The byte and the indices, as `Ring_Buffer_Write_Byte` and its forced variant move them. -/
theorem Ok.written_push (h : Ok rb) (p : Mem) :
    written rb p 1 =
      if rb.writeIndex = u32Sub rb.size 1 then
        { rb with pointer := p, writeIndex := 0, writeMirror := ~~~rb.writeMirror }
      else { rb with pointer := p, writeIndex := u32Add rb.writeIndex 1 } := by
  have hw := h.write_lt
  have hsize := h.size_lt
  have hlast : u32Sub rb.size 1 = rb.size - 1 := u32Sub_of_le (by omega) hsize
  rw [hlast, written, advance]
  by_cases hend : rb.writeIndex = rb.size - 1
  · have hzero : rb.writeIndex + 1 - rb.size = 0 := by omega
    rw [if_pos hend, if_neg (by omega), hzero]
  · rw [if_neg hend, if_pos (by omega), u32Add_of_lt (by omega)]

/-- `Ring_Buffer_Write_Byte` puts the byte behind the others, if there is room. -/
theorem ringBufferWriteByte_eq (h : Ok rb) (data : UInt8) :
    ringBufferWriteByte rb data =
      if ringBufferGetEmptyLength rb = 0 then (rb, 0)
      else (written rb (write rb.pointer rb.writeIndex [data]) 1, 1) := by
  unfold ringBufferWriteByte
  by_cases h0 : ringBufferGetEmptyLength rb = 0
  · rw [if_pos h0, if_pos h0]
  rw [if_neg h0, if_neg h0, h.written_push]
  by_cases hend : rb.writeIndex = u32Sub rb.size 1
  · rw [if_pos hend, if_neg (not_not.2 hend)]
  · rw [if_neg hend, if_pos hend]

theorem taken_zero (h : Ok rb) : taken rb 0 = rb := by
  have hr := h.read_lt
  rw [taken, advance, if_pos (by omega)]
  rfl

/-- Peeking shows what reading would take. -/
theorem peekSection_eq_read (rb : RingBufferType) (size length : ℕ) :
    peekSection rb size length = (readSection rb size length (fun bs data => bs ++ data) []).2.2 := by
  unfold peekSection readSection
  by_cases h0 : size = 0
  · rw [if_pos h0, if_pos h0]
  rw [if_neg h0, if_neg h0]
  generalize (if size < length then size else length) = n
  by_cases hplain : u32Sub rb.size rb.readIndex > n
  · simp only [if_pos hplain, List.nil_append]
  · simp only [if_neg hplain, List.nil_append]

theorem peekSection_eq (h : Ok rb) {size : ℕ} (hs : size ≤ ringBufferGetLength rb) (length : ℕ) :
    peekSection rb size length = (contents rb).take (min length size) := by
  obtain ⟨chunks, hread, hflat⟩ := readSection_spec h hs length (fun bs data => bs ++ data) []
  rw [peekSection_eq_read, hread, ← hflat]
  have hfold : chunks.foldl (fun bs data => bs ++ id data) [] = [] ++ (chunks.map id).flatten :=
    List.foldl_append_eq_append
  rwa [List.map_id, List.nil_append] at hfold

/-- `Ring_Buffer_Peek` shows the oldest bytes. -/
theorem ringBufferPeek_eq (h : Ok rb) (length : ℕ) :
    ringBufferPeek rb length = (contents rb).take length := by
  rw [ringBufferPeek, peekSection_eq h le_rfl, ← length_contents, List.take_eq_take_iff]
  omega

theorem length_eq_zero : ringBufferGetLength rb = 0 ↔ contents rb = [] := by
  rw [← length_contents, List.length_eq_zero_iff]

/-- The oldest byte is at the index of the reader. -/
theorem Ok.contents_cons (h : Ok rb) (h0 : ringBufferGetLength rb ≠ 0) :
    contents rb = rb.pointer rb.readIndex :: (contents rb).drop 1 := by
  have hr := h.read_lt
  obtain ⟨l, hl⟩ := Nat.exists_eq_succ_of_ne_zero h0
  have hone : (contents rb).take 1 = [rb.pointer rb.readIndex] := by
    rw [contents, take_window (by omega), window_flat (by omega)]
    rfl
  conv_lhs => rw [← List.take_append_drop 1 (contents rb), hone]
  rfl

theorem ringBufferPeekByte_eq (h : Ok rb) : ringBufferPeekByte rb = (contents rb).head? := by
  unfold ringBufferPeekByte
  by_cases h0 : ringBufferGetLength rb = 0
  · rw [if_pos h0, length_eq_zero.1 h0]
    rfl
  · rw [if_neg h0, h.contents_cons h0]
    rfl

/-- `Ring_Buffer_Read_Byte` takes the oldest byte. -/
theorem ringBufferReadByte_eq (h : Ok rb) :
    ringBufferReadByte rb =
      (taken rb (min 1 (ringBufferGetLength rb)), (contents rb).head?) := by
  have hr := h.read_lt
  have hsize := h.size_lt
  unfold ringBufferReadByte
  by_cases h0 : ringBufferGetLength rb = 0
  · rw [if_pos h0, h0, Nat.min_zero, taken_zero h, length_eq_zero.1 h0]
    rfl
  have hmin : min 1 (ringBufferGetLength rb) = 1 := by omega
  have hlast : u32Sub rb.size 1 = rb.size - 1 := u32Sub_of_le (by omega) hsize
  rw [if_neg h0, hmin, h.contents_cons h0, hlast, taken, advance]
  by_cases hend : rb.readIndex = rb.size - 1
  · have hzero : rb.readIndex + 1 - rb.size = 0 := by omega
    rw [if_pos hend, if_neg (by omega), hzero]
    rfl
  · rw [if_neg hend, if_pos (by omega), u32Add_of_lt (by omega)]
    rfl

/-- The status. -/
theorem ringBufferGetStatus_eq (h : Ok rb) :
    ringBufferGetStatus rb =
      if ringBufferGetLength rb = 0 then .ringBufferEmpty
      else if ringBufferGetLength rb = rb.size then .ringBufferFull else .ringBufferPartial := by
  have hr := h.read_lt
  have hw := h.write_lt
  unfold ringBufferGetStatus
  rcases h.length_cases with ⟨hm, hlen⟩ | ⟨hm, hlen, hle⟩
  · by_cases heq : rb.readIndex = rb.writeIndex
    · rw [if_pos heq, if_pos hm, if_pos (by omega)]
    · rw [if_neg heq, if_neg (by omega), if_neg (by omega)]
  · have hne : rb.readMirror ≠ rb.writeMirror := by
      rw [hm]
      exact (mirror_ne_not _).symm
    by_cases heq : rb.readIndex = rb.writeIndex
    · rw [if_pos heq, if_neg hne, if_neg (by omega), if_pos (by omega)]
    · rw [if_neg heq, if_neg (by omega), if_neg (by omega)]

end RingBuffer
