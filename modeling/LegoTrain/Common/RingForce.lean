import LegoTrain.Common.RingQueue

/-!
# Writing over the oldest bytes

`Ring_Buffer_Write_Force` and `Ring_Buffer_Write_Byte_Force` make room by giving up the oldest
bytes.

* `ringBufferWriteByteForce_contents` : the byte comes in, and the oldest one goes if the buffer
  was full;
* `ringBufferWriteForce_contents` : so it is with many bytes while the contents go around the end
  of the buffer; when they do not, both mirrors turn over in the same write, and the buffer that
  should be full is taken for an empty one.
-/

namespace RingBuffer

open ByteMem Ring

variable {rb : RingBufferType} {n : ℕ} {bs : List UInt8}

/-- The buffer without the bytes for which there is no room beside `n` others. -/
def makeRoom (rb : RingBufferType) (n : ℕ) : RingBufferType :=
  taken rb (ringBufferGetLength rb + n - rb.size)

theorem Ok.ok_makeRoom (h : Ok rb) (hn : n ≤ rb.size) :
    Ok (makeRoom rb n) ∧ n ≤ rb.size - ringBufferGetLength (makeRoom rb n) ∧
      contents (makeRoom rb n) =
        (contents rb).drop (ringBufferGetLength rb + n - rb.size) := by
  have hle := h.length_le
  have hk : ringBufferGetLength rb + n - rb.size ≤ ringBufferGetLength rb := by omega
  obtain ⟨hok, hlen⟩ := h.ok_taken hk
  refine ⟨hok, ?_, h.contents_taken hk⟩
  rw [makeRoom, hlen]
  omega

/-- When something had to be given up, the reader stands where the writer will stand, in the
other mirror. -/
theorem Ok.makeRoom_reader (h : Ok rb) (hn : n ≤ rb.size)
    (hover : rb.size < ringBufferGetLength rb + n) :
    (makeRoom rb n).readIndex = (advance rb.size rb.writeMirror rb.writeIndex n).2 ∧
      (makeRoom rb n).readMirror =
        ~~~(advance rb.size rb.writeMirror rb.writeIndex n).1 := by
  have hr := h.read_lt
  have hw := h.write_lt
  unfold makeRoom taken advance
  rcases h.length_cases with ⟨hm, hlen⟩ | ⟨hm, hlen, hle⟩
  · rw [if_pos (by omega), if_neg (by omega), not_not_mirror]
    exact ⟨by dsimp only; omega, hm⟩
  · by_cases hplain : rb.size - rb.writeIndex > n
    · rw [if_pos (by omega), if_pos hplain]
      exact ⟨by dsimp only; omega, hm⟩
    · rw [if_neg (by omega), if_neg hplain, hm]
      exact ⟨by dsimp only; omega, rfl⟩

/-- The contents go around the end of the buffer exactly when the mirrors differ. -/
theorem Ok.mirror_eq_iff (h : Ok rb) :
    rb.readMirror = rb.writeMirror ↔ rb.readIndex + ringBufferGetLength rb < rb.size := by
  have hw := h.write_lt
  rcases h.length_cases with ⟨hm, hlen⟩ | ⟨hm, hlen, -⟩
  · exact iff_of_true hm (by omega)
  · refine iff_of_false ?_ (by omega)
    rw [hm]
    exact (mirror_ne_not _).symm

/-- Turning over the mirror of the reader makes a full buffer look empty. -/
theorem ok_flipped {rb : RingBufferType} (h : Ok rb) (hindex : rb.readIndex = rb.writeIndex)
    (hm : rb.readMirror = ~~~rb.writeMirror) :
    Ok { rb with readMirror := ~~~rb.readMirror } ∧
      contents { rb with readMirror := ~~~rb.readMirror } = [] := by
  have hflip : ~~~rb.readMirror = rb.writeMirror := by rw [hm, not_not_mirror]
  have hzero : Ok { rb with readMirror := ~~~rb.readMirror } ∧
      ringBufferGetLength { rb with readMirror := ~~~rb.readMirror } = 0 :=
    ok_of_length_eq h.size_lt hflip h.write_lt hindex
  exact ⟨hzero.1, length_eq_zero.1 hzero.2⟩

/-! ## Many bytes -/

/-- The memory when `bs` has been written from the index of the writer on, around the end. -/
def around (rb : RingBufferType) (bs : List UInt8) : Mem :=
  if rb.size - rb.writeIndex > bs.length then write rb.pointer rb.writeIndex bs
  else
    write (write rb.pointer rb.writeIndex (bs.take (rb.size - rb.writeIndex))) 0
      (bs.drop (rb.size - rb.writeIndex))

theorem Ok.contents_bytes (h : Ok rb) (hroom : bs.length ≤ rb.size - ringBufferGetLength rb) :
    contents (written rb (around rb bs) bs.length) = contents rb ++ bs := by
  have hw := h.write_lt
  unfold around
  split
  · exact h.contents_plain (by omega) hroom
  · have htake : (bs.take (rb.size - rb.writeIndex)).length = rb.size - rb.writeIndex := by
      rw [List.length_take]
      omega
    have hdrop := List.length_drop (i := rb.size - rb.writeIndex) (l := bs)
    have hend : rb.writeIndex + (bs.take (rb.size - rb.writeIndex)).length = rb.size := by omega
    have hboth : (bs.take (rb.size - rb.writeIndex)).length +
        (bs.drop (rb.size - rb.writeIndex)).length ≤ rb.size - ringBufferGetLength rb := by omega
    have heq := h.contents_around hend hboth
    have hsum : (bs.take (rb.size - rb.writeIndex)).length +
        (bs.drop (rb.size - rb.writeIndex)).length = bs.length := by omega
    rwa [hsum, List.take_append_drop] at heq

/-- The bytes that `Ring_Buffer_Write_Force` keeps of those it is given. -/
def kept (m : Mem) (data length size : ℕ) : List UInt8 :=
  read m (data + (length - size)) (min length size)

/-- The buffer that `Ring_Buffer_Write_Force` is after. -/
def forced (rb : RingBufferType) (bs : List UInt8) : RingBufferType :=
  written (makeRoom rb bs.length) (around rb bs) bs.length

theorem Ok.ok_forced (h : Ok rb) (hbs : bs.length ≤ rb.size) :
    Ok (forced rb bs) ∧ contents (forced rb bs) =
      (contents rb).drop (ringBufferGetLength rb + bs.length - rb.size) ++ bs := by
  obtain ⟨hok, hroom, hcontents⟩ := h.ok_makeRoom hbs
  refine ⟨(hok.ok_written _ hroom).1, ?_⟩
  rw [← hcontents]
  exact hok.contents_bytes hroom

/-- With room for all the bytes. -/
theorem forced_of_room (h : Ok rb) (hroom : ringBufferGetLength rb + bs.length ≤ rb.size) :
    forced rb bs = written rb (around rb bs) bs.length := by
  have hzero : ringBufferGetLength rb + bs.length - rb.size = 0 := by omega
  rw [forced, makeRoom, hzero, taken_zero h]

/-- Without: the buffer is full, and the indices meet. -/
theorem forced_of_over (h : Ok rb) (hbs : bs.length ≤ rb.size)
    (hover : rb.size < ringBufferGetLength rb + bs.length) :
    forced rb bs =
      { rb with
        pointer := around rb bs
        readMirror := ~~~(advance rb.size rb.writeMirror rb.writeIndex bs.length).1
        readIndex := (advance rb.size rb.writeMirror rb.writeIndex bs.length).2
        writeMirror := (advance rb.size rb.writeMirror rb.writeIndex bs.length).1
        writeIndex := (advance rb.size rb.writeMirror rb.writeIndex bs.length).2 } := by
  obtain ⟨hindex, hm⟩ := h.makeRoom_reader hbs hover
  have hshape : forced rb bs =
      { rb with
        pointer := around rb bs
        readMirror := (makeRoom rb bs.length).readMirror
        readIndex := (makeRoom rb bs.length).readIndex
        writeMirror := (advance rb.size rb.writeMirror rb.writeIndex bs.length).1
        writeIndex := (advance rb.size rb.writeMirror rb.writeIndex bs.length).2 } := rfl
  rw [hshape, hindex, hm]

theorem length_kept (m : Mem) (data length size : ℕ) :
    (kept m data length size).length = min length size := length_read _ _ _

theorem forceSection_eq (h : Ok rb) (m : Mem) (data length : ℕ) :
    forceSection rb (ringBufferGetEmptyLength rb) m data length =
      (if rb.readMirror = rb.writeMirror ∧
          rb.size < ringBufferGetLength rb + min length rb.size then
        { forced rb (kept m data length rb.size) with
          readMirror := ~~~(forced rb (kept m data length rb.size)).readMirror }
      else forced rb (kept m data length rb.size), min length rb.size) := by
  have hw := h.write_lt
  have hsize := h.size_lt
  have hle := h.length_le
  have hpair : (if length > rb.size then (data + (length - rb.size), rb.size) else (data, length)) =
      (data + (length - rb.size), min length rb.size) := by
    split
    · rw [Nat.min_eq_right (by omega)]
    · rw [Nat.min_eq_left (by omega), Nat.sub_eq_zero_of_le (by omega), Nat.add_zero]
  have hbs := length_kept m data length rb.size
  have hkept : kept m data length rb.size =
      read m (data + (length - rb.size)) (min length rb.size) := rfl
  unfold forceSection
  simp only [hpair, h.emptyLength_eq, h.indexRemained]
  generalize hn : min length rb.size = n at hbs hkept
  generalize data + (length - rb.size) = data' at hkept
  have hnle : n ≤ rb.size := by omega
  generalize kept m data length rb.size = bs at hbs hkept
  by_cases hplain : rb.size - rb.writeIndex > n
  · have hadvance : advance rb.size rb.writeMirror rb.writeIndex n =
        (rb.writeMirror, rb.writeIndex + n) := if_pos hplain
    have haround : around rb bs = write rb.pointer rb.writeIndex bs := by
      rw [around, hbs, if_pos hplain]
    rw [if_pos hplain, u32Add_of_lt (by omega), ← hkept]
    by_cases hover : n > rb.size - ringBufferGetLength rb
    · -- the bytes given up go around the end
      have hm : rb.readMirror = ~~~rb.writeMirror := by
        rcases h.length_cases with ⟨-, hlen⟩ | ⟨hm, -⟩
        · omega
        · exact hm
      have hne : ¬ (rb.readMirror = rb.writeMirror ∧ rb.size < ringBufferGetLength rb + n) := by
        rw [hm]
        exact fun h => mirror_ne_not _ h.1.symm
      rw [if_pos hover, if_neg hne, forced_of_over h (by omega) (by omega), hbs, hadvance, haround,
        ← hm]
    · rw [if_neg hover, if_neg (fun h => by omega), forced_of_room h (by omega), written, hbs,
        hadvance, haround]
  · have hadvance : advance rb.size rb.writeMirror rb.writeIndex n =
        (~~~rb.writeMirror, n - (rb.size - rb.writeIndex)) := by
      have hindex : rb.writeIndex + n - rb.size = n - (rb.size - rb.writeIndex) := by omega
      rw [advance, if_neg hplain, hindex]
    have haround : around rb bs =
        write (write rb.pointer rb.writeIndex (read m data' (rb.size - rb.writeIndex))) 0
          (read m (data' + (rb.size - rb.writeIndex)) (n - (rb.size - rb.writeIndex))) := by
      rw [around, hbs, if_neg hplain, hkept, take_read (by omega), drop_read (by omega)]
    rw [if_neg hplain, u32Sub_of_le (by omega) (by omega), ← haround]
    by_cases hover : n > rb.size - ringBufferGetLength rb
    · have hover' : rb.size < ringBufferGetLength rb + n := by omega
      rw [if_pos hover, forced_of_over h (by omega) (by omega), hbs, hadvance]
      rcases h.length_cases with ⟨hm, hlen⟩ | ⟨hm, hlen, -⟩
      · rw [if_pos ⟨hm, hover'⟩, hm, not_not_mirror]
      · have hne : ¬ (rb.readMirror = rb.writeMirror ∧ rb.size < ringBufferGetLength rb + n) := by
          rw [hm]
          exact fun h => mirror_ne_not _ h.1.symm
        rw [if_neg hne, hm]
    · rw [if_neg hover, if_neg (fun h => by omega), forced_of_room h (by omega), written, hbs,
        hadvance]

/-- What is kept are the last bytes. -/
theorem drop_append_read {l : List UInt8} (hl : l.length ≤ n) (m : Mem) (data length : ℕ) :
    l.drop (l.length + min length n - n) ++ kept m data length n =
      (l ++ read m data length).drop (l.length + length - n) := by
  unfold kept
  rw [List.drop_append]
  by_cases hlen : length ≤ n
  · have hzero : l.length + length - n - l.length = 0 := by omega
    rw [Nat.min_eq_left hlen, Nat.sub_eq_zero_of_le hlen, hzero, Nat.add_zero, List.drop_zero]
  · have hrest : l.length + length - n - l.length = length - n := by omega
    rw [Nat.min_eq_right (by omega), Nat.add_sub_cancel, List.drop_length,
      List.drop_eq_nil_of_le (by omega), hrest, drop_read (by omega)]
    congr 2
    omega

/-- **Writing over the oldest bytes.**  `Ring_Buffer_Write_Force` leaves the last bytes that the
buffer holds, except when it has to give up some and the contents do not go around the end of the
buffer: then it leaves an empty one. -/
theorem ringBufferWriteForce_contents (h : Ok rb) (m : Mem) (data length : ℕ) :
    Ok (ringBufferWriteForce rb m data length).1 ∧
      (ringBufferWriteForce rb m data length).2 = min length rb.size ∧
      contents (ringBufferWriteForce rb m data length).1 =
        if rb.readIndex + (contents rb).length < rb.size ∧ contents rb ≠ [] ∧
            rb.size < (contents rb).length + length then []
        else (contents rb ++ read m data length).drop ((contents rb).length + length - rb.size) := by
  have hle := h.length_le
  have hbs := length_kept m data length rb.size
  have hfits : (kept m data length rb.size).length ≤ rb.size := by omega
  obtain ⟨hok, hcontents⟩ := h.ok_forced hfits
  have hcond : (rb.readMirror = rb.writeMirror ∧
      rb.size < ringBufferGetLength rb + min length rb.size) ↔
      rb.readIndex + (contents rb).length < rb.size ∧ contents rb ≠ [] ∧
        rb.size < (contents rb).length + length := by
    have hne : contents rb ≠ [] ↔ ringBufferGetLength rb ≠ 0 := length_eq_zero.not.symm
    rw [h.mirror_eq_iff, length_contents, hne]
    omega
  rw [ringBufferWriteForce, forceSection_eq h]
  by_cases hflip : rb.readMirror = rb.writeMirror ∧
      rb.size < ringBufferGetLength rb + min length rb.size
  · rw [if_pos hflip, if_pos (hcond.1 hflip)]
    obtain ⟨hindex, hm⟩ := h.makeRoom_reader (n := min length rb.size) (by omega) hflip.2
    rw [← hbs] at hindex hm
    obtain ⟨hok', hempty⟩ := ok_flipped hok hindex hm
    exact ⟨hok', rfl, hempty⟩
  · rw [if_neg hflip, if_neg (hcond.not.1 hflip)]
    refine ⟨hok, rfl, ?_⟩
    rw [hcontents, hbs, ← length_contents]
    exact drop_append_read (by rwa [length_contents]) m data length

/-! ## One byte -/

theorem around_singleton (h : Ok rb) (b : UInt8) :
    around rb [b] = write rb.pointer rb.writeIndex [b] := by
  have hw := h.write_lt
  obtain ⟨k, hk⟩ : ∃ k, rb.size - rb.writeIndex = k + 1 :=
    Nat.exists_eq_succ_of_ne_zero (by omega)
  rw [around, hk]
  split
  · rfl
  · rw [List.take_succ_cons, List.drop_succ_cons, List.take_nil, List.drop_nil, write_nil]

theorem ringBufferWriteByteForce_eq (h : Ok rb) (data : UInt8) :
    ringBufferWriteByteForce rb data = (forced rb [data], 1) := by
  have hw := h.write_lt
  have hr := h.read_lt
  have hsize := h.size_lt
  have hle := h.length_le
  have hlast : u32Sub rb.size 1 = rb.size - 1 := u32Sub_of_le (by omega) hsize
  have haround := around_singleton h data
  have hone : [data].length = 1 := rfl
  unfold ringBufferWriteByteForce
  by_cases hfull : ringBufferGetLength rb = rb.size
  · have hstatus : ringBufferGetStatus rb = .ringBufferFull := by
      rw [ringBufferGetStatus_eq h, if_neg (by omega), if_pos hfull]
    have hm : rb.readMirror = ~~~rb.writeMirror := by
      rcases h.length_cases with ⟨-, hlen⟩ | ⟨hm, -⟩
      · omega
      · exact hm
    rw [forced_of_over h (by omega) (by omega), haround]
    simp only [hstatus, if_true, hlast]
    by_cases hend : rb.writeIndex = rb.size - 1
    · have hadvance : advance rb.size rb.writeMirror rb.writeIndex [data].length =
          (~~~rb.writeMirror, 0) := by
        have hzero : rb.writeIndex + 1 - rb.size = 0 := by omega
        rw [List.length_singleton, advance, if_neg (by omega), hzero]
      rw [if_pos hend, hadvance, hm]
    · have hadvance : advance rb.size rb.writeMirror rb.writeIndex [data].length =
          (rb.writeMirror, rb.writeIndex + 1) := by
        rw [List.length_singleton, advance, if_pos (by omega)]
      rw [if_neg hend, hadvance, u32Add_of_lt (by omega), ← hm]
  · have hstatus : ringBufferGetStatus rb ≠ .ringBufferFull := by
      rw [ringBufferGetStatus_eq h, if_neg hfull]
      split <;> simp
    have hpush := h.written_push (write rb.pointer rb.writeIndex [data])
    rw [forced_of_room h (by omega), haround,
      List.length_singleton, hpush]
    by_cases hend : rb.writeIndex = u32Sub rb.size 1
    · simp only [if_pos hend, if_neg hstatus]
    · simp only [if_neg hend, if_neg hstatus]

/-- `Ring_Buffer_Write_Byte_Force` gives up the oldest byte of a full buffer, and no other. -/
theorem ringBufferWriteByteForce_contents (h : Ok rb) (data : UInt8) :
    Ok (ringBufferWriteByteForce rb data).1 ∧
      contents (ringBufferWriteByteForce rb data).1 =
        (contents rb ++ [data]).drop ((contents rb).length + 1 - rb.size) := by
  have hle := h.length_le
  have hr := h.read_lt
  rw [ringBufferWriteByteForce_eq h]
  have hone : [data].length ≤ rb.size := show 1 ≤ rb.size by omega
  obtain ⟨hok, hcontents⟩ := h.ok_forced hone
  refine ⟨hok, ?_⟩
  rw [hcontents, List.drop_append_of_le_length (by rw [length_contents]; omega), length_contents]
  rfl

end RingBuffer
