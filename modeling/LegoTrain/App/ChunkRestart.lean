import LegoTrain.App.Chunks

/-!
# A frame sent again from its start

The loop of `sendOnePage` takes the packets of a frame until there is none, and
`RobotData.reset` stands for beginning again.

* `RobotDataObject.drains_drop` : what the loop takes is the frame from the cursor on;
* `RobotDataObject.bytesProcessed_reset` : `reset` leaves the cursor where it is;
* `RobotDataObject.restarts_iff` : so the frame starts again only if nothing was taken.
-/

namespace App

/-- `RobotData` with the two fields that `getNextChunk` does not read. -/
structure RobotDataObject extends RobotData where
  remainingBytes : ℕ
  txCounter : ℕ
  deriving DecidableEq

namespace RobotDataObject

/-- `size`. -/
def size (d : RobotDataObject) : ℕ := d.robotData.length

/-- The constructor. -/
def ofData (data : List UInt8) : RobotDataObject :=
  ⟨RobotData.ofData data, (RobotData.ofData data).robotData.length, 0⟩

/-- `getNextChunk`; it writes `remainingBytes` whether or not a packet is left. -/
def getNextChunk (d : RobotDataObject) : Option (List UInt8) × RobotDataObject :=
  match d.toRobotData.getNextChunk with
  | none => (none, { d with remainingBytes := d.size - d.bytesProcessed })
  | some (nextPacket, d') => (some nextPacket, ⟨d', d.size - d.bytesProcessed, d.txCounter⟩)

/-- `reset`. -/
def reset (d : RobotDataObject) : RobotDataObject :=
  { d with remainingBytes := d.size, txCounter := 0 }

@[simp] theorem robotData_reset (d : RobotDataObject) : d.reset.robotData = d.robotData := rfl

/-- `reset` leaves the cursor where it is. -/
@[simp] theorem bytesProcessed_reset (d : RobotDataObject) :
    d.reset.bytesProcessed = d.bytesProcessed := rfl

/-! ## One packet -/

/-- What a call leaves at the end of the frame. -/
def takenAll (d : RobotDataObject) : RobotDataObject :=
  { d with remainingBytes := d.size - d.bytesProcessed }

theorem getNextChunk_eq_none {d : RobotDataObject} (h : d.bytesProcessed = d.robotData.length) :
    d.getNextChunk = (none, d.takenAll) := by
  rw [getNextChunk, RobotData.getNextChunk_eq_none h, takenAll]

/-- What a call leaves behind a packet that ends at `k`. -/
def takenTo (d : RobotDataObject) (k : ℕ) : RobotDataObject :=
  ⟨{ d.toRobotData with bytesProcessed := k }, d.size - d.bytesProcessed, d.txCounter⟩

/-- Before the end a packet of at most 240 bytes is handed out, and the cursor stands
behind it. -/
theorem getNextChunk_eq_some {d : RobotDataObject} (h : d.bytesProcessed < d.robotData.length) :
    ∃ k, d.getNextChunk = (some (copyOfRange d.robotData d.bytesProcessed k), d.takenTo k) ∧
      d.bytesProcessed < k ∧ k ≤ d.robotData.length ∧
      k ≤ d.bytesProcessed + RobotData.defaultPacketSizeBytes := by
  have hne : ¬ d.toRobotData.remainingBytes = 0 := by
    rw [RobotData.remainingBytes]
    omega
  refine ⟨d.bytesProcessed + d.bytesToProcess, ?_, ?_⟩
  · simp only [getNextChunk, RobotData.getNextChunk, if_neg hne, takenTo]
  · unfold RobotData.bytesToProcess RobotData.remainingBytes RobotData.defaultPacketSizeBytes
    split <;> omega

/-- A packet is handed out only before the end of the frame. -/
theorem lt_of_getNextChunk_eq_some {d d' : RobotDataObject} {nextPacket : List UInt8}
    (h : d.getNextChunk = (some nextPacket, d')) : d.bytesProcessed < d.robotData.length := by
  by_contra hge
  have hnone : d.toRobotData.getNextChunk = none := by
    rw [RobotData.getNextChunk, if_pos (by rw [RobotData.remainingBytes]; omega)]
  simp [getNextChunk, hnone] at h

/-- A packet that is handed out moves the cursor. -/
theorem rest_lt_of_getNextChunk_eq_some {d d' : RobotDataObject} {nextPacket : List UInt8}
    (h : d.getNextChunk = (some nextPacket, d')) :
    d'.robotData.length - d'.bytesProcessed < d.robotData.length - d.bytesProcessed := by
  obtain ⟨k, heq, hlt, hle, -⟩ := getNextChunk_eq_some (lt_of_getNextChunk_eq_some h)
  rw [heq] at h
  obtain ⟨-, rfl⟩ := Prod.mk.inj h
  simp only [takenTo]
  omega

/-! ## The loop -/

/-- The loop of `sendOnePage`: the packets until there is none, and what is left of the
object. -/
def drain (d : RobotDataObject) : List (List UInt8) × RobotDataObject :=
  match _h : d.getNextChunk with
  | (none, d') => ([], d')
  | (some nextPacket, d') => (nextPacket :: (drain d').1, (drain d').2)
termination_by d.robotData.length - d.bytesProcessed
decreasing_by
  all_goals exact rest_lt_of_getNextChunk_eq_some _h

/-- `k` calls of `getNextChunk`. -/
def calls : ℕ → RobotDataObject → RobotDataObject
  | 0, d => d
  | k + 1, d => calls k d.getNextChunk.2

/-- The loop takes `bytes`, in packets that are not empty and have at most 240 bytes, and
finds nothing after them. -/
structure Drains (d : RobotDataObject) (bytes : List UInt8) : Prop where
  flatten : d.drain.1.flatten = bytes
  ne_nil : ∀ nextPacket ∈ d.drain.1, nextPacket ≠ []
  length_le : ∀ nextPacket ∈ d.drain.1, nextPacket.length ≤ 240
  ends : d.drain.2.getNextChunk.1 = none

theorem drain_of_none {d d' : RobotDataObject} (h : d.getNextChunk = (none, d')) :
    d.drain = ([], d') := by
  rw [drain]
  split <;> simp_all

theorem drain_of_some {d d' : RobotDataObject} {nextPacket : List UInt8}
    (h : d.getNextChunk = (some nextPacket, d')) :
    d.drain = (nextPacket :: d'.drain.1, d'.drain.2) := by
  rw [drain]
  split <;> simp_all

theorem copyOfRange_append_drop {bs : List UInt8} {i j : ℕ} (h : i ≤ j) :
    copyOfRange bs i j ++ bs.drop j = bs.drop i := by
  have hj : bs.drop j = (bs.drop i).drop (j - i) := by rw [List.drop_drop, Nat.add_sub_cancel' h]
  rw [copyOfRange, hj, List.take_append_drop]

/-- The loop takes the frame from the cursor on. -/
theorem drains_drop (d : RobotDataObject) (hle : d.bytesProcessed ≤ d.robotData.length) :
    Drains d (d.robotData.drop d.bytesProcessed) := by
  induction hn : d.robotData.length - d.bytesProcessed using Nat.strong_induction_on
    generalizing d with
  | _ n ih =>
    rcases Nat.lt_or_eq_of_le hle with hlt | heq
    · obtain ⟨k, hget, hk, hkle, hmax⟩ := getNextChunk_eq_some hlt
      have hrest := rest_lt_of_getNextChunk_eq_some hget
      have hlen := length_copyOfRange (i := d.bytesProcessed) hkle
      obtain ⟨hflat, hne, hlenle, hends⟩ := ih _ (hn ▸ hrest) (d.takenTo k) hkle rfl
      have hdrain := drain_of_some hget
      refine ⟨?_, ?_, ?_, ?_⟩
      · rw [hdrain, List.flatten_cons, hflat]
        exact copyOfRange_append_drop (Nat.le_of_lt hk)
      · rw [hdrain]
        intro nextPacket hmem
        rcases List.mem_cons.mp hmem with rfl | hmem
        · exact List.ne_nil_of_length_pos (by omega)
        · exact hne nextPacket hmem
      · rw [hdrain]
        intro nextPacket hmem
        rcases List.mem_cons.mp hmem with rfl | hmem
        · rw [RobotData.defaultPacketSizeBytes] at hmax
          omega
        · exact hlenle nextPacket hmem
      · rw [hdrain]
        exact hends
    · have hdrain := drain_of_none (getNextChunk_eq_none heq)
      refine ⟨?_, ?_, ?_, ?_⟩
      · simp [hdrain, heq]
      · simp [hdrain]
      · simp [hdrain]
      · rw [hdrain, getNextChunk_eq_none (d := d.takenAll) heq]

/-! ## Starting again -/

/-- The length in two bytes, low byte first, and the payload. -/
def frame (data : List UInt8) : List UInt8 :=
  [UInt8.ofNat (data.length % 256), UInt8.ofNat (data.length / 256)] ++ data

/-- The loop takes the whole frame of a payload, and again after `k` calls and a `reset`. -/
structure Restarts (data : List UInt8) (k : ℕ) : Prop where
  fresh : Drains (ofData data) (frame data)
  again : Drains (calls k (ofData data)).reset (frame data)

theorem robotData_ofData (data : List UInt8) : (ofData data).robotData = frame data := by
  have hlow : UInt8.ofNat data.length = UInt8.ofNat (data.length % 256) :=
    UInt8.toNat.inj (by simp)
  simp only [ofData, RobotData.ofData, toBytes, ByteMem.leBytes, frame, hlow]

/-- Calls keep the frame and do not move the cursor back. -/
theorem calls_keeps (k : ℕ) (d : RobotDataObject) (hle : d.bytesProcessed ≤ d.robotData.length) :
    (calls k d).robotData = d.robotData ∧ d.bytesProcessed ≤ (calls k d).bytesProcessed ∧
      (calls k d).bytesProcessed ≤ d.robotData.length := by
  induction k generalizing d with
  | zero => exact ⟨rfl, Nat.le_refl _, hle⟩
  | succ k ih =>
    rcases Nat.lt_or_eq_of_le hle with hlt | heq
    · obtain ⟨j, hget, hj, hjle, -⟩ := getNextChunk_eq_some hlt
      obtain ⟨hdata, hge, hle'⟩ := ih (d.takenTo j) hjle
      rw [calls, hget]
      exact ⟨hdata, Nat.le_trans (Nat.le_of_lt hj) hge, hle'⟩
    · obtain ⟨hdata, hge, hle'⟩ := ih d.takenAll hle
      rw [calls, getNextChunk_eq_none heq]
      exact ⟨hdata, hge, hle'⟩

/-- The first call moves the cursor of a frame that has bytes. -/
theorem bytesProcessed_calls_pos {k : ℕ} (hk : k ≠ 0) {d : RobotDataObject}
    (hlt : d.bytesProcessed < d.robotData.length) : 0 < (calls k d).bytesProcessed := by
  obtain ⟨k, rfl⟩ := Nat.exists_eq_succ_of_ne_zero hk
  obtain ⟨j, hget, hj, hjle, -⟩ := getNextChunk_eq_some hlt
  obtain ⟨-, hge, -⟩ := calls_keeps k (d.takenTo j) hjle
  rw [calls, hget]
  exact Nat.lt_of_lt_of_le (Nat.zero_lt_of_lt hj) hge

/-- A frame that was begun does not start again. -/
theorem restarts_iff (data : List UInt8) (k : ℕ) : Restarts data k ↔ k = 0 := by
  have hdata := robotData_ofData data
  have hzero : (ofData data).bytesProcessed = 0 := rfl
  have hfresh : Drains (ofData data) (frame data) := by
    have hdrop := drains_drop (ofData data) (by rw [hzero]; exact Nat.zero_le _)
    rwa [hdata, hzero, List.drop_zero] at hdrop
  constructor
  · intro hr
    by_contra hk
    have hlt : (ofData data).bytesProcessed < (ofData data).robotData.length := by
      rw [hdata, hzero]
      simp [frame]
    have hpos := bytesProcessed_calls_pos hk hlt
    obtain ⟨hrobot, -, hle⟩ := calls_keeps k (ofData data) (Nat.le_of_lt hlt)
    -- what the loop takes after the reset is shorter than the frame
    have hdrop := drains_drop (calls k (ofData data)).reset (by simpa [hrobot] using hle)
    have hlen := congrArg List.length (hdrop.flatten.symm.trans hr.again.flatten)
    rw [robotData_reset, bytesProcessed_reset, hrobot, hdata, List.length_drop] at hlen
    have hframe : 0 < (frame data).length := by simp [frame]
    omega
  · rintro rfl
    refine ⟨hfresh, ?_⟩
    have hdrop := drains_drop (calls 0 (ofData data)).reset (Nat.zero_le _)
    rwa [calls, robotData_reset, bytesProcessed_reset, hdata, hzero, List.drop_zero] at hdrop

/-- A payload of one byte is one packet, behind which a `reset` leaves nothing. -/
theorem not_restarts :
    ¬ ∀ (data : List UInt8) (k : ℕ), data.length < 65536 → Restarts data k := by
  intro h
  have hnone : (calls 1 (ofData [1])).reset.getNextChunk
      = (none, (calls 1 (ofData [1])).reset.takenAll) := by decide
  have hflat := (h [1] 1 (by decide)).again.flatten
  rw [drain_of_none hnone] at hflat
  simp [frame] at hflat

end RobotDataObject

end App
