import LegoTrain.App.SenderAddresses
import LegoTrain.Ota.Erase

/-!
# The app and the loader over two lossy channels

The update handler of the app and the loader of the robot as one transition system.  What
the app writes and what the loader answers travels in two channels, which deliver in order,
late or not at all.  A message is a whole frame: a frame of which a packet is missing is a
lost frame.

* `System.step` : the steps of the app, the arrival of a response, the turn of the loader
  with whatever befalls the flash, and the losses;
* `onFrame_page` : what a page frame does to the flash, and what an `OK` to it says;
* `onFrame_other` : the frames that leave the image alone.
-/

namespace Ota

open ByteMem Flash Partition App Loader

/-- The two parties, and the frames and responses in flight, oldest first. -/
structure System where
  app : Handler
  loader : State
  toRobot : List (List UInt8)
  toApp : List Response

inductive SysEvent
  /-- the app goes on; `onResponse` is not an event of its own -/
  | app (e : App.Event)
  /-- the oldest response arrives at the app -/
  | deliver
  /-- the loader takes the oldest frame, into a buffer with old content; `faults` befall the
  flash while it is processed -/
  | loader (oldBuf : Mem) (faults : List Fault)
  /-- the loader has waited in vain -/
  | loaderTimeout
  /-- a frame or a response is lost -/
  | loseFrame (i : ℕ)
  | loseResponse (i : ℕ)

namespace System

/-- A step of the app; a frame that it hands over is in flight then. -/
def appStep (s : System) (e : App.Event) : Option System :=
  match e with
  | .onResponse _ => none
  | e => (App.step s.app e).map fun app => { s with
      app := app, toRobot := s.toRobot ++ (App.sends s.app e).toList }

def deliver (s : System) : Option System :=
  match s.toApp with
  | [] => none
  | r :: rest => some { s with app := App.onResponse s.app r, toApp := rest }

/-- The loader as it takes up a frame. -/
def turn (s : System) (faults : List Fault) : State :=
  { s.loader with dev := { s.loader.dev with faults := faults }, sent := [] }

/-- The loader processes a frame; its responses are in flight then. -/
def loaderStep (env : Env) (s : System) (oldBuf : Mem) (faults : List Fault) : Option System :=
  match s.toRobot with
  | [] => none
  | frame :: rest =>
    (Loader.step env (s.turn faults) ⟨write oldBuf 0 frame, frame.length⟩).map fun l => { s with
      loader := l, toRobot := rest, toApp := s.toApp ++ l.sent.map fun data => ⟨data, frame⟩ }

/-- The system, one event at a time. -/
def step (env : Env) (s : System) : SysEvent → Option System
  | .app e => s.appStep e
  | .deliver => s.deliver
  | .loader oldBuf faults => s.loaderStep env oldBuf faults
  | .loaderTimeout =>
    (Loader.step env s.loader ⟨fun _ => 0, 0⟩).map fun l => { s with loader := l }
  | .loseFrame i => some { s with toRobot := s.toRobot.eraseIdx i }
  | .loseResponse i => some { s with toApp := s.toApp.eraseIdx i }

/-- The start of an update: the app has the image, nothing is in flight. -/
def init (image : List UInt8) (l : State) : System where
  app := App.start image
  loader := l
  toRobot := []
  toApp := []

/-- The flash array of the robot. -/
def mem (s : System) : Mem := s.loader.dev.mem

end System

/-! ## What the frames do to the image -/

/-- Byte `n` to byte `k` of the image are in the flash. -/
def Stored (mem : Mem) (image : List UInt8) (n k : ℕ) : Prop :=
  ∀ i, n ≤ i → i < k → mem (flashStartAddress + i) = image.getD i 0

theorem Stored.append {mem : Mem} {image : List UInt8} {n k j : ℕ} (h : Stored mem image n k)
    (h' : Stored mem image k j) : Stored mem image n j := by
  intro i hn hj
  rcases Nat.lt_or_ge i k with hi | hi
  · exact h i hn hi
  · exact h' i hi hj

/-- The frame of a page of the image. -/
structure PageFrame (image : List UInt8) (n k : ℕ) (frame : List UInt8) : Prop where
  lt : n < k
  le : k ≤ image.length
  le_size : k ≤ n + BleFirmwareData.programSize
  eq : frame = programOnePageCommandPayload (flashStartAddress + n) (copyOfRange image n k)

/-- No bit that the data needs set has been cleared before: the bytes are still erased, or
hold the data already. -/
def Writable (mem : Mem) (addr : ℕ) (data : List UInt8) : Prop :=
  ∀ i, i < data.length → mem (addr + i) &&& data.getD i 0 = data.getD i 0

/-- Programming any part of a page leaves alone what is stored. -/
theorem Stored.program {mem : Mem} {image : List UInt8} {n k a b m : ℕ} (hle : b ≤ image.length)
    (h : Stored mem image n k) :
    Stored (Nor.program mem (flashStartAddress + a) ((copyOfRange image a b).take m)) image n k := by
  intro i hn hk
  have hi := h i hn hk
  have hlen : ((copyOfRange image a b).take m).length = min m (b - a) := by
    rw [List.length_take, length_copyOfRange hle]
  by_cases hin : a ≤ i ∧ i < a + min m (b - a)
  · obtain ⟨j, rfl⟩ := Nat.exists_eq_add_of_le hin.1
    have hj : j < ((copyOfRange image a b).take m).length := by omega
    have hget : ((copyOfRange image a b).take m).getD j 0 = image.getD (a + j) 0 := by
      rw [← getD_copyOfRange (j := b) (by omega), List.getD_eq_getElem _ _ hj, List.getElem_take,
        List.getD_eq_getElem]
    rw [← Nat.add_assoc, Nor.program_inside hj, Nat.add_assoc, hget, hi, UInt8.and_self]
  · rw [Nor.program_outside (by omega), hi]

/-- Programming a writable page stores it. -/
theorem stored_program {mem : Mem} {image : List UInt8} {n k : ℕ} (hle : k ≤ image.length)
    (hw : Writable mem (flashStartAddress + n) (copyOfRange image n k)) :
    Stored (Nor.program mem (flashStartAddress + n) (copyOfRange image n k)) image n k := by
  intro i hn hk
  obtain ⟨j, rfl⟩ := Nat.exists_eq_add_of_le hn
  have hj : j < (copyOfRange image n k).length := by
    rw [length_copyOfRange hle]
    omega
  rw [← Nat.add_assoc, Nor.program_inside hj, hw j hj, getD_copyOfRange (by omega)]

theorem PageFrame.length {image frame : List UInt8} {n k : ℕ} (h : PageFrame image n k frame) :
    (copyOfRange image n k).length = k - n ∧ 0 < k - n ∧ k - n ≤ 4096 := by
  have hlt := h.lt
  have hle := h.le_size
  unfold BleFirmwareData.programSize at hle
  exact ⟨length_copyOfRange h.le, by omega, by omega⟩

/-- Whatever befalls the flash, a page frame programs a prefix of the page, and all of it
when it is answered with `OK`. -/
theorem onFrame_page (env : Env) {l : State} {recvBuf : Mem} {image frame : List UInt8} {n k : ℕ}
    (hsize : image.length < 2 ^ 31) (hpage : PageFrame image n k frame)
    (hholds : Holds recvBuf frame) (hsent : l.sent = []) :
    ∃ m, (onFrame env l recvBuf).dev.mem
        = Nor.program l.dev.mem (flashStartAddress + n) ((copyOfRange image n k).take m) ∧
      ∀ response ∈ (onFrame env l recvBuf).sent, responseOk response = true →
        m = (copyOfRange image n k).length := by
  obtain ⟨hlen, hpos, hmax⟩ := hpage.length
  have hle := hpage.le
  rw [hpage.eq] at hholds
  have hdata : (toBytes (flashStartAddress + n) 4 ++ copyOfRange image n k).length
      = 4 + (k - n) := by
    rw [List.length_append, length_toBytes, hlen]
  have haddr : flashStartAddress + n < 0xffffffff := by
    unfold flashStartAddress
    omega
  obtain ⟨hto, hread⟩ := holds_programOnePage hholds (by omega)
  rw [hlen] at hread
  have hcmd := cmdProcess_write env l (holds_command hholds (by decide))
    ((holds_cmdLen hholds (by omega)).trans hdata) hpos hto haddr
  obtain ⟨hdev, hsent'⟩ := onFrame_dev_sent env l (holds_checksumOk hholds (by omega))
  obtain ⟨m, hmem, hresp⟩ := writeImg_spec l (flashStartAddress + n) (copyOfRange image n k)
  rw [hcmd, hread] at hdev hsent'
  refine ⟨m, ?_, ?_⟩
  · have htake : ((copyOfRange image n k).take m).length ≤ k - n := by
      rw [List.length_take, hlen]
      exact Nat.min_le_right _ _
    rw [hdev, hmem, sflashProgram_eq (by unfold flashStartAddress at *; omega)]
  · intro response hmem hok
    rw [hsent'] at hmem
    rcases hresp response hmem with h | ⟨-, h⟩ | rfl
    · rw [hsent] at h
      cases h
    · exact h
    · exact absurd hok (by decide)

/-- The commands of the other frames. -/
def IsEraseFrame (frame : List UInt8) : Prop := frame.head? = some 0x30

/-- A frame that is no erase and no write leaves the flash alone from the start of the
firmware on. -/
theorem onFrame_other (env : Env) (l : State) {recvBuf : Mem} {frame : List UInt8} {x : ℕ}
    (hholds : Holds recvBuf frame) (hne : frame ≠ []) (he : ¬ IsEraseFrame frame)
    (hw : ¬ IsWriteFrame frame) (hx : flashStartAddress ≤ x) :
    (onFrame env l recvBuf).dev.mem x = l.dev.mem x := by
  obtain ⟨b, bs, rfl⟩ := List.exists_cons_of_ne_nil hne
  have hbyte : recvBuf 0 = b := by
    have hread := hholds.sub (o := 0) (k := 1) (by simp)
    exact List.head_eq_of_cons_eq hread
  by_contra hchange
  obtain ⟨-, hfoot⟩ := onFrame_changes hchange
  cases hfoot with
  | erase hcmd hlen h =>
    have hb : b = 0x30 := UInt8.toNat_inj.1 (by rw [← hbyte, hcmd]; rfl)
    exact he (congrArg some hb)
  | write hcmd hlen i hi h =>
    have hb : b = 0x31 := UInt8.toNat_inj.1 (by rw [← hbyte, hcmd]; rfl)
    exact hw (congrArg some hb)
  | reset hcmd b hb h =>
    have hend : tableAddress b + sectorSize ≤ flashStartAddress := by cases b <;> decide
    omega

end Ota
