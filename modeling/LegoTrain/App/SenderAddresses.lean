import LegoTrain.App.HandlerMoves

/-!
# The addresses of the sender

The address counter `prog_addr` and the cursor of the firmware are advanced in different
places, and `onDisconnected` resets the cursor alone.

* `Inv` : in the page loop the counter, the page in hand and the cursor belong together;
* `addresses_agree` : as long as the connection is not lost in the page loop, every page
  frame carries the bytes of the image that its address stands for;
* `addresses_disagree` : a lost connection in the page loop breaks this.
-/

namespace App

open ByteMem Transition

/-- The frame carries an address and the bytes of the image at that address. -/
def FrameOk (image frame : List UInt8) : Prop :=
  ∃ a d, frame = programOnePageCommandPayload a d ∧ flashStartAddress ≤ a ∧
    a + d.length ≤ flashStartAddress + image.length ∧
    d = copyOfRange image (a - flashStartAddress) (a - flashStartAddress + d.length)

/-- A frame with the command `FLASH_WRITE`. -/
def IsWriteFrame (frame : List UInt8) : Prop := frame.head? = some 0x31

instance (frame : List UInt8) : Decidable (IsWriteFrame frame) :=
  inferInstanceAs (Decidable (frame.head? = some 0x31))

/-- The bytes `n` to `k` of the image are in hand, and belong to the counter and to the
cursor. -/
structure PageAt (image : List UInt8) (h : Handler) (n k : ℕ) : Prop where
  lt : n < k
  le : k ≤ image.length
  le_size : k ≤ n + BleFirmwareData.programSize
  addr : h.progAddr = flashStartAddress + n
  chunk : h.firmwareChunk = copyOfRange image n k
  cursor : h.firmwareData.At image k

/-- The invariant of the handler. -/
structure Inv (image : List UInt8) (h : Handler) : Prop where
  data : h.firmwareData.firmwareData = image
  ready : h.pc.phase = .ready → h.firmwareData.At image 0
  page : h.pc.phase.InPageLoop → ∃ n k, PageAt image h n k

theorem not_inPageLoop {p : Phase} (h1 : p ≠ .paging) (h2 : p ≠ .paged) : ¬ p.InPageLoop := by
  rintro (h | h)
  · exact h1 h
  · exact h2 h

theorem inv_start (image : List UInt8) : Inv image (start image) where
  data := rfl
  ready := fun h => by cases h
  page := fun h => absurd h (not_inPageLoop nofun nofun)

/-- Loading a page at the right address. -/
theorem loadChunk_spec {image : List UInt8} {h : Handler} {n : ℕ}
    (haddr : h.progAddr = flashStartAddress + n) (hcur : h.firmwareData.At image n) :
    (n = image.length ∧ loadChunk h = { h with pc := .systemReset }) ∨
      (loadChunk h).pc = .sendClear 10 ∧ ∃ k, PageAt image (loadChunk h) n k := by
  rcases Nat.lt_or_ge n image.length with hn | hn
  · right
    obtain ⟨k, d', hget, hlt, hle, hsize, -, hcur'⟩ := hcur.getNextChunk_eq_some hn
    rw [loadChunk, hget]
    exact ⟨rfl, k, hlt, hle, hsize, haddr, rfl, hcur'⟩
  · left
    obtain rfl : n = image.length := Nat.le_antisymm hcur.le hn
    rw [loadChunk, hcur.getNextChunk_eq_none]
    exact ⟨rfl, rfl⟩

theorem inv_loadChunk {image : List UInt8} {h : Handler} {n : ℕ}
    (haddr : h.progAddr = flashStartAddress + n) (hcur : h.firmwareData.At image n) :
    Inv image (loadChunk h) := by
  rcases loadChunk_spec haddr hcur with ⟨-, heq⟩ | ⟨hpc, k, hpage⟩
  · rw [heq]
    exact ⟨hcur.data, nofun, fun h => absurd h (not_inPageLoop nofun nofun)⟩
  · refine ⟨hpage.cursor.data, fun h => ?_, fun _ => ⟨n, k, hpage⟩⟩
    rw [hpc] at h
    cases h

/-- The address behind the page in hand. -/
theorem PageAt.next_addr {image : List UInt8} {h : Handler} {n k : ℕ} (hp : PageAt image h n k) :
    h.progAddr + h.firmwareChunk.length = flashStartAddress + k := by
  rw [hp.addr, hp.chunk, length_copyOfRange hp.le, Nat.add_assoc,
    Nat.add_sub_cancel' (Nat.le_of_lt hp.lt)]

/-- Every move keeps the invariant. -/
theorem inv_move {image : List UInt8} {h h' : Handler} {e : Event} (hi : Inv image h)
    (hm : Move h e h') :
    Inv image h' := by
  cases hm with
  | stay hphase haddr hchunk hdata =>
    have hfw : h'.firmwareData.firmwareData = image := by
      rcases hdata with hd | ⟨hd, -⟩
      · rw [hd, hi.data]
      · rw [hd]
        exact hi.data
    refine ⟨hfw, fun hready => ?_, fun hloop => ?_⟩
    · rcases hphase with hp | hp
      · rcases hdata with hd | ⟨hd, -⟩
        · rw [hd]
          exact hi.ready (hp.symm.trans hready)
        · rw [hd]
          exact BleFirmwareData.at_reset hi.data
      · rw [hp] at hready
        cases hready
    · rcases hphase with hp | hp
      · rw [hp] at hloop
        obtain ⟨n, k, hpage⟩ := hi.page hloop
        have hd : h'.firmwareData = h.firmwareData := hdata.resolve_right fun hd => hd.2 hloop
        exact ⟨n, k, hpage.lt, hpage.le, hpage.le_size, haddr.trans hpage.addr,
          hchunk.trans hpage.chunk, by rw [hd]; exact hpage.cursor⟩
      · rw [hp] at hloop
        exact absurd hloop (not_inPageLoop nofun nofun)
  | reset hphase hphase' hdata =>
    have hcur : h'.firmwareData.At image 0 := by
      rw [hdata]
      exact BleFirmwareData.at_reset hi.data
    refine ⟨hcur.data, fun _ => hcur, fun hloop => ?_⟩
    rw [hphase'] at hloop
    exact absurd hloop (not_inPageLoop nofun nofun)
  | first hphase heq =>
    rw [heq]
    exact inv_loadChunk (n := 0) rfl (hi.ready hphase)
  | ok r rest retry timeout he hpc htime hrx hok heq =>
    obtain ⟨n, k, hpage⟩ := hi.page (.inl (by rw [hpc]; rfl))
    rw [heq]
    refine ⟨hi.data, nofun, fun _ => ⟨n, k, ?_⟩⟩
    exact ⟨hpage.lt, hpage.le, hpage.le_size, hpage.addr, hpage.chunk, hpage.cursor⟩
  | next hphase heq =>
    obtain ⟨n, k, hpage⟩ := hi.page (.inr hphase)
    rw [heq]
    exact inv_loadChunk hpage.next_addr hpage.cursor

/-- The frame of a page in hand is right. -/
theorem PageAt.frameOk {image : List UInt8} {h : Handler} {n k : ℕ} (hp : PageAt image h n k) :
    FrameOk image h.pageFrame := by
  have hlen : h.firmwareChunk.length = k - n := by rw [hp.chunk, length_copyOfRange hp.le]
  have hlt := hp.lt
  have hle := hp.le
  refine ⟨h.progAddr, h.firmwareChunk, rfl, ?_, ?_, ?_⟩
  · rw [hp.addr]
    exact Nat.le_add_right _ _
  · rw [hp.addr, hlen]
    omega
  · rw [hp.addr, hlen, Nat.add_sub_cancel_left, Nat.add_sub_cancel' (Nat.le_of_lt hlt), hp.chunk]

theorem OtherFrame.not_write {frame : List UInt8} (h : OtherFrame frame) :
    ¬ IsWriteFrame frame := by
  rcases h with rfl | ⟨size, rfl⟩ | rfl
  · decide
  · intro h
    cases h
  · decide

/-- All page frames so far are right. -/
def EmittedOk (image : List UInt8) (h : Handler) : Prop :=
  ∀ frame ∈ h.emitted, IsWriteFrame frame → FrameOk image frame

theorem emittedOk_step {image : List UInt8} {h h' : Handler} {e : Event} (hi : Inv image h)
    (hok : EmittedOk image h) (hs : step h e = some h') : EmittedOk image h' := by
  intro frame hmem hw
  rcases step_says hs with he | ⟨f, he, hf⟩
  · rw [he] at hmem
    exact hok frame hmem hw
  · rw [he] at hmem
    rcases List.mem_append.1 hmem with hmem | hmem
    · exact hok frame hmem hw
    · obtain rfl : frame = f := List.mem_singleton.1 hmem
      rcases hf with hother | ⟨rfl, hphase⟩
      · exact absurd hw hother.not_write
      · obtain ⟨n, k, hpage⟩ := hi.page (.inl hphase)
        exact hpage.frameOk

/-- **Address and data agree.**  In every run in which the connection is not lost while the
page loop runs, every write frame carries the bytes of the image at its address. -/
theorem addresses_agree {image : List UInt8} {es : List Event} {h : Handler}
    (hconn : Along step KeepsConnection (start image) es)
    (hrun : run step (start image) es = some h) :
    ∀ frame ∈ h.emitted, IsWriteFrame frame → FrameOk image frame := by
  have hinv : Inv image h ∧ EmittedOk image h := by
    refine run_inv (P := fun h => Inv image h ∧ EmittedOk image h) ?_ ?_ hconn hrun
    · intro s e s' hs he hstep
      exact ⟨inv_move hs.1 (step_move he hstep), emittedOk_step hs.1 hs.2 hstep⟩
    · exact ⟨inv_start image, fun frame hmem => by cases hmem⟩
  exact hinv.2

/-! ## A lost connection -/

/-- The events of a `verifyInBootloaderMode` that is answered at once. -/
def probeEvents : List Event :=
  [.proceed, .written .confirmed,
    .onResponse ⟨[0x4F, 0x4B, 4, 0, 0, 0, 0, 0], readJedecCommandPayload⟩, .tick]

/-- An undisturbed update up to the page loop. -/
def setupEvents : List Event :=
  [.proceed] ++ probeEvents ++ probeEvents ++ [.proceed, .written .confirmed, .connection true]
    ++ probeEvents ++ [.proceed, .proceed]

/-- A page frame of one packet is written. -/
def sendEvents : List Event := [.proceed, .written .confirmed, .proceed]

/-- The first page is sent, acknowledged, and followed by the next one, if there is any. -/
def ackEvents (frame : List UInt8) : List Event :=
  [.onResponse ⟨[0x4F, 0x4B], frame⟩, .tick, .proceed]

/-- The frame of the only page of an image of one byte. -/
def onePage : List UInt8 := programOnePageCommandPayload 0x2F000 [0xAA]

/-- An undisturbed update with an image of one byte. -/
theorem addresses_agree_onePage : ∃ h, run step (start [0xAA])
      (setupEvents ++ sendEvents ++ ackEvents onePage) = some h ∧ onePage ∈ h.emitted ∧
    ∀ frame ∈ h.emitted, IsWriteFrame frame → FrameOk [0xAA] frame := by
  have hsome : ((run step (start [0xAA]) (setupEvents ++ sendEvents ++ ackEvents onePage)).map
      fun h => decide (onePage ∈ h.emitted)) = some true := by decide +kernel
  obtain ⟨h, hrun, hmem⟩ := Option.map_eq_some_iff.1 hsome
  have hconn : Along step KeepsConnection (start [0xAA])
      (setupEvents ++ sendEvents ++ ackEvents onePage) := by
    refine along_of_forall fun e he s hd => ?_
    subst hd
    simp [setupEvents, sendEvents, ackEvents, probeEvents] at he
  exact ⟨h, hrun, of_decide_eq_true hmem, addresses_agree hconn hrun⟩

/-- The connection is lost while the app waits for the answer to the only page, and comes
back; the page is sent again and acknowledged. -/
def lostEvents : List Event :=
  setupEvents ++ sendEvents ++ [.onDisconnected, .isConnected false, .connection true]
    ++ sendEvents ++ ackEvents onePage ++ sendEvents

theorem programOnePageCommandPayload_inj {a a' : ℕ} {d d' : List UInt8}
    (h : programOnePageCommandPayload a d = programOnePageCommandPayload a' d') :
    a % 2 ^ 32 = a' % 2 ^ 32 ∧ d = d' := by
  have hdata : toBytes a 4 ++ d = toBytes a' 4 ++ d' := congrArg (List.drop 4) h
  obtain ⟨haddr, hd⟩ := List.append_inj hdata (by rw [length_toBytes, length_toBytes])
  refine ⟨?_, hd⟩
  have hnat := congrArg leNat haddr
  rwa [toBytes, toBytes, leNat_leBytes, leNat_leBytes] at hnat

/-- After that the app goes on with the first byte of the image at the second address. -/
theorem addresses_disagree : ∃ h, run step (start [0xAA]) lostEvents = some h ∧
    ∃ frame ∈ h.emitted, IsWriteFrame frame ∧ ¬ FrameOk [0xAA] frame := by
  have hsome : ((run step (start [0xAA]) lostEvents).map
      fun h => decide (programOnePageCommandPayload 0x2F001 [0xAA] ∈ h.emitted)) = some true := by
    decide +kernel
  obtain ⟨h, hrun, hmem⟩ := Option.map_eq_some_iff.1 hsome
  refine ⟨h, hrun, _, of_decide_eq_true hmem, by decide +kernel, ?_⟩
  rintro ⟨a, d, heq, hlo, hhi, -⟩
  obtain ⟨haddr, rfl⟩ := programOnePageCommandPayload_inj heq
  rw [List.length_singleton] at hhi
  unfold flashStartAddress at hlo hhi
  omega

end App
