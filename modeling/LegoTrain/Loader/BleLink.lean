import LegoTrain.Loader.Session

/-!
# The Bluetooth link of the loader

`bflb_eflash_loader_ble.c`: `ble_blf_recv` is called for every packet the host writes and
puts the packets of a frame together; `bflb_eflash_loader_ble_recv` hands the finished
frame to the loop.

* `bleBlfRecv`, `bleRecv` : the two functions;
* `Receiving` : the buffer holds the first `n` bytes of a frame with its length in front;
* `bleBlfRecv_next`, `bleBlfRecv_last` : what a packet in the middle and the last packet do.
-/

namespace Loader

open ByteMem

/-- `BFLB_EFLASH_LOADER_BLE_READBUF_SIZE`. -/
def bleReadbufSize : ℕ := 4096 + 1024

/-- The state of the link. -/
structure BleLink where
  /-- `g_eflash_loader_readbuf[0]` -/
  rcvBuf : Mem
  /-- `g_rx_buf_len` -/
  rxBufLen : ℕ
  /-- `rx_sem`, a binary semaphore -/
  rxSem : Bool

/-- What `ble_blf_recv` returns. -/
inductive RecvResult
  | taken (len : ℕ)
  | invalidAttributeLen
  | valueNotAllowed
  deriving DecidableEq, Repr

/-- `pkg_length`. -/
def pkgLength (rcvBuf : Mem) : ℕ := le rcvBuf 0 2

/-- The end of `ble_blf_recv`: a packet that completes the frame wakes the main task up, and
so does one that overshoots it, after the buffer has been emptied. -/
def checkComplete (l : BleLink) : BleLink :=
  if l.rxBufLen - 2 = pkgLength l.rcvBuf then { l with rxBufLen := l.rxBufLen - 2, rxSem := true }
  else if l.rxBufLen - 2 > pkgLength l.rcvBuf then { l with rxBufLen := 0, rxSem := true }
  else l

/-- `ble_blf_recv`. -/
def bleBlfRecv (l : BleLink) (buf : List UInt8) (prepare : Bool) : BleLink × RecvResult :=
  if prepare then (l, .taken 0)
  else if buf.length + l.rxBufLen ≥ bleReadbufSize then (l, .invalidAttributeLen)
  else if l.rxBufLen + buf.length < 2 then
    ({ l with rcvBuf := write l.rcvBuf l.rxBufLen buf, rxBufLen := 0 }, .valueNotAllowed)
  else
    (checkComplete { l with
      rcvBuf := write l.rcvBuf l.rxBufLen buf, rxBufLen := l.rxBufLen + buf.length },
      .taken buf.length)

/-- The bytes of `"NOK"`, with its terminator. -/
def nokBytes : List UInt8 := [0x4E, 0x4F, 0x4B, 0]

/-- `bflb_eflash_loader_ble_recv` on a connected link: the frame behind its two length bytes
when the semaphore has been given, and nothing when the wait times out.  The third
component is what it sends to the host by itself. -/
def bleRecv (l : BleLink) : BleLink × Received × List (List UInt8) :=
  if l.rxSem then
    if l.rxBufLen ≠ 0 then
      ({ l with rxBufLen := 0, rxSem := false }, ⟨fun i => l.rcvBuf (i + 2), l.rxBufLen⟩, [])
    else ({ l with rxSem := false }, ⟨l.rcvBuf, 0⟩, [nokBytes])
  else ({ l with rxBufLen := 0 }, ⟨l.rcvBuf, 0⟩, [])

/-! ## Putting a frame together -/

/-- The link has the first `n` bytes of `robotData`, and waits for more. -/
structure Receiving (robotData : List UInt8) (n : ℕ) (l : BleLink) : Prop where
  len : l.rxBufLen = n
  sem : l.rxSem = false
  buf : read l.rcvBuf 0 n = robotData.take n

variable {robotData packet : List UInt8} {n : ℕ} {l : BleLink}

theorem checkComplete_lt (h : l.rxBufLen - 2 < pkgLength l.rcvBuf) : checkComplete l = l := by
  rw [checkComplete, if_neg (by omega), if_neg (by omega)]

theorem checkComplete_eq (h : l.rxBufLen - 2 = pkgLength l.rcvBuf) :
    checkComplete l = { l with rxBufLen := l.rxBufLen - 2, rxSem := true } :=
  if_pos h

theorem read_packet (h : Receiving robotData n l)
    (hp : packet = (robotData.drop n).take packet.length) :
    read (write l.rcvBuf l.rxBufLen packet) 0 (n + packet.length)
      = robotData.take (n + packet.length) := by
  rw [h.len]
  exact read_write_next h.buf hp

/-- The length field, once the first two bytes are there. -/
theorem pkgLength_eq {m : Mem} {n len : ℕ} (h : read m 0 n = robotData.take n) (hn : 2 ≤ n)
    (hlen : robotData.take 2 = leBytes 2 len) (hlt : len < 65536) : pkgLength m = len := by
  have hread : read m 0 2 = leBytes 2 len := by
    rw [← take_read hn, h, List.take_take, Nat.min_eq_left hn, hlen]
  rw [pkgLength, le, hread]
  exact leNat_leBytes_of_lt (w := 2) hlt

section Packet

variable {len : ℕ} (h : Receiving robotData n l) (hlen : robotData.take 2 = leBytes 2 len)
  (htotal : robotData.length = len + 2) (hsize : robotData.length < bleReadbufSize)
  (hp : packet = (robotData.drop n).take packet.length)
include h hlen htotal hsize hp

/-- A packet that does not complete the frame is kept. -/
theorem bleBlfRecv_next (h2 : 2 ≤ n + packet.length) (hn : n + packet.length < robotData.length) :
    Receiving robotData (n + packet.length) (bleBlfRecv l packet false).1 := by
  have hread := read_packet h hp
  have hpkg := pkgLength_eq hread h2 hlen (by unfold bleReadbufSize at hsize; omega)
  rw [h.len] at hread hpkg
  have hsmall : ¬ packet.length + l.rxBufLen ≥ bleReadbufSize := by rw [h.len]; omega
  have hbig : ¬ l.rxBufLen + packet.length < 2 := by rw [h.len]; omega
  rw [bleBlfRecv, if_neg (by decide), if_neg hsmall, if_neg hbig, h.len, checkComplete_lt]
  · exact ⟨rfl, h.sem, hread⟩
  · simp only [hpkg]
    omega

/-- The packet that completes the frame wakes the main task up. -/
theorem bleBlfRecv_last (h2 : 2 ≤ n + packet.length) (hn : n + packet.length = robotData.length) :
    (bleBlfRecv l packet false).1.rxSem = true ∧ (bleBlfRecv l packet false).1.rxBufLen = len ∧
      read (bleBlfRecv l packet false).1.rcvBuf 0 robotData.length = robotData := by
  have hread := read_packet h hp
  have hpkg := pkgLength_eq hread h2 hlen (by unfold bleReadbufSize at hsize; omega)
  rw [h.len] at hread hpkg
  have hsmall : ¬ packet.length + l.rxBufLen ≥ bleReadbufSize := by rw [h.len]; omega
  have hbig : ¬ l.rxBufLen + packet.length < 2 := by rw [h.len]; omega
  rw [bleBlfRecv, if_neg (by decide), if_neg hsmall, if_neg hbig, h.len, checkComplete_eq]
  · rw [hn, List.take_length] at hread
    exact ⟨rfl, by simp only; omega, hread⟩
  · simp only [hpkg]
    omega

end Packet

/-- A finished frame is handed to the loop without its length, and the link is empty again. -/
theorem bleRecv_frame {l : BleLink} (hsem : l.rxSem = true) (hlen : l.rxBufLen ≠ 0) :
    bleRecv l = ({ l with rxBufLen := 0, rxSem := false },
      ⟨fun i => l.rcvBuf (i + 2), l.rxBufLen⟩, []) := by
  rw [bleRecv, if_pos hsem, if_pos hlen]

end Loader
