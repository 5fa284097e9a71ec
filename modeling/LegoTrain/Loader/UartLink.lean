import LegoTrain.Loader.Session

/-!
# The serial link of the loader

`bflb_eflash_loader_uart.c`: the interrupt handler appends what the UART has received to one
of two buffers, and the receive loop takes a frame out when as many bytes are there as its
length field says, and goes on with the other buffer.

* `uart0IrqCallback`, `usartIfReceive`, `uartHandshakePoll` : the three functions;
* `UartReceiving` : the current buffer holds the first `n` bytes of a frame;
* `usartIfReceive_wait`, `usartIfReceive_frame` : what a pass of the receive loop finds before
  and after the last byte.
-/

namespace Loader

open ByteMem

/-- `BFLB_EFLASH_LOADER_READBUF_SIZE`. -/
def readbufSize : ℕ := 4096 + 8

/-- `BFLB_EFLASH_LOADER_CMD_DATA_MAX_LEN`. -/
def cmdDataMaxLen : ℕ := readbufSize - 4

/-- `BFLB_EFLASH_LOADER_HAND_SHAKE_BYTE`. -/
def handShakeByte : UInt8 := 0x55

/-- `BFLB_EFLASH_LAODER_HAND_SHAKE_SUSS_COUNT`. -/
def handShakeSussCount : ℕ := 5

/-- The state of the link. -/
structure UartLink where
  /-- `g_eflash_loader_readbuf` -/
  readbuf : ℕ → Mem
  /-- `g_rx_buf_index` -/
  rxBufIndex : ℕ
  /-- `g_rx_buf_len` -/
  rxBufLen : ℕ

/-- The buffer that is being filled. -/
def UartLink.buf (l : UartLink) : Mem := l.readbuf l.rxBufIndex

/-- `uart0_irq_callback`: the FIFO threshold and the receive timeout do the same. -/
def uart0IrqCallback (l : UartLink) (args : List UInt8) : UartLink :=
  { l with
    readbuf := Function.update l.readbuf l.rxBufIndex (write l.buf l.rxBufLen args)
    rxBufLen := l.rxBufLen + args.length }

/-- One pass of the loop of `bflb_eflash_loader_usart_if_receive`: what it returns, if it
returns.  A frame that is too long is dropped, and counts as nothing received. -/
def usartIfReceive (l : UartLink) : UartLink × Option Received :=
  if 4 ≤ l.rxBufLen ∧ l.rxBufLen = cmdLen l.buf + 4 then
    ({ l with rxBufIndex := (l.rxBufIndex + 1) % 2, rxBufLen := 0 },
      some ⟨l.buf, if cmdLen l.buf ≤ cmdDataMaxLen then cmdLen l.buf + 4 else 0⟩)
  else (l, none)

/-- The count of the handshake bytes among the first sixteen, which stops when there are
enough. -/
def handshakeCount (buf : List UInt8) : ℕ :=
  if 16 ≤ buf.length then min ((buf.take 16).count handShakeByte) (handShakeSussCount + 1) else 0

/-- `bflb_eflash_loader_uart_handshake_poll` over the bytes that the UART holds, with what
comes after them thrown away: `none` when this is no handshake. -/
def uartHandshakePoll (l : UartLink) (buf : List UInt8) : Option UartLink :=
  if handShakeSussCount ≤ handshakeCount buf then some { l with rxBufIndex := 0, rxBufLen := 0 }
  else none

/-! ## Putting a frame together -/

/-- The link has the first `n` bytes of `frame`. -/
structure UartReceiving (frame : List UInt8) (n : ℕ) (l : UartLink) : Prop where
  len : l.rxBufLen = n
  buf : read l.buf 0 n = frame.take n

theorem uartReceiving_zero {l : UartLink} (frame : List UInt8) (h : l.rxBufLen = 0) :
    UartReceiving frame 0 l :=
  ⟨h, rfl⟩

theorem buf_uart0IrqCallback (l : UartLink) (args : List UInt8) :
    (uart0IrqCallback l args).buf = write l.buf l.rxBufLen args :=
  Function.update_self _ _ _

/-- The handler keeps the bytes in their order. -/
theorem uart0IrqCallback_receiving {frame args : List UInt8} {n : ℕ} {l : UartLink}
    (h : UartReceiving frame n l) (hargs : args = (frame.drop n).take args.length) :
    UartReceiving frame (n + args.length) (uart0IrqCallback l args) where
  len := by
    show l.rxBufLen + args.length = n + args.length
    rw [h.len]
  buf := by
    rw [buf_uart0IrqCallback, h.len]
    exact read_write_next h.buf hargs

section Frame

variable {frame : List UInt8} {n : ℕ} {l : UartLink} {len : ℕ}
  (hlen : (frame.drop 2).take 2 = leBytes 2 len) (htotal : frame.length = len + 4)
  (hlt : len < 65536) (h : UartReceiving frame n l)
include hlen hlt h

/-- The length field, once it is there. -/
theorem cmdLen_receiving (h4 : 4 ≤ n) : cmdLen l.buf = len := by
  have hread : read l.buf 2 2 = leBytes 2 len := by
    have hsub := read_sub (m := l.buf) (a := 0) (o := 2) (k := 2) (n := n) (by omega)
    rw [h.buf, List.drop_take, List.take_take, Nat.min_eq_left (by omega), hlen] at hsub
    exact hsub.symm
  rw [cmdLen, le, hread]
  exact leNat_leBytes_of_lt (w := 2) hlt

include htotal

/-- Before the last byte, the loop goes on waiting. -/
theorem usartIfReceive_wait (hn : n < frame.length) : usartIfReceive l = (l, none) := by
  unfold usartIfReceive
  rw [if_neg]
  rintro ⟨h4, heq⟩
  rw [h.len] at h4 heq
  rw [cmdLen_receiving hlen hlt h h4] at heq
  omega

/-- With the last byte, the loop returns the frame and leaves an empty buffer. -/
theorem usartIfReceive_frame (hn : n = frame.length) (hmax : len ≤ cmdDataMaxLen) :
    ∃ l', usartIfReceive l = (l', some ⟨l.buf, frame.length⟩) ∧ l'.rxBufLen = 0 := by
  have h4 : 4 ≤ n := by omega
  have hcmd := cmdLen_receiving hlen hlt h h4
  have hfull : 4 ≤ l.rxBufLen ∧ l.rxBufLen = cmdLen l.buf + 4 := by
    rw [h.len, hcmd]
    omega
  refine ⟨{ l with rxBufIndex := (l.rxBufIndex + 1) % 2, rxBufLen := 0 }, ?_, rfl⟩
  rw [usartIfReceive, if_pos hfull, hcmd, if_pos hmax, htotal]

end Frame

end Loader
