import LegoTrain.Ota.Safety
import LegoTrain.Upload.BleScript

/-!
# The Bluetooth upgrade

The script and the loader over two channels that deliver in order, late or not at all.  The
frames travel in packets, and the link of the loader puts them together again.

* `BleSystem` and `bleUploadStep` : the two parties, the packets, the buffer, the responses;
* `LinkInv` : what the packets in the buffer say about the buffer;
* `LinkInv.frame` : when they are the packets of one frame, the loader gets this frame.
-/

namespace Upload

open ByteMem Flash Loader

/-- A packet, and the frame that it is a part of. -/
structure Packet where
  bytes : List UInt8
  sent : Sent
  deriving DecidableEq, Repr

structure BleSystem where
  script : Script
  /-- packets on their way to the loader, oldest first -/
  toRobot : List Packet
  link : BleLink
  /-- the packets that have gone into the buffer since it was empty -/
  inBuf : List Packet
  loader : State
  /-- responses on their way to the script, oldest first -/
  toScript : List Response

inductive UploadEvent
  /-- the script goes on -/
  | go
  /-- the script meets an exception -/
  | raise
  /-- a connection is there -/
  | connected (found : Bool)
  /-- the oldest response arrives at the script -/
  | deliver
  /-- the oldest packet arrives at the link -/
  | packet
  /-- the main task looks for a frame; `faults` befall the flash while it is processed -/
  | receive (faults : List Fault)
  /-- without a connection, the main task waits in vain -/
  | timeout
  /-- `main` calls `bflb_eflash_loader_main` again -/
  | enter
  /-- a packet or a response is lost -/
  | losePacket (i : ℕ)
  | loseResponse (i : ℕ)

/-- The frame that is being written. -/
def Script.sent (s : Script) : Sent where
  transaction := s.transaction
  frame := match s.pc with
    | .writing _ frame _ => frame
    | _ => []

/-- `bl_connected`: an empty buffer. -/
def blConnected : BleLink := ⟨fun _ => 0, 0, false⟩

namespace BleSystem

/-- The loader as it takes up a frame; `nok` is what the link has sent by itself. -/
def turn (l : State) (faults : List Fault) (nok : List (List UInt8)) : State :=
  { l with dev := { l.dev with faults := faults }, sent := nok }

/-- A packet arrives at the link. -/
def arrive (s : BleSystem) (p : Packet) : BleSystem :=
  match bleBlfRecv s.link p.bytes false with
  | (_, .invalidAttributeLen) => s
  | (link, _) =>
    { s with link := link, inBuf := if link.rxBufLen = 0 then [] else s.inBuf ++ [p] }

/-- The flash array of the robot. -/
def mem (s : BleSystem) : Mem := s.loader.dev.mem

/-- The start of the transaction loop: nothing is on the way. -/
def init (image : List UInt8) (l : State) : BleSystem where
  script := .start image
  toRobot := []
  link := blConnected
  inBuf := []
  loader := l
  toScript := []

end BleSystem

/-- The system, one event at a time. -/
def bleUploadStep (env : Env) (s : BleSystem) : UploadEvent → Option BleSystem
  | .go => s.script.go.map fun r => { s with
      script := r.1
      toRobot := s.toRobot ++ r.2.toList.map fun bytes => ⟨bytes, s.script.sent⟩ }
  | .raise => s.script.raise.map fun script => { s with script := script }
  | .connected found => (s.script.connected found).map fun script => { s with
      script := script, link := blConnected, inBuf := [] }
  | .deliver =>
    match s.toScript with
    | [] => none
    | r :: rest => some { s with script := s.script.notify r, toScript := rest }
  | .packet =>
    match s.toRobot with
    | [] => none
    | p :: rest => some (BleSystem.arrive { s with toRobot := rest } p)
  | .receive faults =>
    (Loader.step env (BleSystem.turn s.loader faults (bleRecv s.link).2.2)
      (bleRecv s.link).2.1).map fun l => { s with
        link := (bleRecv s.link).1
        inBuf := []
        loader := l
        toScript := s.toScript ++ l.sent.map fun data => ⟨data, s.inBuf.head?.map Packet.sent⟩ }
  | .timeout =>
    (Loader.step env s.loader ⟨s.link.rcvBuf, 0⟩).map fun l => { s with loader := l }
  | .enter =>
    if s.loader.ended then (Loader.enter s.loader).map fun l => { s with loader := l } else none
  | .losePacket i => some { s with toRobot := s.toRobot.eraseIdx i }
  | .loseResponse i => some { s with toScript := s.toScript.eraseIdx i }

/-! ## The buffer -/

/-- The bytes of packets. -/
def bytesOf (ps : List Packet) : List UInt8 := ps.flatMap Packet.bytes

theorem bytesOf_append (ps : List Packet) (p : Packet) :
    bytesOf (ps ++ [p]) = bytesOf ps ++ p.bytes := by
  simp [bytesOf]

/-- The frame length at the start of a byte string. -/
def lengthField (bs : List UInt8) : ℕ := leNat (bs.take 2)

theorem lengthField_append {bs cs : List UInt8} (h : 2 ≤ bs.length) :
    lengthField (bs ++ cs) = lengthField bs := by
  rw [lengthField, lengthField, List.take_append_of_le_length h]

theorem lengthField_wire {frame : List UInt8} (h : frame.length < 65536) :
    lengthField (wire frame) = frame.length := by
  rw [lengthField, wire, List.take_left' (length_leBytes 2 _)]
  exact leNat_leBytes_of_lt (w := 2) h

theorem pkgLength_of_read {m : Mem} {bs : List UInt8} (h : read m 0 bs.length = bs)
    (h2 : 2 ≤ bs.length) : pkgLength m = lengthField bs := by
  rw [pkgLength, le, ← take_read h2, h, lengthField]

/-- What the packets in the buffer, which have the bytes `bs`, say about the buffer. -/
inductive LinkInv (l : BleLink) (bs : List UInt8) : Prop
  /-- bytes are missing -/
  | waiting (hlen : l.rxBufLen = bs.length) (hbuf : read l.rcvBuf 0 bs.length = bs)
      (hmore : bs = [] ∨ 2 ≤ bs.length ∧ bs.length < lengthField bs + 2)
  /-- the frame is complete -/
  | full (hlen : l.rxBufLen + 2 = bs.length) (hbuf : read l.rcvBuf 0 bs.length = bs)
      (hfull : bs.length = lengthField bs + 2)
  /-- there are more bytes than the length field says -/
  | spoiled (h2 : 2 ≤ bs.length) (hmore : lengthField bs + 2 < bs.length)

theorem linkInv_nil {l : BleLink} (h : l.rxBufLen = 0) : LinkInv l [] :=
  .waiting h rfl (.inl rfl)

/-- **What the loader gets**: when the packets in the buffer are those of one frame, this frame. -/
theorem LinkInv.frame {l : BleLink} {frame : List UInt8} (h : LinkInv l (wire frame))
    (hlen : frame.length < 65536) :
    l.rxBufLen = frame.length ∧ read l.rcvBuf 2 frame.length = frame := by
  have hfield := lengthField_wire hlen
  have htotal := length_wire frame
  cases h with
  | waiting hl hbuf hmore =>
    rcases hmore with hnil | ⟨-, hmore⟩
    · rw [hnil] at htotal
      cases htotal
    · omega
  | full hl hbuf hfull =>
    refine ⟨by omega, ?_⟩
    have hsub := read_sub (m := l.rcvBuf) (a := 0) (n := (wire frame).length) (o := 2)
      (k := frame.length) (by omega)
    rw [hbuf, wire, List.drop_left' (length_leBytes 2 _), List.take_length, Nat.zero_add] at hsub
    exact hsub.symm
  | spoiled h2 hmore => omega

/-- A packet that is not rejected. -/
theorem linkInv_packet {l : BleLink} {bs packet : List UInt8} (h : LinkInv l bs)
    (hne : packet ≠ []) (hsize : packet.length + l.rxBufLen < bleReadbufSize)
    (hlen : (bleBlfRecv l packet false).1.rxBufLen ≠ 0) :
    LinkInv (bleBlfRecv l packet false).1 (bs ++ packet) := by
  have hpos : 0 < packet.length := List.length_pos_of_ne_nil hne
  have happ : (bs ++ packet).length = bs.length + packet.length := List.length_append
  have hkept : 2 ≤ l.rxBufLen + packet.length := by
    by_contra hshort
    rw [bleBlfRecv, if_neg (by decide), if_neg (by omega), if_pos (by omega)] at hlen
    exact hlen rfl
  rw [bleBlfRecv_kept hkept hsize] at hlen ⊢
  cases h with
  | waiting hl hbuf hmore =>
    have h2 : 2 ≤ (bs ++ packet).length := by omega
    have hread : read (write l.rcvBuf l.rxBufLen packet) 0 (bs ++ packet).length = bs ++ packet := by
      have hold : read l.rcvBuf 0 bs.length = (bs ++ packet).take bs.length := by
        rw [hbuf, List.take_left]
      have hnew : packet = ((bs ++ packet).drop bs.length).take packet.length := by
        rw [List.drop_left, List.take_length]
      have hnext := read_write_next hold hnew
      rw [← happ, List.take_length] at hnext
      rw [hl]
      exact hnext
    have hpkg := pkgLength_of_read hread h2
    rcases Nat.lt_trichotomy (l.rxBufLen + packet.length - 2) (lengthField (bs ++ packet))
      with hlt | heq | hgt
    · rw [checkComplete_lt (by rw [hpkg]; exact hlt)] at hlen ⊢
      exact .waiting (by simp only [happ, hl]) hread (.inr ⟨h2, by omega⟩)
    · rw [checkComplete_eq (by rw [hpkg]; exact heq)] at hlen ⊢
      exact .full (by simp only; omega) hread (by omega)
    · rw [checkComplete_gt (by rw [hpkg]; exact hgt)] at hlen
      exact absurd rfl hlen
  | full hl hbuf hfull =>
    have h2 : 2 ≤ bs.length := by omega
    refine .spoiled (by omega) ?_
    rw [lengthField_append h2]
    omega
  | spoiled h2 hmore =>
    refine .spoiled (by omega) ?_
    rw [lengthField_append h2]
    omega

/-- What the packets in the buffer say about it. -/
structure BufferInv (l : BleLink) (inBuf : List Packet) : Prop where
  empty : l.rxBufLen = 0 → inBuf = []
  link : LinkInv l (bytesOf inBuf)

theorem bufferInv_nil {l : BleLink} (h : l.rxBufLen = 0) : BufferInv l [] :=
  ⟨fun _ => rfl, linkInv_nil h⟩

/-- The arrival of a packet touches nothing but the link and the list of its packets, which
grows by the packet, is emptied or stays. -/
theorem arrive_spec {s : BleSystem} {p : Packet} (h : BufferInv s.link s.inBuf)
    (hne : p.bytes ≠ []) :
    ∃ link inBuf, s.arrive p = { s with link := link, inBuf := inBuf } ∧ BufferInv link inBuf ∧
      (inBuf = [] ∨ inBuf = s.inBuf ∨ inBuf = s.inBuf ++ [p]) := by
  by_cases hsize : p.bytes.length + s.link.rxBufLen < bleReadbufSize
  · have hresult : (bleBlfRecv s.link p.bytes false).2 ≠ .invalidAttributeLen := by
      rw [bleBlfRecv, if_neg (by decide), if_neg (by omega)]
      split
      · intro h
        cases h
      · intro h
        cases h
    have heq : s.arrive p = { s with
        link := (bleBlfRecv s.link p.bytes false).1
        inBuf := if (bleBlfRecv s.link p.bytes false).1.rxBufLen = 0 then []
          else s.inBuf ++ [p] } := by
      unfold BleSystem.arrive
      generalize bleBlfRecv s.link p.bytes false = r at hresult
      obtain ⟨link, result⟩ := r
      cases result with
      | taken len => rfl
      | invalidAttributeLen => exact absurd rfl hresult
      | valueNotAllowed => rfl
    refine ⟨_, _, heq, ?_, ?_⟩
    · split
      · rename_i h0
        exact bufferInv_nil h0
      · rename_i h0
        refine ⟨fun h0' => absurd h0' h0, ?_⟩
        rw [bytesOf_append]
        exact linkInv_packet h.link hne hsize h0
    · split
      · exact .inl rfl
      · exact .inr (.inr rfl)
  · refine ⟨s.link, s.inBuf, ?_, h, .inr (.inl rfl)⟩
    have hreject : bleBlfRecv s.link p.bytes false = (s.link, .invalidAttributeLen) := by
      rw [bleBlfRecv, if_neg (by decide), if_pos (by omega)]
    rw [BleSystem.arrive, hreject]

/-- Whatever it finds, `bflb_eflash_loader_ble_recv` leaves an empty buffer. -/
theorem bleRecv_empty (l : BleLink) : (bleRecv l).1.rxBufLen = 0 := by
  unfold bleRecv
  split
  · split
    · rfl
    · rename_i h0
      exact not_not.1 h0
  · rfl

/-- Without a frame, nothing is received, and at most `NOK` is sent. -/
theorem bleRecv_none {l : BleLink} (h : l.rxSem = false ∨ l.rxBufLen = 0) :
    (bleRecv l).2.1.totalLen = 0 ∧ ((bleRecv l).2.2 = [] ∨ (bleRecv l).2.2 = [nokBytes]) := by
  unfold bleRecv
  split
  · rename_i hsem
    split
    · rename_i h0
      rcases h with h | h
      · rw [hsem] at h
        cases h
      · exact absurd h h0
    · exact ⟨rfl, .inr rfl⟩
  · exact ⟨rfl, .inl rfl⟩

end Upload
