import LegoTrain.Loader.BleLink

/-!
# Frames over Bluetooth

The callback `ble_blf_recv` and the main task share one buffer, its running length and a
binary semaphore.  The main task takes the semaphore, looks at the length, reads it, clears it,
and then works on the frame in the buffer; the callback can run between any two of these.

* `bleStep` : a packet of the host's byte stream, or a step of the main task;
* `Timely` : the packets that a host sends that waits for its answers;
* `delivered_faithful` : then every frame that is returned is one that the host sent, in
  order, and it stays in the buffer until it has been handled;
* `delivered_overwritten` : a frame that comes too early overwrites the one being handled.
-/

namespace Loader

open ByteMem Transition

/-! ## The byte stream of the host -/

/-- A frame of the host: its length in two bytes, then its payload. -/
def wire (payload : List UInt8) : List UInt8 := leBytes 2 payload.length ++ payload

/-- The bytes of all frames. -/
def stream (frames : List (List UInt8)) : List UInt8 := frames.flatMap wire

/-! ## The two tasks -/

/-- Where the main task is. -/
inductive BlePc
  /-- in the waiting loop of `bflb_eflash_loader_ble_recv` -/
  | waiting
  /-- behind the waiting loop, without time left -/
  | timedOut
  /-- behind the waiting loop, in time -/
  | taken
  /-- `g_rx_buf_len` was not 0 -/
  | tested
  /-- `*recv_len` has been set -/
  | counted (recvLen : ℕ)
  /-- the frame has been returned, and is worked on -/
  | handling (recvLen : ℕ)
  deriving DecidableEq, Repr

/-- The two tasks and the host. -/
structure Delivery where
  link : BleLink
  /-- the bytes that the host has not written yet -/
  todo : List UInt8
  pc : BlePc
  /-- the frames that `bflb_eflash_loader_ble_recv` has returned, as they were then -/
  returned : List (List UInt8)

/-- What happens next. -/
inductive BleEvent
  /-- `ble_blf_recv` is called with the next `len` bytes -/
  | packet (len : ℕ)
  /-- `ble_blf_recv` is called for a prepared write -/
  | prepare (buf : List UInt8)
  /-- `xSemaphoreTake` succeeds, with time left -/
  | take
  /-- the last `xSemaphoreTake` of the waiting loop, whatever its result -/
  | lastTry
  /-- `g_rx_buf_len = 0` after a timeout -/
  | reset
  /-- `if (g_rx_buf_len)` -/
  | test
  /-- `*recv_len = g_rx_buf_len` -/
  | count
  /-- `g_rx_buf_len = 0`, and the frame is returned -/
  | clear
  /-- the command has been processed -/
  | finish
  deriving DecidableEq, Repr

/-- One step.  A frame of length 0 counts as none in the loop of the main task. -/
def bleStep (s : Delivery) : BleEvent → Option Delivery
  | .packet len =>
    if len ≤ s.todo.length then
      some { s with link := (bleBlfRecv s.link (s.todo.take len) false).1, todo := s.todo.drop len }
    else none
  | .prepare buf => some { s with link := (bleBlfRecv s.link buf true).1 }
  | .take =>
    if s.pc = .waiting ∧ s.link.rxSem = true then
      some { s with link := { s.link with rxSem := false }, pc := .taken }
    else none
  | .lastTry =>
    if s.pc = .waiting then
      some { s with link := { s.link with rxSem := false }, pc := .timedOut }
    else none
  | .reset =>
    if s.pc = .timedOut then
      some { s with link := { s.link with rxBufLen := 0 }, pc := .waiting }
    else none
  | .test =>
    if s.pc = .taken then
      some { s with pc := if s.link.rxBufLen ≠ 0 then .tested else .waiting }
    else none
  | .count => if s.pc = .tested then some { s with pc := .counted s.link.rxBufLen } else none
  | .clear =>
    match s.pc with
    | .counted 0 => some { s with link := { s.link with rxBufLen := 0 }, pc := .waiting }
    | .counted (len + 1) =>
      some { s with
        link := { s.link with rxBufLen := 0 }
        pc := .handling (len + 1)
        returned := s.returned ++ [read s.link.rcvBuf 2 (len + 1)] }
    | _ => none
  | .finish =>
    match s.pc with
    | .handling _ => some { s with pc := .waiting }
    | _ => none

/-- A new connection: an empty buffer, and all frames still to come. -/
def Delivery.init (frames : List (List UInt8)) : Delivery where
  link := ⟨fun _ => 0, 0, false⟩
  todo := stream frames
  pc := .waiting
  returned := []

/-- Without packets in between, the steps of the main task are `bleRecv`. -/
theorem recv_steps {s : Delivery} (hpc : s.pc = .waiting) (hsem : s.link.rxSem = true)
    (hlen : s.link.rxBufLen ≠ 0) :
    run bleStep s [.take, .test, .count, .clear] = some { s with
      link := (bleRecv s.link).1
      pc := .handling s.link.rxBufLen
      returned := s.returned ++
        [read (bleRecv s.link).2.1.recvBuf 0 (bleRecv s.link).2.1.totalLen] } := by
  obtain ⟨k, hk⟩ := Nat.exists_eq_succ_of_ne_zero hlen
  have hread : read (fun i => s.link.rcvBuf (i + 2)) 0 s.link.rxBufLen =
      read s.link.rcvBuf 2 s.link.rxBufLen := by
    refine read_congr fun i _ => ?_
    rw [Nat.zero_add, Nat.add_comm]
  rw [bleRecv_frame hsem hlen]
  simp only [run, bleStep, hpc, hsem, and_self, if_true, Option.bind_some, if_pos hlen, hread]
  rw [hk]
  rfl

/-! ## Faithful delivery -/

/-- The frames that are returned are frames whose bytes have all been written, in their order
and each at most once, and the one that is worked on is still in the buffer. -/
structure Faithful (frames : List (List UInt8)) (s : Delivery) : Prop where
  inOrder : ∃ done rest, frames = done ++ rest ∧ s.todo.length ≤ (stream rest).length ∧
    s.returned.Sublist done
  handled : ∀ len, s.pc = .handling len → ∃ payload, s.returned.getLast? = some payload ∧
    payload.length = len ∧ read s.link.rcvBuf 2 len = payload

/-- The host is between two frames. -/
def Between (frames : List (List UInt8)) (todo : List UInt8) : Prop :=
  ∃ tail, tail <:+ frames ∧ todo = stream tail

/-- The length of the next frame, with its length field. -/
def nextLength (todo : List UInt8) : ℕ := leNat (todo.take 2) + 2

/-- A packet may begin a frame: while the main task waits, and while it works on a frame the
length field only.  With the semaphore given, the packet has to be the whole frame. -/
def MayStart (s : Delivery) (len : ℕ) : Prop :=
  match s.pc with
  | .waiting | .timedOut => s.link.rxSem = false ∨ len = nextLength s.todo
  | .taken | .tested => len = nextLength s.todo
  | .counted _ => False
  | .handling _ => len = 2 ∧ (s.link.rxSem = false ∨ len = nextLength s.todo)

/-- The packets that do no harm. -/
inductive TimelyPacket (frames : List (List UInt8)) (s : Delivery) (len : ℕ) : Prop
  /-- no bytes -/
  | empty (h : len = 0)
  /-- whole frames that do not fit into the buffer -/
  | rejected (h : bleReadbufSize ≤ len + s.link.rxBufLen) (hb : Between frames s.todo)
      (ha : Between frames (s.todo.drop len))
  /-- the first two bytes or more of a frame, after the last one has been cleared -/
  | starts (hlen : s.link.rxBufLen = 0) (h2 : 2 ≤ len) (hsize : len < bleReadbufSize)
      (hn : len ≤ nextLength s.todo) (hpc : MayStart s len)
  /-- more bytes of a frame -/
  | continues (hpc : s.pc = .waiting ∨ s.pc = .timedOut) (hb : ¬ Between frames s.todo)
      (hsize : len + s.link.rxBufLen < bleReadbufSize)
      (hn : s.link.rxBufLen + len ≤ pkgLength s.link.rcvBuf + 2)
  /-- whole frames that come as one, and are dropped -/
  | overshoots (hpc : s.pc = .waiting ∨ s.pc = .timedOut ∨ s.pc = .taken ∨ s.pc = .tested)
      (h2 : 2 ≤ s.link.rxBufLen + len) (hsize : len + s.link.rxBufLen < bleReadbufSize)
      (hover : pkgLength (write s.link.rcvBuf s.link.rxBufLen (s.todo.take len)) + 2 <
        s.link.rxBufLen + len)
      (ha : Between frames (s.todo.drop len))

/-- The packets are timely, and no timeout falls into a frame. -/
def Timely (frames : List (List UInt8)) (s : Delivery) : BleEvent → Prop
  | .packet len => TimelyPacket frames s len
  | .reset => Between frames s.todo
  | _ => True

/-! ## The invariant -/

/-- The frames `l` have been written, in order, and the host is between two frames. -/
def Sent (frames : List (List UInt8)) (todo : List UInt8) (l : List (List UInt8)) : Prop :=
  ∃ done rest, frames = done ++ rest ∧ todo = stream rest ∧ l.Sublist done

/-- Nothing is in the buffer. -/
structure Empty (frames : List (List UInt8)) (s : Delivery) : Prop where
  sent : Sent frames s.todo s.returned
  len : s.link.rxBufLen = 0

/-- A finished frame is in the buffer, behind those that have been returned. -/
structure Finished (frames : List (List UInt8)) (s : Delivery) (cur : List UInt8) : Prop where
  sent : Sent frames s.todo (s.returned ++ [cur])
  ne : cur ≠ []
  buf : read s.link.rcvBuf 0 (wire cur).length = wire cur

/-- A finished frame waits for the main task. -/
structure Full (frames : List (List UInt8)) (s : Delivery) (cur : List UInt8) : Prop
    extends Finished frames s cur where
  len : s.link.rxBufLen = cur.length

/-- The first `m` bytes of a frame are in the buffer. -/
structure Partial (frames : List (List UInt8)) (s : Delivery) (cur : List UInt8) (m : ℕ) :
    Prop where
  sent : ∃ done rest, frames = done ++ cur :: rest ∧
    s.todo = (wire cur).drop m ++ stream rest ∧ s.returned.Sublist done
  receiving : Receiving (wire cur) m s.link
  two_le : 2 ≤ m
  lt : m < (wire cur).length

/-- The frame that is worked on is the last one returned, and is in the buffer. -/
def Held (s : Delivery) (len : ℕ) : Prop :=
  ∃ payload, s.returned.getLast? = some payload ∧ payload.length = len ∧
    read s.link.rcvBuf 2 len = payload

/-- **The invariant**, for each place of the main task. -/
def Inv (frames : List (List UInt8)) (s : Delivery) : Prop :=
  match s.pc with
  | .waiting | .timedOut => Empty frames s ∨ (∃ cur, Full frames s cur) ∨ ∃ cur m, Partial frames s cur m
  | .taken | .tested => Empty frames s ∨ ∃ cur, Full frames s cur
  | .counted len =>
    (len = 0 ∧ Empty frames s) ∨ ∃ cur, Finished frames s cur ∧ len = cur.length
  | .handling len => Held s len ∧ (Empty frames s ∨ ∃ cur, Partial frames s cur 2)

/-! ## The byte stream -/

theorem length_wire (payload : List UInt8) : (wire payload).length = payload.length + 2 := by
  rw [wire, List.length_append, length_leBytes, Nat.add_comm]

theorem stream_cons (payload : List UInt8) (frames : List (List UInt8)) :
    stream (payload :: frames) = wire payload ++ stream frames := List.flatMap_cons

theorem stream_append (l l' : List (List UInt8)) : stream (l ++ l') = stream l ++ stream l' :=
  List.flatMap_append

theorem length_stream_le {l l' : List (List UInt8)} (h : l <:+ l') :
    (stream l).length ≤ (stream l').length := by
  obtain ⟨pre, rfl⟩ := h
  rw [stream_append, List.length_append]
  omega

/-- Of two ends of the frames, the one with fewer bytes is an end of the other. -/
theorem suffix_of_length_stream_le {frames l l' : List (List UInt8)} (h : l <:+ frames)
    (h' : l' <:+ frames) (hle : (stream l).length ≤ (stream l').length) : l <:+ l' := by
  rcases List.suffix_or_suffix_of_suffix h h' with hs | ⟨pre, rfl⟩
  · exact hs
  · cases pre with
    | nil => exact List.suffix_refl _
    | cons payload pre =>
      exfalso
      rw [List.cons_append, stream_cons, stream_append, List.length_append, List.length_append,
        length_wire] at hle
      omega

/-- Writing whole frames. -/
theorem Sent.drop {frames l : List (List UInt8)} {todo : List UInt8} (h : Sent frames todo l)
    {n : ℕ} (hb : Between frames (todo.drop n)) : Sent frames (todo.drop n) l := by
  obtain ⟨done, rest, hframes, rfl, hl⟩ := h
  obtain ⟨tail, htail, heq⟩ := hb
  have hrest : rest <:+ frames := ⟨done, hframes.symm⟩
  have hlen := congrArg List.length heq
  rw [List.length_drop] at hlen
  obtain ⟨pre, rfl⟩ := suffix_of_length_stream_le htail hrest (by omega)
  refine ⟨done ++ pre, tail, ?_, heq, hl.trans (List.sublist_append_left done pre)⟩
  rw [hframes, List.append_assoc]

theorem Sent.between {frames l : List (List UInt8)} {todo : List UInt8} (h : Sent frames todo l) :
    Between frames todo := by
  obtain ⟨done, rest, hframes, htodo, -⟩ := h
  exact ⟨rest, ⟨done, hframes.symm⟩, htodo⟩

theorem Sent.of_append {frames l l' : List (List UInt8)} {todo : List UInt8}
    (h : Sent frames todo (l ++ l')) : Sent frames todo l := by
  obtain ⟨done, rest, hframes, htodo, hl⟩ := h
  exact ⟨done, rest, hframes, htodo, (List.sublist_append_left l l').trans hl⟩

variable {frames : List (List UInt8)} {s : Delivery}

/-- In the middle of a frame the host is not between two frames. -/
theorem Partial.not_between {cur : List UInt8} {m : ℕ} (h : Partial frames s cur m) :
    ¬ Between frames s.todo := by
  rintro ⟨tail, htail, heq⟩
  obtain ⟨done, rest, hframes, htodo, -⟩ := h.sent
  have hcur : cur :: rest <:+ frames := ⟨done, hframes.symm⟩
  have hlt := h.lt
  have hm := h.two_le
  have hlen : (stream tail).length = (wire cur).length - m + (stream rest).length := by
    rw [← heq, htodo, List.length_append, List.length_drop]
  have hcons : (stream (cur :: rest)).length = (wire cur).length + (stream rest).length := by
    rw [stream_cons, List.length_append]
  have hsuffix := suffix_of_length_stream_le htail hcur (by omega)
  rcases List.suffix_cons_iff.1 hsuffix with rfl | hrest
  · omega
  · have hle := length_stream_le hrest
    omega

/-- What moves each part of the invariant moves the invariant. -/
theorem Inv.mono {s' : Delivery} (h : Inv frames s) (hpc : s'.pc = s.pc)
    (he : Empty frames s → Empty frames s')
    (hf : ∀ cur, Full frames s cur → Empty frames s' ∨ ∃ cur, Full frames s' cur)
    (hp : ∀ cur m, Partial frames s cur m → Partial frames s' cur m)
    (hc : ∀ cur, Finished frames s cur → Finished frames s' cur)
    (hh : ∀ len, Held s len → Held s' len) : Inv frames s' := by
  have hopen : (Empty frames s ∨ (∃ cur, Full frames s cur) ∨ ∃ cur m, Partial frames s cur m) →
      Empty frames s' ∨ (∃ cur, Full frames s' cur) ∨ ∃ cur m, Partial frames s' cur m := by
    rintro (h | ⟨cur, h⟩ | ⟨cur, m, h⟩)
    · exact .inl (he h)
    · exact (hf cur h).imp id .inl
    · exact .inr (.inr ⟨cur, m, hp cur m h⟩)
  have hbusy : (Empty frames s ∨ ∃ cur, Full frames s cur) →
      Empty frames s' ∨ ∃ cur, Full frames s' cur := by
    rintro (h | ⟨cur, h⟩)
    · exact .inl (he h)
    · exact hf cur h
  unfold Inv at h ⊢
  rw [hpc]
  cases hs : s.pc with
  | waiting =>
    rw [hs] at h
    exact hopen h
  | timedOut =>
    rw [hs] at h
    exact hopen h
  | taken =>
    rw [hs] at h
    exact hbusy h
  | tested =>
    rw [hs] at h
    exact hbusy h
  | counted len =>
    rw [hs] at h
    exact h.imp (fun h => ⟨h.1, he h.2⟩) fun ⟨cur, h, hlen⟩ => ⟨cur, hc cur h, hlen⟩
  | handling len =>
    rw [hs] at h
    exact ⟨hh len h.1, h.2.imp he fun ⟨cur, h⟩ => ⟨cur, hp cur 2 h⟩⟩

section Open

variable (hpc : s.pc = .waiting ∨ s.pc = .timedOut ∨ s.pc = .taken ∨ s.pc = .tested)
include hpc

/-- While the main task has not read the length, the buffer is in one of three states. -/
theorem Inv.receivable (h : Inv frames s) :
    Empty frames s ∨ (∃ cur, Full frames s cur) ∨ ∃ cur m, Partial frames s cur m := by
  unfold Inv at h
  rcases hpc with hpc | hpc | hpc | hpc
  all_goals rw [hpc] at h
  · exact h
  · exact h
  · exact h.imp id .inl
  · exact h.imp id .inl

theorem Inv.of_empty_or_full (h : Empty frames s ∨ ∃ cur, Full frames s cur) : Inv frames s := by
  unfold Inv
  rcases hpc with hpc | hpc | hpc | hpc
  all_goals rw [hpc]
  · exact h.imp id .inl
  · exact h.imp id .inl
  · exact h
  · exact h

end Open

/-- The frames that are returned have been written. -/
def InOrder (frames : List (List UInt8)) (s : Delivery) : Prop :=
  ∃ done rest, frames = done ++ rest ∧ s.todo.length ≤ (stream rest).length ∧
    s.returned.Sublist done

theorem Sent.inOrder (h : Sent frames s.todo s.returned) : InOrder frames s := by
  obtain ⟨done, rest, hframes, htodo, hret⟩ := h
  exact ⟨done, rest, hframes, Nat.le_of_eq (congrArg List.length htodo), hret⟩

theorem Partial.inOrder {cur : List UInt8} {m : ℕ} (h : Partial frames s cur m) :
    InOrder frames s := by
  obtain ⟨done, rest, hframes, htodo, hret⟩ := h.sent
  refine ⟨done, cur :: rest, hframes, ?_, hret⟩
  rw [htodo, stream_cons, List.length_append, List.length_append, List.length_drop]
  omega

/-- **What the invariant says about delivery.** -/
theorem Inv.faithful (h : Inv frames s) : Faithful frames s := by
  unfold Inv at h
  constructor
  · show InOrder frames s
    split at h
    · rcases h with he | ⟨cur, hf⟩ | ⟨cur, m, hp⟩
      · exact he.sent.inOrder
      · exact hf.sent.of_append.inOrder
      · exact hp.inOrder
    · rcases h with he | ⟨cur, hf⟩ | ⟨cur, m, hp⟩
      · exact he.sent.inOrder
      · exact hf.sent.of_append.inOrder
      · exact hp.inOrder
    · rcases h with he | ⟨cur, hf⟩
      · exact he.sent.inOrder
      · exact hf.sent.of_append.inOrder
    · rcases h with he | ⟨cur, hf⟩
      · exact he.sent.inOrder
      · exact hf.sent.of_append.inOrder
    · rcases h with ⟨-, he⟩ | ⟨cur, hf, -⟩
      · exact he.sent.inOrder
      · exact hf.sent.of_append.inOrder
    · rcases h with ⟨-, he | ⟨cur, hp⟩⟩
      · exact he.sent.inOrder
      · exact hp.inOrder
  · intro len hpc
    rw [hpc] at h
    exact h.1

/-! ## The packets -/

/-- The state after a packet. -/
def afterPacket (s : Delivery) (len : ℕ) : Delivery :=
  { s with link := (bleBlfRecv s.link (s.todo.take len) false).1, todo := s.todo.drop len }

section Callback

variable {l : BleLink} {packet : List UInt8}

theorem bleBlfRecv_rejected (h : bleReadbufSize ≤ packet.length + l.rxBufLen) :
    (bleBlfRecv l packet false).1 = l := by
  rw [bleBlfRecv, if_neg (by decide), if_pos h]

/-- A packet that is kept. -/
theorem bleBlfRecv_kept (h2 : 2 ≤ l.rxBufLen + packet.length)
    (hsize : packet.length + l.rxBufLen < bleReadbufSize) :
    (bleBlfRecv l packet false).1 = checkComplete { l with
      rcvBuf := write l.rcvBuf l.rxBufLen packet, rxBufLen := l.rxBufLen + packet.length } := by
  rw [bleBlfRecv, if_neg (by decide), if_neg (by omega), if_neg (by omega)]

theorem checkComplete_rcvBuf (l : BleLink) : (checkComplete l).rcvBuf = l.rcvBuf := by
  unfold checkComplete
  split
  · rfl
  · split <;> rfl

theorem checkComplete_gt (h : pkgLength l.rcvBuf < l.rxBufLen - 2) :
    checkComplete l = { l with rxBufLen := 0, rxSem := true } := by
  rw [checkComplete, if_neg (by omega), if_pos h]

/-- A packet without bytes changes nothing but the length. -/
theorem bleBlfRecv_nil : (bleBlfRecv l [] false).1.rcvBuf = l.rcvBuf := by
  unfold bleBlfRecv
  rw [if_neg (by decide), write_nil]
  split
  · rfl
  split
  · rfl
  · exact checkComplete_rcvBuf _

theorem bleBlfRecv_nil_lt (h : l.rxBufLen < 2) :
    (bleBlfRecv l [] false).1 = { l with rxBufLen := 0 } := by
  have hsize : ¬ ([] : List UInt8).length + l.rxBufLen ≥ bleReadbufSize := by
    rw [List.length_nil, bleReadbufSize]
    omega
  rw [bleBlfRecv, if_neg (by decide), if_neg hsize, if_pos (by simpa using h), write_nil]

theorem bleBlfRecv_nil_ge (h : 2 ≤ l.rxBufLen) (hlt : l.rxBufLen - 2 < pkgLength l.rcvBuf) :
    (bleBlfRecv l [] false).1 = l := by
  by_cases hsize : bleReadbufSize ≤ l.rxBufLen
  · exact bleBlfRecv_rejected (by simpa using hsize)
  · rw [bleBlfRecv_kept (by simpa using h) (by simpa using hsize), write_nil]
    exact checkComplete_lt hlt

end Callback

/-- The length field of the frame in the buffer. -/
theorem pkgLength_wire {m : Mem} {cur : List UInt8} {n : ℕ} (h : read m 0 n = (wire cur).take n)
    (hn : 2 ≤ n) (hlt : cur.length < 65536) : pkgLength m = cur.length := by
  refine pkgLength_eq h hn ?_ hlt
  rw [wire, List.take_left' (length_leBytes 2 _)]

/-- The frame behind its length field. -/
theorem Finished.payload {cur : List UInt8} (h : Finished frames s cur) :
    read s.link.rcvBuf 2 cur.length = cur := by
  have hsub := read_sub (m := s.link.rcvBuf) (a := 0) (n := (wire cur).length) (o := 2)
    (k := cur.length) (by rw [length_wire]; omega)
  rw [Nat.zero_add] at hsub
  rw [← hsub, h.buf, wire, List.drop_left' (length_leBytes 2 _), List.take_length]

section Short

variable (hshort : ∀ f ∈ frames, f.length < 65536)
include hshort

theorem Finished.pkgLength {cur : List UInt8} (h : Finished frames s cur) :
    pkgLength s.link.rcvBuf = cur.length := by
  have hread : read s.link.rcvBuf 0 (wire cur).length = (wire cur).take (wire cur).length := by
    rw [List.take_length, h.buf]
  refine pkgLength_wire hread (by rw [length_wire]; omega) (hshort cur ?_)
  obtain ⟨done, rest, hframes, -, hret⟩ := h.sent
  rw [hframes]
  exact List.mem_append_left _ (hret.subset (List.mem_append_right _ List.mem_cons_self))

theorem Partial.pkgLength {cur : List UInt8} {m : ℕ} (h : Partial frames s cur m) :
    pkgLength s.link.rcvBuf = cur.length := by
  refine pkgLength_wire h.receiving.buf h.two_le (hshort cur ?_)
  obtain ⟨done, rest, hframes, -⟩ := h.sent
  rw [hframes]
  exact List.mem_append_right _ List.mem_cons_self

/-! ### A packet without bytes -/

omit hshort in
theorem afterPacket_zero (s : Delivery) :
    afterPacket s 0 = { s with link := (bleBlfRecv s.link [] false).1 } := rfl

omit hshort in
theorem Empty.packet_zero (h : Empty frames s) : Empty frames (afterPacket s 0) where
  sent := h.sent
  len := by
    have hlt : s.link.rxBufLen < 2 := by rw [h.len]; decide
    rw [afterPacket_zero, bleBlfRecv_nil_lt hlt]

omit hshort in
theorem Finished.packet_zero {cur : List UInt8} (h : Finished frames s cur) :
    Finished frames (afterPacket s 0) cur where
  sent := h.sent
  ne := h.ne
  buf := by
    rw [afterPacket_zero, bleBlfRecv_nil]
    exact h.buf

theorem Full.packet_zero {cur : List UInt8} (h : Full frames s cur) :
    Empty frames (afterPacket s 0) ∨ Full frames (afterPacket s 0) cur := by
  have hlen := h.len
  by_cases hlt : s.link.rxBufLen < 2
  · refine .inl ⟨h.sent.of_append, ?_⟩
    rw [afterPacket_zero, bleBlfRecv_nil_lt hlt]
  · refine .inr ⟨h.toFinished.packet_zero, ?_⟩
    have hpkg := h.toFinished.pkgLength hshort
    rw [afterPacket_zero, bleBlfRecv_nil_ge (by omega) (by omega)]
    exact hlen

theorem Partial.packet_zero {cur : List UInt8} {m : ℕ} (h : Partial frames s cur m) :
    Partial frames (afterPacket s 0) cur m := by
  have hlt := h.lt
  have hpkg := h.pkgLength hshort
  have hlen := h.receiving.len
  have h2 := h.two_le
  rw [length_wire] at hlt
  rw [afterPacket_zero, bleBlfRecv_nil_ge (by omega) (by omega)]
  exact h

omit hshort in
theorem Held.packet_zero {len : ℕ} (h : Held s len) : Held (afterPacket s 0) len := by
  obtain ⟨payload, hlast, hlen, hread⟩ := h
  refine ⟨payload, hlast, hlen, ?_⟩
  rw [afterPacket_zero, bleBlfRecv_nil]
  exact hread

/-- A packet without bytes keeps the invariant. -/
theorem Inv.packet_zero (h : Inv frames s) : Inv frames (afterPacket s 0) :=
  h.mono rfl Empty.packet_zero (fun cur hf => (hf.packet_zero hshort).imp id fun hf => ⟨cur, hf⟩)
    (fun _ _ hp => hp.packet_zero hshort) (fun _ hc => hc.packet_zero) fun _ hh => hh.packet_zero

/-! ### Packets of whole frames that are dropped -/

omit hshort in
/-- A packet that does not fit into the buffer keeps the invariant. -/
theorem Inv.packet_rejected (h : Inv frames s) {len : ℕ} (hlen : len ≤ s.todo.length)
    (hr : bleReadbufSize ≤ len + s.link.rxBufLen) (hb : Between frames s.todo)
    (ha : Between frames (s.todo.drop len)) : Inv frames (afterPacket s len) := by
  have hlink : (afterPacket s len).link = s.link := by
    refine bleBlfRecv_rejected ?_
    rwa [List.length_take, Nat.min_eq_left hlen]
  have hfin : ∀ cur, Finished frames s cur → Finished frames (afterPacket s len) cur :=
    fun cur hc => ⟨hc.sent.drop ha, hc.ne, by rw [hlink]; exact hc.buf⟩
  refine h.mono rfl (fun he => ⟨he.sent.drop ha, by rw [hlink]; exact he.len⟩) (fun cur hf => ?_)
    (fun cur m hp => absurd hb hp.not_between) hfin fun len ⟨payload, hlast, hlen, hread⟩ => ?_
  · exact .inr ⟨cur, hfin cur hf.toFinished, by rw [hlink]; exact hf.len⟩
  · exact ⟨payload, hlast, hlen, by rw [hlink]; exact hread⟩

omit hshort in
/-- Writing the rest of a frame and whole frames after it. -/
theorem Partial.sent_drop {cur : List UInt8} {m n : ℕ} (h : Partial frames s cur m)
    (hb : Between frames (s.todo.drop n)) : Sent frames (s.todo.drop n) s.returned := by
  obtain ⟨done, rest, hframes, htodo, hret⟩ := h.sent
  obtain ⟨tail, htail, heq⟩ := hb
  have hcur : cur :: rest <:+ frames := ⟨done, hframes.symm⟩
  have hlen : (stream tail).length ≤ (stream (cur :: rest)).length := by
    rw [← heq, htodo, stream_cons, List.length_drop, List.length_append, List.length_append,
      List.length_drop]
    omega
  obtain ⟨pre, hpre⟩ := suffix_of_length_stream_le htail hcur hlen
  refine ⟨done ++ pre, tail, ?_, heq, hret.trans (List.sublist_append_left done pre)⟩
  rw [hframes, ← hpre, List.append_assoc]

omit hshort in
/-- A packet that goes past the end of a frame empties the buffer. -/
theorem Inv.packet_overshoots (h : Inv frames s) {len : ℕ} (hlen : len ≤ s.todo.length)
    (hpc : s.pc = .waiting ∨ s.pc = .timedOut ∨ s.pc = .taken ∨ s.pc = .tested)
    (h2 : 2 ≤ s.link.rxBufLen + len) (hsize : len + s.link.rxBufLen < bleReadbufSize)
    (hover : pkgLength (write s.link.rcvBuf s.link.rxBufLen (s.todo.take len)) + 2 <
      s.link.rxBufLen + len)
    (ha : Between frames (s.todo.drop len)) : Inv frames (afterPacket s len) := by
  have htake : (s.todo.take len).length = len := by rw [List.length_take, Nat.min_eq_left hlen]
  have hzero : (afterPacket s len).link.rxBufLen = 0 := by
    show (bleBlfRecv s.link (s.todo.take len) false).1.rxBufLen = 0
    rw [bleBlfRecv_kept (by rwa [htake]) (by rwa [htake]), checkComplete_gt]
    simp only [htake]
    omega
  refine Inv.of_empty_or_full hpc (.inl ⟨?_, hzero⟩)
  rcases h.receivable hpc with he | ⟨cur, hf⟩ | ⟨cur, m, hp⟩
  · exact he.sent.drop ha
  · exact hf.sent.of_append.drop ha
  · exact hp.sent_drop ha

/-! ### Packets of one frame -/

/-- The next bytes are those of a frame of which the first `m` bytes are in the buffer. -/
structure Feeding (frames : List (List UInt8)) (s : Delivery) (cur : List UInt8) (m : ℕ) :
    Prop where
  sent : ∃ done rest, frames = done ++ cur :: rest ∧
    s.todo = (wire cur).drop m ++ stream rest ∧ s.returned.Sublist done
  len : s.link.rxBufLen = m
  buf : read s.link.rcvBuf 0 m = (wire cur).take m

omit hshort in
theorem Partial.feeding {cur : List UInt8} {m : ℕ} (h : Partial frames s cur m) :
    Feeding frames s cur m := ⟨h.sent, h.receiving.len, h.receiving.buf⟩

omit hshort in
/-- Between two frames the next byte is the first of a frame. -/
theorem Empty.feeding (h : Empty frames s) (hne : s.todo ≠ []) :
    ∃ cur, Feeding frames s cur 0 := by
  obtain ⟨done, rest, hframes, htodo, hret⟩ := h.sent
  cases rest with
  | nil => exact absurd htodo hne
  | cons cur rest =>
    refine ⟨cur, ⟨done, rest, hframes, ?_, hret⟩, h.len, rfl⟩
    rw [htodo, stream_cons, List.drop_zero]

theorem Feeding.nextLength {cur : List UInt8} (h : Feeding frames s cur 0) :
    nextLength s.todo = (wire cur).length := by
  obtain ⟨done, rest, hframes, htodo, -⟩ := h.sent
  have hcur : cur.length < 65536 := hshort cur (by simp [hframes])
  have htake : s.todo.take 2 = leBytes 2 cur.length := by
    rw [htodo, List.drop_zero, wire, List.append_assoc, List.take_left' (length_leBytes 2 _)]
  rw [Loader.nextLength, htake, leNat_leBytes_of_lt hcur, length_wire]

section Feed

variable {cur : List UInt8} {m len : ℕ} (h : Feeding frames s cur m) (h2 : 2 ≤ m + len)
  (hsize : len + m < bleReadbufSize) (hn : m + len ≤ (wire cur).length)
include h h2 hsize hn

/-- What the callback does with a part of a frame. -/
theorem Feeding.link : ∃ rcvBuf, (afterPacket s len).link =
      checkComplete ⟨rcvBuf, m + len, s.link.rxSem⟩ ∧
    rcvBuf = write s.link.rcvBuf m (s.todo.take len) ∧
    read rcvBuf 0 (m + len) = (wire cur).take (m + len) ∧ pkgLength rcvBuf = cur.length := by
  obtain ⟨done, rest, hframes, htodo, -⟩ := h.sent
  have hcur : cur.length < 65536 := hshort cur (by simp [hframes])
  have htake : s.todo.take len = ((wire cur).drop m).take len := by
    rw [htodo, List.take_append_of_le_length (by rw [List.length_drop]; omega)]
  have hlen : (s.todo.take len).length = len := by
    rw [htake, List.length_take, List.length_drop]
    omega
  have hpart : s.todo.take len = ((wire cur).drop m).take (s.todo.take len).length := by
    rw [hlen]
    exact htake
  have hread := read_packet (l := { s.link with rxSem := false }) ⟨h.len, rfl, h.buf⟩ hpart
  simp only [hlen, h.len] at hread
  refine ⟨_, ?_, rfl, hread, pkgLength_wire hread h2 hcur⟩
  show (bleBlfRecv s.link (s.todo.take len) false).1 = _
  rw [bleBlfRecv_kept (by rwa [hlen, h.len]) (by rwa [hlen, h.len]), hlen, h.len]

/-- A part that does not complete the frame. -/
theorem Feeding.unfinished (hsem : s.link.rxSem = false) (hlt : m + len < (wire cur).length) :
    Partial frames (afterPacket s len) cur (m + len) := by
  obtain ⟨rcvBuf, hlink, -, hread, hpkg⟩ := h.link hshort h2 hsize hn
  rw [length_wire] at hlt
  rw [checkComplete_lt (by simp only [hpkg]; omega)] at hlink
  obtain ⟨done, rest, hframes, htodo, hret⟩ := h.sent
  refine ⟨⟨done, rest, hframes, ?_, hret⟩, ?_, h2, by rw [length_wire]; exact hlt⟩
  · show s.todo.drop len = _
    rw [htodo, List.drop_append_of_le_length (by rw [List.length_drop, length_wire]; omega),
      List.drop_drop]
  · rw [hlink]
    exact ⟨rfl, hsem, hread⟩

/-- The part that completes the frame. -/
theorem Feeding.finished (heq : m + len = (wire cur).length) :
    Empty frames (afterPacket s len) ∨ Full frames (afterPacket s len) cur := by
  obtain ⟨rcvBuf, hlink, -, hread, hpkg⟩ := h.link hshort h2 hsize hn
  have hcount : m + len - 2 = cur.length := by
    rw [heq, length_wire, Nat.add_sub_cancel]
  rw [checkComplete_eq (by simp only [hpkg]; exact hcount)] at hlink
  simp only [hcount] at hlink
  obtain ⟨done, rest, hframes, htodo, hret⟩ := h.sent
  have hsent : Sent frames (s.todo.drop len) (s.returned ++ [cur]) := by
    refine ⟨done ++ [cur], rest, ?_, ?_, hret.append (List.Sublist.refl _)⟩
    · rw [hframes, List.append_assoc, List.singleton_append]
    · rw [htodo, List.drop_left' (by rw [List.length_drop]; omega)]
  by_cases hnil : cur = []
  · refine .inl ⟨hsent.of_append, ?_⟩
    rw [hlink, hnil]
    rfl
  · refine .inr ⟨⟨hsent, hnil, ?_⟩, ?_⟩
    · rw [heq, List.take_length] at hread
      rw [hlink]
      exact hread
    · rw [hlink]

end Feed

omit hshort in
theorem Inv.of_unfinished (hpc : s.pc = .waiting ∨ s.pc = .timedOut) {cur : List UInt8} {m : ℕ}
    (h : Partial frames s cur m) : Inv frames s := by
  unfold Inv
  rcases hpc with hpc | hpc
  all_goals
    rw [hpc]
    exact .inr (.inr ⟨cur, m, h⟩)

/-- The next bytes of a frame keep the invariant, while the main task waits. -/
theorem Feeding.inv {cur : List UInt8} {m len : ℕ} (h : Feeding frames s cur m)
    (hpc : s.pc = .waiting ∨ s.pc = .timedOut) (h2 : 2 ≤ m + len)
    (hsize : len + m < bleReadbufSize) (hn : m + len ≤ (wire cur).length)
    (hsem : s.link.rxSem = false ∨ m + len = (wire cur).length) : Inv frames (afterPacket s len) := by
  by_cases heq : m + len = (wire cur).length
  · exact Inv.of_empty_or_full (hpc.imp id .inl)
      ((h.finished hshort h2 hsize hn heq).imp id fun hf => ⟨cur, hf⟩)
  · exact Inv.of_unfinished hpc
      (h.unfinished hshort h2 hsize hn (hsem.resolve_right heq) (by omega))

/-- More bytes of a frame keep the invariant. -/
theorem Inv.packet_continues (h : Inv frames s) {len : ℕ}
    (hpc : s.pc = .waiting ∨ s.pc = .timedOut) (hb : ¬ Between frames s.todo)
    (hsize : len + s.link.rxBufLen < bleReadbufSize)
    (hn : s.link.rxBufLen + len ≤ pkgLength s.link.rcvBuf + 2) : Inv frames (afterPacket s len) := by
  rcases h.receivable (hpc.imp id .inl) with he | ⟨cur, hf⟩ | ⟨cur, m, hp⟩
  · exact absurd he.sent.between hb
  · exact absurd hf.sent.between hb
  · have h2 := hp.two_le
    rw [hp.pkgLength hshort, hp.receiving.len, ← length_wire] at hn
    rw [hp.receiving.len] at hsize
    exact hp.feeding.inv hshort hpc (by omega) hsize hn (.inl hp.receiving.sem)

/-- The rest of a frame keeps the invariant, when the main task has taken the semaphore. -/
theorem Feeding.inv_taken {cur : List UInt8} {m len : ℕ} (h : Feeding frames s cur m)
    (hpc : s.pc = .taken ∨ s.pc = .tested) (h2 : 2 ≤ m + len) (hsize : len + m < bleReadbufSize)
    (heq : m + len = (wire cur).length) : Inv frames (afterPacket s len) := by
  have hfinished := h.finished hshort h2 hsize (Nat.le_of_eq heq) heq
  exact Inv.of_empty_or_full (.inr (.inr hpc)) (hfinished.imp id fun hf => ⟨cur, hf⟩)

/-- The length field of the next frame keeps it, while a frame is worked on. -/
theorem Feeding.inv_handling {cur : List UInt8} (h : Feeding frames s cur 0) {recvLen : ℕ}
    (hpc : s.pc = .handling recvLen) (hheld : Held s recvLen) (hn : 2 ≤ (wire cur).length)
    (hsem : s.link.rxSem = false ∨ 2 = (wire cur).length) : Inv frames (afterPacket s 2) := by
  have h2 : 2 ≤ 0 + 2 := by omega
  have hsize : 2 + 0 < bleReadbufSize := by decide
  obtain ⟨payload, hlast, hpay, hread⟩ := hheld
  obtain ⟨rcvBuf, hlink, hbuf, -⟩ := h.link hshort h2 hsize (by omega)
  have hpc' : (afterPacket s 2).pc = .handling recvLen := hpc
  unfold Inv
  rw [hpc']
  refine ⟨⟨payload, hlast, hpay, ?_⟩, ?_⟩
  · -- the length field stands before the frame that is worked on
    rw [hlink, checkComplete_rcvBuf, hbuf, read_write_disjoint, hread]
    right
    rw [List.length_take]
    omega
  · by_cases heq : 2 = (wire cur).length
    · rcases h.finished hshort h2 hsize (by omega) (by omega) with he | hf
      · exact .inl he
      · rw [length_wire] at heq
        exact absurd (List.eq_nil_of_length_eq_zero (by omega)) hf.ne
    · exact .inr ⟨cur, h.unfinished hshort h2 hsize (by omega) (hsem.resolve_right heq) (by omega)⟩

/-- The start of a frame keeps the invariant. -/
theorem Inv.packet_starts (h : Inv frames s) {len : ℕ} (hlen : len ≤ s.todo.length)
    (hz : s.link.rxBufLen = 0) (h2 : 2 ≤ len) (hsize : len < bleReadbufSize)
    (hn : len ≤ nextLength s.todo) (hstart : MayStart s len) : Inv frames (afterPacket s len) := by
  have hne : s.todo ≠ [] := by
    intro hnil
    rw [hnil, List.length_nil] at hlen
    omega
  -- an empty buffer and a frame to come
  have hfeed : (Empty frames s ∨ (∃ cur, Full frames s cur) ∨ ∃ cur m, Partial frames s cur m) →
      ∃ cur, Feeding frames s cur 0 := by
    rintro (he | ⟨cur, hf⟩ | ⟨cur, m, hp⟩)
    · exact he.feeding hne
    · exact absurd (List.eq_nil_of_length_eq_zero (hf.len.symm.trans hz)) hf.ne
    · have hm := hp.receiving.len.symm.trans hz
      have h2 := hp.two_le
      omega
  have h2' : 2 ≤ 0 + len := by omega
  unfold MayStart at hstart
  split at hstart
  · rename_i hpc
    obtain ⟨cur, hcur⟩ := hfeed (h.receivable (.inl hpc))
    rw [hcur.nextLength hshort] at hn hstart
    exact hcur.inv hshort (.inl hpc) h2' hsize (by omega) (hstart.imp id (by omega))
  · rename_i hpc
    obtain ⟨cur, hcur⟩ := hfeed (h.receivable (.inr (.inl hpc)))
    rw [hcur.nextLength hshort] at hn hstart
    exact hcur.inv hshort (.inr hpc) h2' hsize (by omega) (hstart.imp id (by omega))
  · rename_i hpc
    obtain ⟨cur, hcur⟩ := hfeed (h.receivable (.inr (.inr (.inl hpc))))
    rw [hcur.nextLength hshort] at hstart
    exact hcur.inv_taken hshort (.inl hpc) h2' hsize (by omega)
  · rename_i hpc
    obtain ⟨cur, hcur⟩ := hfeed (h.receivable (.inr (.inr (.inr hpc))))
    rw [hcur.nextLength hshort] at hstart
    exact hcur.inv_taken hshort (.inr hpc) h2' hsize (by omega)
  · exact hstart.elim
  · rename_i recvLen hpc
    obtain ⟨rfl, hsem⟩ := hstart
    unfold Inv at h
    rw [hpc] at h
    obtain ⟨hheld, hrest⟩ := h
    obtain ⟨cur, hcur⟩ := hfeed (hrest.imp id fun ⟨cur, hp⟩ => .inr ⟨cur, 2, hp⟩)
    rw [hcur.nextLength hshort] at hn hsem
    exact hcur.inv_handling hshort hpc hheld hn hsem

/-- **A timely packet keeps the invariant.** -/
theorem Inv.packet (h : Inv frames s) {len : ℕ} (hlen : len ≤ s.todo.length)
    (ht : TimelyPacket frames s len) : Inv frames (afterPacket s len) := by
  cases ht with
  | empty hzero =>
    subst hzero
    exact h.packet_zero hshort
  | rejected hr hb ha => exact h.packet_rejected hlen hr hb ha
  | starts hz h2 hsize hn hpc => exact h.packet_starts hshort hlen hz h2 hsize hn hpc
  | continues hpc hb hsize hn => exact h.packet_continues hshort hpc hb hsize hn
  | overshoots hpc h2 hsize hover ha => exact h.packet_overshoots hlen hpc h2 hsize hover ha

end Short

/-! ## The main task -/

theorem inv_take {s' : Delivery} (h : Inv frames s) (hs : bleStep s .take = some s') :
    Inv frames s' := by
  rw [bleStep] at hs
  split at hs
  · rename_i hc
    cases hs
    rcases h.receivable (.inl hc.1) with he | ⟨cur, hf⟩ | ⟨cur, m, hp⟩
    · exact .inl ⟨he.sent, he.len⟩
    · exact .inr ⟨cur, ⟨hf.sent, hf.ne, hf.buf⟩, hf.len⟩
    · have hsem := hp.receiving.sem
      rw [hc.2] at hsem
      cases hsem
  · cases hs

theorem inv_lastTry {s' : Delivery} (h : Inv frames s) (hs : bleStep s .lastTry = some s') :
    Inv frames s' := by
  rw [bleStep] at hs
  split at hs
  · rename_i hc
    cases hs
    rcases h.receivable (.inl hc) with he | ⟨cur, hf⟩ | ⟨cur, m, hp⟩
    · exact .inl ⟨he.sent, he.len⟩
    · exact .inr (.inl ⟨cur, ⟨hf.sent, hf.ne, hf.buf⟩, hf.len⟩)
    · exact .inr (.inr ⟨cur, m, hp.sent, ⟨hp.receiving.len, rfl, hp.receiving.buf⟩, hp.two_le, hp.lt⟩)
  · cases hs

theorem inv_reset {s' : Delivery} (h : Inv frames s) (hb : Between frames s.todo)
    (hs : bleStep s .reset = some s') : Inv frames s' := by
  rw [bleStep] at hs
  split at hs
  · rename_i hc
    cases hs
    rcases h.receivable (.inr (.inl hc)) with he | ⟨cur, hf⟩ | ⟨cur, m, hp⟩
    · exact .inl ⟨he.sent, rfl⟩
    · exact .inl ⟨hf.sent.of_append, rfl⟩
    · exact absurd hb hp.not_between
  · cases hs

theorem inv_test {s' : Delivery} (h : Inv frames s) (hs : bleStep s .test = some s') :
    Inv frames s' := by
  rw [bleStep] at hs
  split at hs
  · rename_i hc
    cases hs
    unfold Inv at h
    rw [hc] at h
    refine Inv.of_empty_or_full ?_ (h.imp (fun he => ⟨he.sent, he.len⟩)
      fun ⟨cur, hf⟩ => ⟨cur, ⟨hf.sent, hf.ne, hf.buf⟩, hf.len⟩)
    by_cases hz : s.link.rxBufLen ≠ 0
    · exact .inr (.inr (.inr (if_pos hz)))
    · exact .inl (if_neg hz)
  · cases hs

theorem inv_count {s' : Delivery} (h : Inv frames s) (hs : bleStep s .count = some s') :
    Inv frames s' := by
  rw [bleStep] at hs
  split at hs
  · rename_i hc
    cases hs
    unfold Inv at h
    rw [hc] at h
    rcases h with he | ⟨cur, hf⟩
    · exact .inl ⟨he.len, he.sent, he.len⟩
    · exact .inr ⟨cur, ⟨hf.sent, hf.ne, hf.buf⟩, hf.len⟩
  · cases hs

theorem inv_clear {s' : Delivery} (h : Inv frames s) (hs : bleStep s .clear = some s') :
    Inv frames s' := by
  unfold Inv at h
  rw [bleStep] at hs
  split at hs
  · -- a frame of length 0 is none
    rename_i hc
    cases hs
    rw [hc] at h
    rcases h with ⟨-, he⟩ | ⟨cur, hf, hlen⟩
    · exact .inl ⟨he.sent, rfl⟩
    · exact absurd (List.eq_nil_of_length_eq_zero hlen.symm) hf.ne
  · rename_i len hc
    cases hs
    rw [hc] at h
    rcases h with ⟨hlen, -⟩ | ⟨cur, hf, hlen⟩
    · cases hlen
    · have hcur : read s.link.rcvBuf 2 (len + 1) = cur := by
        have hpay := hf.payload
        rwa [← hlen] at hpay
      refine ⟨⟨cur, ?_, hlen.symm, hcur⟩, .inl ⟨?_, rfl⟩⟩
      · show (s.returned ++ [read s.link.rcvBuf 2 (len + 1)]).getLast? = some cur
        rw [hcur, List.getLast?_concat]
      · show Sent frames s.todo (s.returned ++ [read s.link.rcvBuf 2 (len + 1)])
        rw [hcur]
        exact hf.sent
  · cases hs

theorem inv_finish {s' : Delivery} (h : Inv frames s) (hs : bleStep s .finish = some s') :
    Inv frames s' := by
  unfold Inv at h
  rw [bleStep] at hs
  split at hs
  · rename_i len hc
    cases hs
    rw [hc] at h
    rcases h.2 with he | ⟨cur, hp⟩
    · exact .inl ⟨he.sent, he.len⟩
    · exact .inr (.inr ⟨cur, 2, hp.sent, hp.receiving, hp.two_le, hp.lt⟩)
  · cases hs

/-- **Every timely step keeps the invariant.** -/
theorem inv_step (hshort : ∀ f ∈ frames, f.length < 65536) {e : BleEvent} {s' : Delivery}
    (h : Inv frames s) (ht : Timely frames s e) (hs : bleStep s e = some s') : Inv frames s' := by
  cases e with
  | packet len =>
    rw [bleStep] at hs
    split at hs
    · rename_i hlen
      cases hs
      exact h.packet hshort hlen ht
    · cases hs
  | prepare buf =>
    cases hs
    exact h
  | take => exact inv_take h hs
  | lastTry => exact inv_lastTry h hs
  | reset => exact inv_reset h ht hs
  | test => exact inv_test h hs
  | count => exact inv_count h hs
  | clear => exact inv_clear h hs
  | finish => exact inv_finish h hs

theorem inv_init (frames : List (List UInt8)) : Inv frames (Delivery.init frames) :=
  .inl ⟨⟨[], frames, rfl, rfl, List.Sublist.refl _⟩, rfl⟩

/-- **Delivery over Bluetooth.**  When every packet is timely and no timeout falls into a frame,
the frames that are returned are frames of the host in their order, none of them twice, and
the one that is worked on stays in the buffer. -/
theorem delivered_faithful {frames : List (List UInt8)}
    (hshort : ∀ f ∈ frames, f.length < 65536) {es : List BleEvent} {s : Delivery}
    (ht : Along bleStep (Timely frames) (Delivery.init frames) es)
    (hrun : run bleStep (Delivery.init frames) es = some s) : Faithful frames s :=
  (run_inv (fun _ _ _ h ht hs => inv_step hshort h ht hs) (inv_init frames) ht hrun).faithful

/-- One frame in one packet is returned. -/
theorem delivered_faithful_one : ∃ s, run bleStep (Delivery.init [[0x50, 0, 0, 0]])
      [.packet 6, .take, .test, .count, .clear] = some s ∧ Faithful [[0x50, 0, 0, 0]] s := by
  have hsome : (run bleStep (Delivery.init [[0x50, 0, 0, 0]])
      [.packet 6, .take, .test, .count, .clear]).isSome = true := by decide
  obtain ⟨s, hs⟩ := Option.isSome_iff_exists.1 hsome
  have ht : Along bleStep (Timely [[0x50, 0, 0, 0]]) (Delivery.init [[0x50, 0, 0, 0]])
      [.packet 6, .take, .test, .count, .clear] := by
    refine ⟨.starts rfl (by decide) (by decide) (by decide) (.inl rfl), fun s' _ => ?_⟩
    refine along_of_forall fun e he s => ?_
    simp only [List.mem_cons, List.not_mem_nil, or_false] at he
    rcases he with rfl | rfl | rfl | rfl <;> trivial
  exact ⟨s, hs, delivered_faithful (by decide) ht hs⟩

/-- A frame that comes while another one is worked on overwrites it. -/
theorem delivered_overwritten :
    ∃ s, run bleStep (Delivery.init [[0x50, 1, 2, 3], [0x51, 4, 5, 6]])
        [.packet 6, .take, .test, .count, .clear, .packet 6] = some s ∧
      ¬ Faithful [[0x50, 1, 2, 3], [0x51, 4, 5, 6]] s := by
  have hany : (run bleStep (Delivery.init [[0x50, 1, 2, 3], [0x51, 4, 5, 6]])
      [.packet 6, .take, .test, .count, .clear, .packet 6]).any (fun s =>
        decide (s.pc = .handling 4 ∧ s.returned.getLast? = some [0x50, 1, 2, 3] ∧
          read s.link.rcvBuf 2 4 = [0x51, 4, 5, 6])) = true := by decide
  obtain ⟨s, hs, hd⟩ := (Option.any_eq_true _ _).1 hany
  obtain ⟨hpc, hlast, hread⟩ := of_decide_eq_true hd
  refine ⟨s, hs, fun h => ?_⟩
  obtain ⟨payload, hpay, -, hbuf⟩ := h.handled 4 hpc
  rw [hread] at hbuf
  rw [hlast, ← hbuf] at hpay
  cases hpay

end Loader
