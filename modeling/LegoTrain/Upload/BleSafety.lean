import LegoTrain.Upload.BleSystem

/-!
# Safety of the Bluetooth upgrade

When `ble_process` ends with `is_success = True`, is the image in the flash?  The answer to the
erase is not read, responses carry no number, a late `OK` is taken for the page that is sent by
then, and a frame that has been given up stays in the buffer of the loader.

* `Benign` : the steps on which the upgrade can rely;
* `Traffic` : what holds of the packets and the responses on the way;
* `BleInv` : what holds of the script, the channels and the flash together;
* `upload_safe` : in every run of benign steps, `is_success` means that the image is in the
  flash;
* `upload_unsafe` : a failed erase goes unnoticed, and the upgrade ends with another content.
-/

namespace Upload

open ByteMem Flash Loader Transition
open App (IsWriteFrame)
open Ota (Holds IsEraseFrame PageFrame Stored Writable)

/-! ## Benign steps -/

/-- The frame behind its length. -/
def recvBuf (l : BleLink) : Mem := fun i => l.rcvBuf (i + 2)

/-- The steps on which the upgrade can rely. -/
structure Benign (s : BleSystem) (e : UploadEvent) : Prop where
  /-- an `OK` that the script takes answers the page in hand, in this transaction -/
  answer : e = .go → ∀ retry timeout r, s.script.pc = .awaitResponse retry timeout →
    s.script.rxQueue = some r → Script.responseOk r.data = true →
    ∃ frame, s.script.command (.page retry) = some frame ∧
      r.request = some ⟨s.script.transaction, frame⟩
  /-- what the main task takes for a frame is one of the script, and a page meets bytes that are
  erased or hold its data -/
  received : ∀ faults, e = .receive faults → s.link.rxSem = true → s.link.rxBufLen ≠ 0 →
    checksumOk (recvBuf s.link) = true →
    ∃ p ∈ s.inBuf, (∀ q ∈ s.inBuf, q.sent = p.sent) ∧ bytesOf s.inBuf = wire p.sent.frame ∧
      ∀ addr data, addr < 2 ^ 32 → p.sent.frame = App.programOnePageCommandPayload addr data →
        Writable s.mem addr data

/-! ## The frames of the script -/

/-- A frame that the script sends for `image`. -/
inductive UploadFrame (image : List UInt8) (frame : List UInt8) : Prop
  | erase (h : frame = App.createPayload App.bflbEflashLoaderCmdFlashErase
      (eraseRange image.length))
  | page (n k : ℕ) (h : PageFrame image n k frame)
  | reset (h : frame = App.systemResetCommandPayload)

variable {image frame : List UInt8}

theorem UploadFrame.kind (h : UploadFrame image frame) :
    (frame ≠ [] ∧ ¬ IsWriteFrame frame) ∨ ∃ n k, PageFrame image n k frame := by
  cases h with
  | erase h =>
    refine .inl ⟨?_, ?_⟩
    · rw [h]
      exact List.cons_ne_nil _ _
    · rw [h]
      intro hw
      cases hw
  | page n k h => exact .inr ⟨n, k, h⟩
  | reset h =>
    refine .inl ⟨?_, ?_⟩
    · rw [h]
      exact List.cons_ne_nil _ _
    · rw [h]
      decide

theorem UploadFrame.length_lt (h : UploadFrame image frame) :
    0 < frame.length ∧ frame.length < 65536 := by
  cases h with
  | erase h => rw [h, App.length_createPayload, length_eraseRange]; decide
  | page n k h =>
    obtain ⟨hlen, hpos, hmax⟩ := h.length
    rw [h.eq, App.programOnePageCommandPayload, App.length_createPayload, List.length_append,
      App.length_toBytes, hlen]
    omega
  | reset h => rw [h]; decide

/-- The page in hand. -/
theorem pageFrame_of_command {s : Script} {n retry : ℕ} (hsize : image.length ≤ Firmware.flashTotalSize)
    (haddr : s.startAddr = flashStartAddress + n) (hdata : s.programData = image.drop n)
    (hmore : s.programData ≠ []) (hcommand : s.command (.page retry) = some frame) :
    n < image.length ∧ PageFrame image n (min (n + blePageSize) image.length) frame := by
  have hn : n < image.length := by
    rw [hdata] at hmore
    by_contra hle
    exact hmore (List.drop_eq_nil_of_le (Nat.not_lt.1 hle))
  have hsize' : image.length ≤ 0xca000 := hsize
  have hpage : s.page = App.copyOfRange image n (min (n + blePageSize) image.length) := by
    rw [Script.page, hdata, App.copyOfRange]
    rcases Nat.le_total (n + blePageSize) image.length with hle | hle
    · rw [Nat.min_eq_left hle, Nat.add_sub_cancel_left]
    · rw [Nat.min_eq_right hle, List.take_of_length_le, List.take_of_length_le]
      · rw [List.length_drop]
      · rw [List.length_drop]
        omega
  have hle : s.page.length ≤ 2048 := List.length_take_le 2048 _
  have hfits : s.startAddr < 2 ^ 32 := by
    rw [haddr, flashStartAddress]
    omega
  have hframe : s.command (.page retry)
      = some (App.programOnePageCommandPayload s.startAddr s.page) :=
    programOnePageBle_eq hfits (by omega)
  rw [hframe, Option.some.injEq] at hcommand
  refine ⟨hn, ?_, Nat.min_le_right _ _, ?_, ?_⟩
  · unfold blePageSize
    omega
  · unfold blePageSize App.BleFirmwareData.programSize
    omega
  · rw [← hcommand, hpage, haddr]
    rfl

/-- What is being written is a frame for the image. -/
theorem uploadFrame_of_writing {s : Script} {caller : Caller} {sendData : List UInt8}
    (hsize : image.length ≤ Firmware.flashTotalSize) (hi : ScriptInv image s)
    (hpc : s.pc = .writing caller frame sendData) :
    UploadFrame image frame ∧ (IsEraseFrame frame → caller = .erase) ∧
      (caller = .erase → ¬ IsWriteFrame frame) := by
  have hcommand := hi.frame caller frame sendData hpc
  have hsize' : image.length ≤ 0xca000 := hsize
  cases caller with
  | erase =>
    have hframe : s.command .erase = some (App.createPayload App.bflbEflashLoaderCmdFlashErase
        (eraseRange image.length)) := by
      rw [← hi.data]
      exact eraseFlash_eq (by rw [hi.data]; omega)
    rw [hframe, Option.some.injEq] at hcommand
    refine ⟨.erase hcommand.symm, fun _ => rfl, fun _ hw => ?_⟩
    rw [← hcommand] at hw
    cases hw
  | page retry =>
    have hon : s.pc.OnPage := by
      rw [hpc]
      trivial
    obtain ⟨n, haddr, hdata⟩ := hi.paging hon.inPages
    obtain ⟨-, hpage⟩ := pageFrame_of_command hsize haddr hdata (hi.onPage hon) hcommand
    refine ⟨.page _ _ hpage, fun he => ?_, nofun⟩
    rw [hpage.eq] at he
    cases he
  | reset =>
    have hframe : s.command .reset = some App.systemResetCommandPayload := systemResetCommand_eq
    rw [hframe, Option.some.injEq] at hcommand
    refine ⟨.reset hcommand.symm, fun he => ?_, nofun⟩
    rw [← hcommand] at he
    cases he

/-! ## What is on the way -/

/-- Byte `n` to byte `k` of the image are in the flash, and nothing is under way to erase
them. -/
structure Settled (image : List UInt8) (mem : Mem) (packets : List Packet) (n k : ℕ) : Prop where
  stored : Stored mem image n k
  noErase : ∀ p ∈ packets, ¬ IsEraseFrame p.sent.frame

/-- `p` may be on the way before `q`: it is of no later transaction, and an erase that follows a
page is of a later one. -/
structure Precedes (p q : Packet) : Prop where
  le : p.sent.transaction ≤ q.sent.transaction
  lt : IsWriteFrame p.sent.frame → IsEraseFrame q.sent.frame →
    p.sent.transaction < q.sent.transaction

/-- A packet of a script in transaction `t`. -/
structure PacketOk (image : List UInt8) (t : ℕ) (p : Packet) : Prop where
  ne : p.bytes ≠ []
  le : p.sent.transaction ≤ t
  frame : UploadFrame image p.sent.frame

/-- What a response says in transaction `t`: an `OK` to a page of this transaction means that the
page is in the flash. -/
def AckOk (image : List UInt8) (t : ℕ) (mem : Mem) (packets : List Packet) (r : Response) : Prop :=
  ∀ sent, r.request = some sent → sent.transaction ≤ t ∧
    (Script.responseOk r.data = true → sent.transaction = t → ∀ n k,
      PageFrame image n k sent.frame → Settled image mem packets n k)

/-- The packets and the responses on the way. -/
structure Traffic (image : List UInt8) (t : ℕ) (mem : Mem) (packets : List Packet)
    (responses : List Response) : Prop where
  sent : ∀ p ∈ packets, PacketOk image t p
  order : packets.Pairwise Precedes
  acks : ∀ r ∈ responses, AckOk image t mem packets r

/-- No page of transaction `t` has been sent. -/
structure Unused (t : ℕ) (packets : List Packet) (responses : List Response) : Prop where
  sent : ∀ p ∈ packets, IsWriteFrame p.sent.frame → p.sent.transaction < t
  requests : ∀ r ∈ responses, ∀ sent, r.request = some sent → IsWriteFrame sent.frame →
    sent.transaction < t

section Traffic

variable {mem mem' : Mem} {packets packets' : List Packet} {responses responses' : List Response}
  {t t' n k : ℕ}

theorem Settled.sublist (h : Settled image mem packets n k) (hp : ∀ p ∈ packets', p ∈ packets) :
    Settled image mem packets' n k :=
  ⟨h.stored, fun p hmem => h.noErase p (hp p hmem)⟩

theorem Settled.append {p : Packet} (h : Settled image mem packets n k)
    (hp : ¬ IsEraseFrame p.sent.frame) : Settled image mem (packets ++ [p]) n k := by
  refine ⟨h.stored, ?_⟩
  intro q hmem
  rcases List.mem_append.1 hmem with hmem | hmem
  · exact h.noErase q hmem
  · rw [List.mem_singleton.1 hmem]
    exact hp

/-- Losses. -/
theorem Traffic.sublist (h : Traffic image t mem packets responses)
    (hp : packets'.Sublist packets) (hr : ∀ r ∈ responses', r ∈ responses) :
    Traffic image t mem packets' responses' where
  sent := fun p hmem => h.sent p (hp.subset hmem)
  order := h.order.sublist hp
  acks := by
    intro r hmem sent hreq
    obtain ⟨hle, hack⟩ := h.acks r (hr r hmem) sent hreq
    exact ⟨hle, fun hok ht n k hpage =>
      (hack hok ht n k hpage).sublist fun p hp' => hp.subset hp'⟩

/-- A later transaction. -/
theorem Traffic.later (h : Traffic image t mem packets responses) (ht : t ≤ t') :
    Traffic image t' mem packets responses where
  sent := by
    intro p hmem
    obtain ⟨hne, hle, hframe⟩ := h.sent p hmem
    exact ⟨hne, Nat.le_trans hle ht, hframe⟩
  order := h.order
  acks := by
    intro r hmem sent hreq
    obtain ⟨hle, hack⟩ := h.acks r hmem sent hreq
    refine ⟨Nat.le_trans hle ht, fun hok hnow n k hpage => ?_⟩
    exact hack hok (by omega) n k hpage

/-- A packet is sent: an erase only while no page of the transaction has been sent. -/
theorem Traffic.send {p : Packet} (h : Traffic image t mem packets responses)
    (hp : PacketOk image t p) (hnow : p.sent.transaction = t)
    (hunused : IsEraseFrame p.sent.frame → Unused t packets responses) :
    Traffic image t mem (packets ++ [p]) responses where
  sent := by
    intro q hmem
    rcases List.mem_append.1 hmem with hmem | hmem
    · exact h.sent q hmem
    · rw [List.mem_singleton.1 hmem]
      exact hp
  order := by
    refine List.pairwise_append.2 ⟨h.order, List.pairwise_singleton _ _, ?_⟩
    intro q hq q' hq'
    rw [List.mem_singleton.1 hq']
    refine ⟨?_, fun hw he => ?_⟩
    · rw [hnow]
      exact (h.sent q hq).le
    · rw [hnow]
      exact (hunused he).sent q hq hw
  acks := by
    intro r hmem sent hreq
    obtain ⟨hle, hack⟩ := h.acks r hmem sent hreq
    refine ⟨hle, fun hok ht n k hpage => ?_⟩
    refine (hack hok ht n k hpage).append fun he => ?_
    have hlt := (hunused he).requests r hmem sent hreq hpage.isWrite
    omega

/-- The loader takes what is in the buffer: what is settled stays settled, and so is what its
answers stand for. -/
theorem Traffic.turn {inBuf toRobot : List Packet} {answers : List (List UInt8)}
    (h : Traffic image t mem (inBuf ++ toRobot) responses)
    (hkeep : (∀ p ∈ inBuf, ¬ IsEraseFrame p.sent.frame) →
      ∀ n k, Stored mem image n k → Stored mem' image n k)
    (hnew : ∀ p, inBuf.head? = some p → ∀ n k, PageFrame image n k p.sent.frame →
      ∀ data ∈ answers, Script.responseOk data = true → Stored mem' image n k) :
    Traffic image t mem' toRobot
      (responses ++ answers.map fun data => ⟨data, inBuf.head?.map Packet.sent⟩) where
  sent := fun q hmem => h.sent q (List.mem_append_right _ hmem)
  order := h.order.sublist (List.sublist_append_right inBuf toRobot)
  acks := by
    intro r hmem sent hreq
    rcases List.mem_append.1 hmem with hmem | hmem
    · obtain ⟨hle, hack⟩ := h.acks r hmem sent hreq
      refine ⟨hle, fun hok ht n k hpage => ?_⟩
      obtain ⟨hst, hne⟩ := hack hok ht n k hpage
      exact ⟨hkeep (fun p hp => hne p (List.mem_append_left _ hp)) n k hst,
        fun q hq => hne q (List.mem_append_right _ hq)⟩
    · obtain ⟨data, hdata, rfl⟩ := List.mem_map.1 hmem
      obtain ⟨p, hhead, rfl⟩ := Option.map_eq_some_iff.1 hreq
      have hp : p ∈ inBuf := List.mem_of_mem_head? hhead
      refine ⟨(h.sent p (List.mem_append_left _ hp)).le, fun hok ht n k hpage => ?_⟩
      refine ⟨hnew p hhead n k hpage data hdata hok, fun q hq he => ?_⟩
      -- the channel keeps the order, so an erase behind the page is of a later transaction
      have hprec := (List.pairwise_append.1 h.order).2.2 p hp q hq
      have hlt := hprec.lt hpage.isWrite he
      have hle := (h.sent q (List.mem_append_right _ hq)).le
      omega

theorem Unused.sublist (h : Unused t packets responses) (hp : ∀ p ∈ packets', p ∈ packets)
    (hr : ∀ r ∈ responses', r ∈ responses) : Unused t packets' responses' :=
  ⟨fun p hmem => h.sent p (hp p hmem), fun r hmem => h.requests r (hr r hmem)⟩

/-- At the start of a transaction nothing of it is on the way. -/
theorem Traffic.unused (h : Traffic image t mem packets responses) (ht : t < t') :
    Unused t' packets responses :=
  ⟨fun p hmem _ => Nat.lt_of_le_of_lt (h.sent p hmem).le ht,
    fun r hmem sent hreq _ => Nat.lt_of_le_of_lt (h.acks r hmem sent hreq).1 ht⟩

end Traffic

/-! ## The invariant -/

namespace BleSystem

/-- The packets on the way, oldest first. -/
def packets (s : BleSystem) : List Packet := s.inBuf ++ s.toRobot

/-- The responses that the script has not looked at. -/
def responses (s : BleSystem) : List Response := s.toScript ++ s.script.rxQueue.toList

end BleSystem

/-- The pages that count as sent for the script are settled. -/
def Acked (image : List UInt8) (script : Script) (mem : Mem) (packets : List Packet) : Prop :=
  script.pc.InPages → ∀ n, script.startAddr = flashStartAddress + n →
    n = 0 ∨ Settled image mem packets 0 (min n image.length)

/-- The invariant of the system. -/
structure BleInv (image : List UInt8) (s : BleSystem) : Prop where
  script : ScriptInv image s.script
  buffer : BufferInv s.link s.inBuf
  traffic : Traffic image s.script.transaction s.mem s.packets s.responses
  unused : s.script.pc.BeforePages → Unused s.script.transaction s.packets s.responses
  acked : Acked image s.script s.mem s.packets

theorem bleInv_init (image : List UInt8) (l : State) : BleInv image (BleSystem.init image l) where
  script := scriptInv_start image
  buffer := bufferInv_nil rfl
  traffic := ⟨nofun, List.Pairwise.nil, nofun⟩
  unused := fun _ => ⟨nofun, nofun⟩
  acked := nofun

variable {env : Env} {s s' : BleSystem}

/-- Losses, and a notification that the script does not keep. -/
theorem bleInv_sublist (hi : BleInv image s) (hscript : s'.script = s.script)
    (hbuffer : BufferInv s'.link s'.inBuf) (hmem : s'.mem = s.mem)
    (hp : s'.packets.Sublist s.packets) (hr : ∀ r ∈ s'.responses, r ∈ s.responses) :
    BleInv image s' := by
  refine ⟨by rw [hscript]; exact hi.script, hbuffer, ?_, ?_, ?_⟩
  · rw [hscript, hmem]
    exact hi.traffic.sublist hp hr
  · rw [hscript]
    exact fun hb => (hi.unused hb).sublist (fun p hmem => hp.subset hmem) hr
  · rw [hscript, hmem]
    intro hin n hn
    exact (hi.acked hin n hn).imp id fun h => h.sublist fun p hmem => hp.subset hmem

/-- An `OK` for the page that the script has sent: the pages up to its end are settled. -/
theorem settled_of_ok (hsize : image.length ≤ Firmware.flashTotalSize) (hi : BleInv image s)
    {retry timeout m : ℕ} {r : Response} {frame : List UInt8}
    (hpc : s.script.pc = .awaitResponse retry timeout) (hqueue : s.script.rxQueue = some r)
    (hok : Script.responseOk r.data = true)
    (hcommand : s.script.command (.page retry) = some frame)
    (hreq : r.request = some ⟨s.script.transaction, frame⟩)
    (hm : s.script.startAddr + blePageSize = flashStartAddress + m) :
    Settled image s.mem s.packets 0 (min m image.length) := by
  have hon : s.script.pc.OnPage := by
    rw [hpc]
    trivial
  have hmore := hi.script.onPage hon
  obtain ⟨n, haddr, hdata⟩ := hi.script.paging hon.inPages
  obtain ⟨hn, hpage⟩ := pageFrame_of_command hsize haddr hdata hmore hcommand
  have hr : r ∈ s.responses := by
    refine List.mem_append_right _ ?_
    rw [hqueue]
    exact List.mem_singleton.2 rfl
  have hset := ((hi.traffic.acks r hr) _ hreq).2 hok rfl n _ hpage
  obtain rfl : m = n + blePageSize := by omega
  refine ⟨?_, hset.noErase⟩
  rcases hi.acked hon.inPages n haddr with h0 | hold
  · rw [h0] at hset ⊢
    exact hset.stored
  · have hst := hold.stored
    rw [Nat.min_eq_left (Nat.le_of_lt hn)] at hst
    exact hst.append hset.stored

/-- A step of the script, up to what it writes. -/
theorem bleInv_script {script : Script} (hsize : image.length ≤ Firmware.flashTotalSize)
    (hi : BleInv image s) (hstep : StepOk image s.script script)
    (hanswer : ∀ retry timeout r, s.script.pc = .awaitResponse retry timeout →
      s.script.rxQueue = some r → Script.responseOk r.data = true →
      script = s.script.cleanQueue.pageDone →
      ∃ frame, s.script.command (.page retry) = some frame ∧
        r.request = some ⟨s.script.transaction, frame⟩) :
    BleInv image { s with script := script } := by
  have hresponses : ∀ r ∈ BleSystem.responses { s with script := script }, r ∈ s.responses := by
    intro r hr
    rcases List.mem_append.1 hr with hr | hr
    · exact List.mem_append_left _ hr
    · rcases hstep.queue with hq | hq
      · rw [show script.rxQueue = none from hq] at hr
        cases hr
      · rw [show script.rxQueue = s.script.rxQueue from hq] at hr
        exact List.mem_append_right _ hr
  have htraffic := hi.traffic.sublist (List.Sublist.refl s.packets) hresponses
  cases hstep.move with
  | stay hin hin' hpages haddr htransaction =>
    refine ⟨hstep.inv, hi.buffer, ?_, ?_, ?_⟩
    · show Traffic image script.transaction _ _ _
      rw [htransaction]
      exact htraffic
    · exact fun hb => absurd hin' hb.outside.1
    · intro _ n hn
      exact hi.acked hin n (haddr.symm.trans hn)
  | leave hout hbefore htransaction =>
    refine ⟨hstep.inv, hi.buffer, htraffic.later htransaction, ?_, ?_⟩
    · intro hb
      rcases hbefore hb with ⟨hb', ht⟩ | hlt
      · show Unused script.transaction _ _
        rw [ht]
        exact (hi.unused hb').sublist (fun p hp => hp) hresponses
      · exact htraffic.unused hlt
    · exact fun hin => absurd hin hout
  | enter hbefore hin' hpages haddr htransaction =>
    refine ⟨hstep.inv, hi.buffer, ?_, ?_, ?_⟩
    · show Traffic image script.transaction _ _ _
      rw [htransaction]
      exact htraffic
    · exact fun hb => absurd hin' hb.outside.1
    · intro _ n hn
      have hn' : script.startAddr = flashStartAddress + n := hn
      rw [haddr] at hn'
      exact .inl (by omega)
  | ok retry timeout r hpc hqueue hok heq =>
    obtain ⟨frame, hcommand, hreq⟩ := hanswer retry timeout r hpc hqueue hok heq
    have htransaction : script.transaction = s.script.transaction := by
      rw [heq]
      rfl
    refine ⟨hstep.inv, hi.buffer, ?_, ?_, ?_⟩
    · show Traffic image script.transaction _ _ _
      rw [htransaction]
      exact htraffic
    · intro hb
      rw [show script = _ from heq] at hb
      exact hb.elim
    · intro _ m hm
      have hm' : script.startAddr = flashStartAddress + m := hm
      have hadd : script.startAddr = s.script.startAddr + blePageSize := by
        rw [heq]
        rfl
      exact .inr (settled_of_ok hsize hi hpc hqueue hok hcommand hreq (hadd.symm.trans hm'))

/-- The script writes a packet. -/
theorem bleInv_send {caller : Caller} {frame sendData chunk : List UInt8}
    (hsize : image.length ≤ Firmware.flashTotalSize) (hi : BleInv image s)
    (hpc : s.script.pc = .writing caller frame sendData) (hchunk : chunk ≠ []) :
    BleInv image { s with toRobot := s.toRobot ++ [⟨chunk, s.script.sent⟩] } := by
  have hsent : s.script.sent.frame = frame := by
    rw [Script.sent, hpc]
  obtain ⟨hframe, herase, hwrite⟩ := uploadFrame_of_writing hsize hi.script hpc
  have hbefore : IsEraseFrame frame → s.script.pc.BeforePages := by
    intro he
    rw [hpc, herase he]
    trivial
  have hpackets : BleSystem.packets { s with
      toRobot := s.toRobot ++ [⟨chunk, s.script.sent⟩] } = s.packets ++ [⟨chunk, s.script.sent⟩] := by
    rw [BleSystem.packets, BleSystem.packets, List.append_assoc]
  have hok : PacketOk image s.script.transaction ⟨chunk, s.script.sent⟩ := by
    refine ⟨hchunk, Nat.le_refl _, ?_⟩
    rw [hsent]
    exact hframe
  refine ⟨hi.script, hi.buffer, ?_, ?_, ?_⟩
  · rw [hpackets]
    refine hi.traffic.send hok rfl fun he => hi.unused (hbefore ?_)
    rw [← hsent]
    exact he
  · intro hb
    rw [hpackets]
    obtain ⟨hp, hr⟩ := hi.unused hb
    refine ⟨?_, hr⟩
    intro q hmem hw
    rcases List.mem_append.1 hmem with hmem | hmem
    · exact hp q hmem hw
    · obtain rfl := List.mem_singleton.1 hmem
      have hcaller : caller = .erase := by
        rw [hpc] at hb
        cases caller with
        | erase => rfl
        | page retry => exact hb.elim
        | reset => exact hb.elim
      simp only [hsent] at hw
      exact absurd hw (hwrite hcaller)
  · intro hin n hn
    rw [hpackets]
    refine (hi.acked hin n hn).imp id fun h => h.append fun he => ?_
    simp only [hsent] at he
    exact (hbefore he).outside.1 hin

/-- The turn of the loader. -/
theorem bleInv_turn {l : State} (hi : BleInv image s)
    (hkeep : (∀ p ∈ s.inBuf, ¬ IsEraseFrame p.sent.frame) →
      ∀ n k, Stored s.mem image n k → Stored l.dev.mem image n k)
    (hnew : ∀ p, s.inBuf.head? = some p → ∀ n k, PageFrame image n k p.sent.frame →
      ∀ data ∈ l.sent, Script.responseOk data = true → Stored l.dev.mem image n k) :
    BleInv image { s with
      link := (bleRecv s.link).1
      inBuf := []
      loader := l
      toScript := s.toScript ++ l.sent.map fun data => ⟨data, s.inBuf.head?.map Packet.sent⟩ } where
  script := hi.script
  buffer := bufferInv_nil (bleRecv_empty s.link)
  traffic := by
    refine (hi.traffic.turn hkeep hnew).sublist (List.Sublist.refl _) ?_
    intro r hr
    simp only [BleSystem.responses, List.mem_append] at hr ⊢
    tauto
  unused := by
    intro hb
    obtain ⟨hp, hr⟩ := hi.unused hb
    refine ⟨fun p hmem => hp p (List.mem_append_right _ hmem), ?_⟩
    intro r hmem sent hreq hw
    simp only [BleSystem.responses, List.mem_append] at hmem
    rcases hmem with (hmem | hmem) | hmem
    · exact hr r (List.mem_append_left _ hmem) sent hreq hw
    · obtain ⟨data, -, rfl⟩ := List.mem_map.1 hmem
      obtain ⟨p, hhead, rfl⟩ := Option.map_eq_some_iff.1 hreq
      exact hp p (List.mem_append_left _ (List.mem_of_mem_head? hhead)) hw
    · exact hr r (List.mem_append_right _ hmem) sent hreq hw
  acked := by
    intro hin n hn
    refine (hi.acked hin n hn).imp id fun h => ⟨?_, fun p hp => ?_⟩
    · exact hkeep (fun p hp => h.noErase p (List.mem_append_left _ hp)) _ _ h.stored
    · exact h.noErase p (List.mem_append_right _ hp)

/-- A turn that leaves the flash alone and answers nothing with `OK`. -/
theorem bleInv_quiet {l : State} (hi : BleInv image s) (hmem : l.dev.mem = s.mem)
    (hsent : ∀ data ∈ l.sent, Script.responseOk data = false) :
    BleInv image { s with
      link := (bleRecv s.link).1
      inBuf := []
      loader := l
      toScript := s.toScript ++ l.sent.map fun data => ⟨data, s.inBuf.head?.map Packet.sent⟩ } := by
  refine bleInv_turn hi ?_ ?_
  · intro _ n k hst
    rw [hmem]
    exact hst
  · intro p _ n k _ data hdata hok
    rw [hsent data hdata] at hok
    cases hok

/-- A frame that fails the checksum test is answered, and nothing else. -/
theorem onFrame_rejected (env : Env) {l : State} {recvBuf : Mem} (hsum : checksumOk recvBuf = false)
    (hsent : l.sent = []) :
    (onFrame env l recvBuf).dev.mem = l.dev.mem ∧
      ∀ data ∈ (onFrame env l recvBuf).sent, Script.responseOk data = false := by
  rw [onFrame, if_neg (by rw [hsum]; exact Bool.false_ne_true)]
  refine ⟨by rw [ifWrite_dev], ?_⟩
  intro data hdata
  unfold ifWrite at hdata
  split at hdata
  · rw [hsent] at hdata
    obtain rfl := List.mem_singleton.1 hdata
    decide
  · rw [hsent] at hdata
    cases hdata

/-- A frame of the script in the buffer. -/
theorem bleInv_receive_frame {faults : List Fault} {p : Packet} {l : State}
    (hsize : image.length ≤ Firmware.flashTotalSize) (hi : BleInv image s) (hp : p ∈ s.inBuf)
    (hsame : ∀ q ∈ s.inBuf, q.sent = p.sent) (hbytes : bytesOf s.inBuf = wire p.sent.frame)
    (hw : ∀ addr data, addr < 2 ^ 32 →
      p.sent.frame = App.programOnePageCommandPayload addr data → Writable s.mem addr data)
    (hl : l = onFrame env { BleSystem.turn s.loader faults [] with toCnt := 0 } (recvBuf s.link)) :
    BleInv image { s with
      link := (bleRecv s.link).1
      inBuf := []
      loader := l
      toScript := s.toScript ++ l.sent.map fun data => ⟨data, s.inBuf.head?.map Packet.sent⟩ } := by
  have hsize' : image.length ≤ 0xca000 := hsize
  have hframe := (hi.traffic.sent p (List.mem_append_left _ hp)).frame
  have hlink := hi.buffer.link
  rw [hbytes] at hlink
  have hholds : Holds (recvBuf s.link) p.sent.frame := by
    have hshift : read (recvBuf s.link) 0 p.sent.frame.length
        = read s.link.rcvBuf 2 p.sent.frame.length := by
      apply read_congr
      intro i _
      rw [recvBuf, Nat.zero_add, Nat.add_comm]
    exact hshift.trans (hlink.frame hframe.length_lt.2).2
  obtain ⟨hkeep, hnew⟩ := Ota.loader_turn env
    (l := { BleSystem.turn s.loader faults [] with toCnt := 0 }) (by omega) rfl hholds hframe.kind
  subst hl
  refine bleInv_turn hi ?_ ?_
  · intro he n k hst
    exact hkeep (he p hp) n k hst
  · intro q hhead n k hpage data hdata hok
    rw [hsame q (List.mem_of_mem_head? hhead)] at hpage
    have hlt := hpage.lt
    have hle := hpage.le
    refine hnew n k hpage (hw _ _ ?_ hpage.eq) data hdata hok
    unfold App.flashStartAddress
    omega

theorem bleInv_receive {faults : List Fault} (hsize : image.length ≤ Firmware.flashTotalSize)
    (hi : BleInv image s) (hb : Benign s (.receive faults))
    (hs : bleUploadStep env s (.receive faults) = some s') : BleInv image s' := by
  obtain ⟨l, hstep, rfl⟩ := Option.map_eq_some_iff.1 hs
  by_cases hframe : s.link.rxSem = true ∧ s.link.rxBufLen ≠ 0
  · obtain ⟨hsem, hlen⟩ := hframe
    rw [bleRecv_frame hsem hlen] at hstep
    have hl := step_frame hlen hstep
    cases hsum : checksumOk (recvBuf s.link) with
    | true =>
      obtain ⟨p, hp, hsame, hbytes, hw⟩ := hb.received faults rfl hsem hlen hsum
      exact bleInv_receive_frame hsize hi hp hsame hbytes hw hl
    | false =>
      obtain ⟨hmem, hsent⟩ := onFrame_rejected env
        (l := { BleSystem.turn s.loader faults [] with toCnt := 0 }) hsum rfl
      rw [hl]
      exact bleInv_quiet hi hmem hsent
  · have hnone : s.link.rxSem = false ∨ s.link.rxBufLen = 0 := by
      rw [← Bool.not_eq_true]
      tauto
    obtain ⟨hlen, hnok⟩ := bleRecv_none hnone
    obtain ⟨hdev, -, hsent⟩ := step_nothing hlen hstep
    have hmem : l.dev.mem = s.mem := by
      rw [hdev]
      rfl
    refine bleInv_quiet hi hmem ?_
    intro data hdata
    rw [hsent] at hdata
    rcases hnok with h | h
    · rw [BleSystem.turn, h] at hdata
      cases hdata
    · rw [BleSystem.turn, h] at hdata
      obtain rfl := List.mem_singleton.1 hdata
      decide

/-- The loop leaves the flash alone. -/
theorem bleInv_loader {l : State} (hi : BleInv image s) (hmem : l.dev.mem = s.mem) :
    BleInv image { s with loader := l } := by
  refine bleInv_sublist (s := s) hi rfl hi.buffer hmem (List.Sublist.refl _) ?_
  exact fun r hr => hr

/-- `Loader.enter` leaves the flash alone. -/
theorem enter_mem {l l' : State} (h : Loader.enter l = some l') : l'.dev.mem = l.dev.mem := by
  unfold Loader.enter at h
  split at h
  · cases h
    rfl
  · cases h

/-- The script goes on. -/
theorem bleInv_go (hsize : image.length ≤ Firmware.flashTotalSize) (hi : BleInv image s)
    (hb : Benign s .go) (hs : bleUploadStep env s .go = some s') : BleInv image s' := by
  obtain ⟨⟨script, chunk⟩, hgo, rfl⟩ := Option.map_eq_some_iff.1 hs
  have hmoved : BleInv image { s with script := script } := by
    refine bleInv_script hsize hi (stepOk_go hi.script hgo) ?_
    intro retry timeout r hpc hqueue hok _
    exact hb.answer rfl retry timeout r hpc hqueue hok
  cases chunk with
  | none =>
    simp only [Option.toList_none, List.map_nil, List.append_nil]
    exact hmoved
  | some bytes =>
    obtain ⟨caller, frame, b, sendData, hpc, rfl, rfl⟩ := go_writes hgo
    have hsent : s.script.sent = Script.sent { s.script with
        pc := .writing caller frame ((b :: sendData).drop chunkSize) } := by
      rw [Script.sent, Script.sent, hpc]
    simp only [Option.toList_some, List.map_cons, List.map_nil]
    rw [hsent]
    exact bleInv_send hsize hmoved rfl (List.cons_ne_nil _ _)

/-- A step of the script that takes no response for an answer. -/
theorem bleInv_aside {script : Script} (hsize : image.length ≤ Firmware.flashTotalSize)
    (hi : BleInv image s) (hstep : StepOk image s.script script)
    (hpc : ∀ retry timeout, s.script.pc = .awaitResponse retry timeout → script.pc ≠ .nextPage) :
    BleInv image { s with script := script } := by
  refine bleInv_script hsize hi hstep ?_
  intro retry timeout _ hawait _ _ heq
  refine absurd ?_ (hpc retry timeout hawait)
  rw [heq]
  rfl

theorem bleInv_raise (hsize : image.length ≤ Firmware.flashTotalSize) (hi : BleInv image s)
    (hs : bleUploadStep env s .raise = some s') : BleInv image s' := by
  obtain ⟨script, hraise, rfl⟩ := Option.map_eq_some_iff.1 hs
  refine bleInv_aside hsize hi (stepOk_raise hi.script hraise) ?_
  intro _ _ _
  unfold Script.raise at hraise
  split at hraise
  · cases hraise
  · cases hraise
    rcases nextTransaction_cases s.script with ⟨hpc, -⟩ | ⟨hpc, -⟩
    · rw [hpc]
      exact nofun
    · rw [hpc]
      exact nofun

/-- A new connection finds an empty buffer. -/
theorem bleInv_connected {found : Bool} (hsize : image.length ≤ Firmware.flashTotalSize)
    (hi : BleInv image s) (hs : bleUploadStep env s (.connected found) = some s') :
    BleInv image s' := by
  obtain ⟨script, hconn, rfl⟩ := Option.map_eq_some_iff.1 hs
  have hmoved : BleInv image { s with script := script } := by
    refine bleInv_aside hsize hi (stepOk_connected hi.script hconn) ?_
    intro retry timeout hpc
    rw [Script.connected, hpc] at hconn
    cases hconn
  refine bleInv_sublist hmoved rfl (bufferInv_nil rfl) rfl ?_ fun r hr => hr
  exact List.sublist_append_right s.inBuf s.toRobot

/-- What a notification does to the script. -/
theorem notify_cases (s : Script) (r : Response) :
    (s.notify r).transaction = s.transaction ∧ (s.notify r).startAddr = s.startAddr ∧
      ((s.notify r).pc = s.pc ∨ (s.notify r).pc = .hung) ∧
      ((s.notify r).rxQueue = s.rxQueue ∨ (s.notify r).rxQueue = some r) := by
  unfold Script.notify
  split
  · exact ⟨rfl, rfl, .inl rfl, .inl rfl⟩
  split
  · exact ⟨rfl, rfl, .inr rfl, .inl rfl⟩
  · exact ⟨rfl, rfl, .inl rfl, .inr rfl⟩

/-- A notification arrives. -/
theorem bleInv_deliver (hi : BleInv image s) (hs : bleUploadStep env s .deliver = some s') :
    BleInv image s' := by
  rw [bleUploadStep] at hs
  split at hs
  · cases hs
  rename_i r rest hrest
  cases hs
  obtain ⟨htransaction, haddr, hpc, hqueue⟩ := notify_cases s.script r
  have hresponses : ∀ r' ∈ rest ++ (s.script.notify r).rxQueue.toList, r' ∈ s.responses := by
    intro r' hr'
    rw [BleSystem.responses, hrest]
    rcases List.mem_append.1 hr' with hr' | hr'
    · exact List.mem_append_left _ (List.mem_cons_of_mem _ hr')
    · rcases hqueue with hq | hq
      · rw [hq] at hr'
        exact List.mem_append_right _ hr'
      · rw [hq] at hr'
        obtain rfl := List.mem_singleton.1 hr'
        exact List.mem_append_left _ List.mem_cons_self
  refine ⟨scriptInv_notify hi.script r, hi.buffer, ?_, ?_, ?_⟩
  · show Traffic image (s.script.notify r).transaction _ _ _
    rw [htransaction]
    exact hi.traffic.sublist (List.Sublist.refl _) hresponses
  · intro hb
    show Unused (s.script.notify r).transaction _ _
    rw [htransaction]
    rcases hpc with h | h
    · exact (hi.unused (h ▸ hb)).sublist (fun p hp => hp) hresponses
    · exact (h ▸ hb : Pc.BeforePages .hung).elim
  · intro hin n hn
    rcases hpc with h | h
    · exact hi.acked (h ▸ hin) n (haddr.symm.trans hn)
    · exact (h ▸ hin : Pc.InPages .hung).elim

/-- A packet arrives. -/
theorem bleInv_packet (hi : BleInv image s) (hs : bleUploadStep env s .packet = some s') :
    BleInv image s' := by
  rw [bleUploadStep] at hs
  split at hs
  · cases hs
  rename_i p rest hrest
  cases hs
  have hp : p ∈ s.packets := by
    rw [BleSystem.packets, hrest]
    exact List.mem_append_right _ List.mem_cons_self
  obtain ⟨link, inBuf, harrive, hbuffer, hcases⟩ :=
    arrive_spec (s := { s with toRobot := rest }) hi.buffer (hi.traffic.sent p hp).ne
  rw [harrive]
  refine bleInv_sublist (s := s) hi rfl hbuffer rfl ?_ fun r hr => hr
  rw [BleSystem.packets, BleSystem.packets, hrest]
  rcases hcases with rfl | rfl | rfl
  · exact (List.sublist_cons_self p rest).trans (List.sublist_append_right _ _)
  · exact (List.Sublist.refl s.inBuf).append (List.sublist_cons_self p rest)
  · rw [List.append_assoc]
    exact List.Sublist.refl _

/-- Every benign step keeps the invariant. -/
theorem bleInv_step {e : UploadEvent} (hsize : image.length ≤ Firmware.flashTotalSize)
    (hi : BleInv image s) (hb : Benign s e) (hs : bleUploadStep env s e = some s') :
    BleInv image s' := by
  cases e with
  | go => exact bleInv_go hsize hi hb hs
  | raise => exact bleInv_raise hsize hi hs
  | connected found => exact bleInv_connected hsize hi hs
  | deliver => exact bleInv_deliver hi hs
  | packet => exact bleInv_packet hi hs
  | receive faults => exact bleInv_receive hsize hi hb hs
  | timeout =>
    obtain ⟨l, hstep, rfl⟩ := Option.map_eq_some_iff.1 hs
    exact bleInv_loader hi (congrArg Device.mem (step_nothing rfl hstep).1)
  | enter =>
    rw [bleUploadStep] at hs
    split at hs
    · obtain ⟨l, henter, rfl⟩ := Option.map_eq_some_iff.1 hs
      exact bleInv_loader hi (enter_mem henter)
    · cases hs
  | losePacket i =>
    cases hs
    refine bleInv_sublist (s := s) hi rfl hi.buffer rfl ?_ fun r hr => hr
    exact (List.Sublist.refl _).append (List.eraseIdx_sublist _ _)
  | loseResponse i =>
    cases hs
    refine bleInv_sublist (s := s) hi rfl hi.buffer rfl (List.Sublist.refl _) ?_
    intro r hr
    exact ((List.eraseIdx_sublist s.toScript i).append_right _).subset hr

/-- **Safety of the Bluetooth upgrade.**  In every run of benign steps, `is_success` means that the
image is in the flash. -/
theorem upload_safe {l : State} {es : List UploadEvent}
    (hsize : image.length ≤ Firmware.flashTotalSize)
    (hbenign : Along (bleUploadStep env) Benign (BleSystem.init image l) es)
    (hrun : run (bleUploadStep env) (BleSystem.init image l) es = some s)
    (hsuccess : s.script.pc = .success) :
    read s.mem flashStartAddress image.length = image := by
  have hi : BleInv image s := run_inv (P := BleInv image)
    (fun _ _ _ hi hb hs => bleInv_step hsize hi hb hs) (bleInv_init image l) hbenign hrun
  have hin : s.script.pc.InPages := by
    rw [hsuccess]
    trivial
  have hafter : s.script.pc.AfterPages := by
    rw [hsuccess]
    trivial
  obtain ⟨n, haddr, hdata⟩ := hi.script.paging hin
  have hle : image.length ≤ n := by
    rw [hi.script.afterPages hafter] at hdata
    exact List.drop_eq_nil_iff.1 hdata.symm
  have hstored : Stored s.mem image 0 image.length := by
    rcases hi.acked hin n haddr with h0 | hset
    · intro i _ h
      omega
    · rw [Nat.min_eq_right hle] at hset
      exact hset.stored
  exact read_eq_iff.2 fun i h => hstored i (Nat.zero_le i) h

/-! ## Two uploads of an image of one byte -/

/-- Decision procedure for `Benign`. -/
def benignb (s : BleSystem) : UploadEvent → Bool
  | .go =>
    match s.script.pc, s.script.rxQueue with
    | .awaitResponse retry _, some r => !Script.responseOk r.data ||
        (s.script.command (.page retry)).any fun frame =>
          r.request = some ⟨s.script.transaction, frame⟩
    | _, _ => true
  | .receive _ =>
    !s.link.rxSem || s.link.rxBufLen = 0 || !checksumOk (recvBuf s.link) ||
      s.inBuf.head?.any fun p : Packet =>
        (s.inBuf.all fun q => q.sent = p.sent) && bytesOf s.inBuf = wire p.sent.frame &&
        decide (¬ IsWriteFrame p.sent.frame ∨ ∀ i < (Ota.pageOf p.sent.frame).2.length,
          s.mem ((Ota.pageOf p.sent.frame).1 + i) &&& (Ota.pageOf p.sent.frame).2.getD i 0
            = (Ota.pageOf p.sent.frame).2.getD i 0)
  | _ => true

theorem benignb_sound {e : UploadEvent} (h : benignb s e = true) : Benign s e where
  answer := by
    rintro rfl retry timeout r hpc hqueue hok
    simp only [benignb, hpc, hqueue, hok, Bool.not_true, Bool.false_or, Option.any_eq_true,
      decide_eq_true_eq] at h
    exact h
  received := by
    rintro faults rfl hsem hlen hsum
    simp only [benignb, hsem, hlen, hsum, Bool.not_true, Bool.false_or, decide_false,
      Option.any_eq_true, Bool.and_eq_true, List.all_eq_true, decide_eq_true_eq] at h
    obtain ⟨p, hhead, ⟨hsame, hbytes⟩, hw⟩ := h
    refine ⟨p, List.mem_of_mem_head? hhead, hsame, hbytes, ?_⟩
    intro addr data haddr hframe
    rw [hframe, Ota.pageOf_programOnePage haddr] at hw
    exact hw.resolve_left fun hno => hno rfl

/-- An upload of one page; the erase meets `faults`, and nothing else happens. -/
def wholeUpload (faults : List Fault) : List UploadEvent :=
  [.connected true, .go, .go, .packet, .receive faults, .deliver, .go, .go, .connected true, .go,
    .go, .go, .packet, .receive [], .go, .deliver, .go, .go, .go, .go]

/-- Nothing is lost and nothing fails: the byte is in the flash. -/
theorem upload_safe_oneByte :
    ∃ s, run (bleUploadStep idleEnv) (BleSystem.init [0xAA] Ota.staleLoader) (wholeUpload []) =
        some s ∧
      s.script.pc = .success ∧ read s.mem flashStartAddress 1 = [0xAA] := by
  have hbenign : Along (bleUploadStep idleEnv) Benign (BleSystem.init [0xAA] Ota.staleLoader)
      (wholeUpload []) := by
    apply alongb_sound (fun _ _ => benignb_sound)
    decide +kernel
  have hends : ((run (bleUploadStep idleEnv) (BleSystem.init [0xAA] Ota.staleLoader)
      (wholeUpload [])).map fun s => decide (s.script.pc = .success)) = some true := by
    decide +kernel
  obtain ⟨s, hrun, hpc⟩ := Option.map_eq_some_iff.1 hends
  exact ⟨s, hrun, of_decide_eq_true hpc,
    upload_safe (by decide) hbenign hrun (of_decide_eq_true hpc)⟩

/-- The erase fails, its negative answer is cleaned out of the queue, the page is written over
the old content, and the upload succeeds with a byte in the flash that is not the image's. -/
theorem upload_unsafe :
    ∃ s, run (bleUploadStep idleEnv) (BleSystem.init [0xAA] Ota.staleLoader)
        (wholeUpload [.error 0]) = some s ∧
      s.script.pc = .success ∧ read s.mem flashStartAddress 1 ≠ [0xAA] := by
  have hends : ((run (bleUploadStep idleEnv) (BleSystem.init [0xAA] Ota.staleLoader)
      (wholeUpload [.error 0])).map fun s =>
        (decide (s.script.pc = .success), s.mem flashStartAddress)) = some (true, 0) := by
    decide +kernel
  obtain ⟨s, hrun, hs⟩ := Option.map_eq_some_iff.1 hends
  obtain ⟨hpc, hbyte⟩ := Prod.mk.inj hs
  refine ⟨s, hrun, of_decide_eq_true hpc, fun h => ?_⟩
  have hat : s.mem flashStartAddress = 0xAA := (List.cons.inj h).1
  rw [hbyte] at hat
  exact absurd hat (by decide)

end Upload
