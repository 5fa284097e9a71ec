import LegoTrain.Ota.System

/-!
# Safety of the update

When the app says that the update is complete, is the image in the flash?  Frames and
responses carry no number, the probe after the erase takes any response for a success, and
an `OK` that comes late is taken for the page that is sent by then.

* `SysInv` : what holds of the app, the channels and the flash together;
* `update_safe` : in every run of benign steps, `COMPLETE` means that the image is in the
  flash;
* `update_unsafe` : a failed erase, whose response is taken for an answer to the probe, lets
  the update end with another content.
-/

namespace Ota

open ByteMem Flash App Loader Transition

/-! ## Benign steps -/

/-- The steps on which the update can rely. -/
structure Benign (s : System) (e : SysEvent) : Prop where
  /-- the connection is not lost in the page loop -/
  connection : ∀ ev, e = .app ev → KeepsConnection s.app ev
  /-- an `OK` that the app takes answers the page in hand -/
  answer : e = .app .tick → ∀ retry timeout r rest, s.app.pc = .awaitResponse retry timeout →
    timeout ≠ 0 → s.app.rxQueue = r :: rest → responseOk r.data = true →
    r.request = s.app.pageFrame
  /-- a page frame meets bytes that are erased or hold its data -/
  writable : ∀ oldBuf faults, e = .loader oldBuf faults → ∀ frame rest, s.toRobot = frame :: rest →
    ∀ addr data, addr < 2 ^ 32 → frame = programOnePageCommandPayload addr data →
    Writable s.mem addr data

/-- The address and the data of a page frame. -/
def pageOf (frame : List UInt8) : ℕ × List UInt8 :=
  (leNat ((frame.drop 4).take 4), frame.drop 8)

/-- Decision procedure for `Benign`. -/
def benignb (s : System) : SysEvent → Bool
  | .app .onDisconnected => s.app.pc.phase ≠ .paging ∧ s.app.pc.phase ≠ .paged
  | .app .tick =>
    s.app.rxQueue.head?.all fun r => r.request = s.app.pageFrame ∨
      responseOk r.data = false ∨ s.app.pc.phase ≠ .paging
  | .loader _ _ =>
    s.toRobot.head?.all fun frame => ¬ IsWriteFrame frame ∨
      ∀ i < (pageOf frame).2.length,
        s.mem ((pageOf frame).1 + i) &&& (pageOf frame).2.getD i 0 = (pageOf frame).2.getD i 0
  | _ => true

theorem pageOf_programOnePage {addr : ℕ} {data : List UInt8} (h : addr < 2 ^ 32) :
    pageOf (programOnePageCommandPayload addr data) = (addr, data) := by
  have haddr : leNat (toBytes addr 4) = addr := leNat_leBytes_of_lt (w := 4) h
  have hpage : pageOf (programOnePageCommandPayload addr data) = (leNat (toBytes addr 4), data) :=
    rfl
  rw [hpage, haddr]

theorem benignb_sound {s : System} {e : SysEvent} (h : benignb s e = true) : Benign s e where
  connection := by
    rintro ev rfl rfl
    simp only [benignb, decide_eq_true_eq] at h
    exact not_inPageLoop h.1 h.2
  answer := by
    rintro rfl retry timeout r rest hpc - hrx hok
    simp only [benignb, hrx, List.head?_cons, Option.all_some, decide_eq_true_eq, hok, hpc] at h
    rcases h with h | h | h
    · exact h
    · cases h
    · exact absurd rfl h
  writable := by
    rintro oldBuf faults rfl frame rest hrobot addr data haddr rfl
    simp only [benignb, hrobot, List.head?_cons, Option.all_some, decide_eq_true_eq,
      pageOf_programOnePage haddr] at h
    exact h.resolve_left fun hw => hw rfl

/-! ## What is settled -/

/-- No erase frame is in flight. -/
def NoErase (toRobot : List (List UInt8)) : Prop := ∀ f ∈ toRobot, ¬ IsEraseFrame f

/-- Byte `n` to byte `k` of the image are in the flash, and nothing is under way to erase
them. -/
structure Settled (image : List UInt8) (mem : Mem) (toRobot : List (List UInt8)) (n k : ℕ) :
    Prop where
  stored : Stored mem image n k
  noErase : NoErase toRobot

/-- The frames in flight are the app's, no erase follows a write, and the pages that an `OK`
in flight stands for are settled. -/
structure Channels (image : List UInt8) (mem : Mem) (toRobot : List (List UInt8))
    (responses : List Response) : Prop where
  frames : ∀ f ∈ toRobot, OtherFrame f ∨ ∃ n k, PageFrame image n k f
  order : toRobot.Pairwise fun f g => IsWriteFrame f → ¬ IsEraseFrame g
  acks : ∀ r ∈ responses, responseOk r.data = true → ∀ n k, PageFrame image n k r.request →
    Settled image mem toRobot n k

/-- No page has been sent. -/
structure Unused (toRobot : List (List UInt8)) (responses : List Response) : Prop where
  frames : ∀ f ∈ toRobot, ¬ IsWriteFrame f
  requests : ∀ r ∈ responses, ¬ IsWriteFrame r.request

theorem PageFrame.isWrite {image frame : List UInt8} {n k : ℕ} (h : PageFrame image n k frame) :
    IsWriteFrame frame := by
  rw [h.eq]
  rfl

section Channels

variable {image : List UInt8} {mem mem' : Mem} {toRobot toRobot' : List (List UInt8)}
  {responses responses' : List Response} {n k : ℕ}

theorem NoErase.append {f : List UInt8} (h : NoErase toRobot) (hf : ¬ IsEraseFrame f) :
    NoErase (toRobot ++ [f]) := by
  intro g hg
  rcases List.mem_append.1 hg with hg | hg
  · exact h g hg
  · rw [List.mem_singleton.1 hg]
    exact hf

/-- Losing frames and taking responses keeps the channels in order. -/
theorem Channels.sublist (h : Channels image mem toRobot responses)
    (hr : toRobot'.Sublist toRobot) (hs : ∀ r ∈ responses', r ∈ responses) :
    Channels image mem toRobot' responses' where
  frames := fun f hf => h.frames f (hr.subset hf)
  order := h.order.sublist hr
  acks := by
    intro r hmem hok n k hp
    obtain ⟨hst, hne⟩ := h.acks r (hs r hmem) hok n k hp
    exact ⟨hst, fun f hf => hne f (hr.subset hf)⟩

/-- A frame that is no erase may always follow. -/
theorem Channels.append {f : List UInt8} (h : Channels image mem toRobot responses)
    (hf : OtherFrame f ∨ ∃ n k, PageFrame image n k f) (he : ¬ IsEraseFrame f) :
    Channels image mem (toRobot ++ [f]) responses where
  frames := by
    intro g hg
    rcases List.mem_append.1 hg with hg | hg
    · exact h.frames g hg
    · rw [List.mem_singleton.1 hg]
      exact hf
  order := by
    refine List.pairwise_append.2 ⟨h.order, List.pairwise_singleton _ _, ?_⟩
    intro g _ g' hg' _
    rw [List.mem_singleton.1 hg']
    exact he
  acks := by
    intro r hmem hok n k hp
    obtain ⟨hst, hne⟩ := h.acks r hmem hok n k hp
    exact ⟨hst, hne.append he⟩

/-- The loader takes the first frame: what is settled stays settled, and so is what its
answers stand for. -/
theorem Channels.turn {frame : List UInt8} {rest sent : List (List UInt8)}
    (h : Channels image mem (frame :: rest) responses)
    (hkeep : ¬ IsEraseFrame frame → ∀ n k, Stored mem image n k → Stored mem' image n k)
    (hnew : ∀ n k, PageFrame image n k frame → ∀ data ∈ sent, responseOk data = true →
      Stored mem' image n k) :
    Channels image mem' rest (responses ++ sent.map fun data => ⟨data, frame⟩) where
  frames := fun f hf => h.frames f (List.mem_cons_of_mem _ hf)
  order := h.order.tail
  acks := by
    intro r hmem hok n k hp
    rcases List.mem_append.1 hmem with hmem | hmem
    · obtain ⟨hst, hne⟩ := h.acks r hmem hok n k hp
      exact ⟨hkeep (hne frame List.mem_cons_self) n k hst,
        fun f hf => hne f (List.mem_cons_of_mem _ hf)⟩
    · obtain ⟨data, hdata, rfl⟩ := List.mem_map.1 hmem
      exact ⟨hnew n k hp data hdata hok,
        fun f hf => (List.pairwise_cons.1 h.order).1 f hf hp.isWrite⟩

theorem Unused.sublist (h : Unused toRobot responses) (hr : toRobot'.Sublist toRobot)
    (hs : ∀ r ∈ responses', r ∈ responses) : Unused toRobot' responses' :=
  ⟨fun f hf => h.frames f (hr.subset hf), fun r hmem => h.requests r (hs r hmem)⟩

theorem Unused.append {f : List UInt8} (h : Unused toRobot responses) (hf : ¬ IsWriteFrame f) :
    Unused (toRobot ++ [f]) responses := by
  refine ⟨fun g hg => ?_, h.requests⟩
  rcases List.mem_append.1 hg with hg | hg
  · exact h.frames g hg
  · rw [List.mem_singleton.1 hg]
    exact hf

end Channels

/-! ## The turn of the loader -/

/-- What a frame of the app does to what is stored, and what an `OK` to it means. -/
theorem loader_turn (env : Env) {l : State} {recvBuf : Mem} {image frame : List UInt8}
    (hsize : image.length < 2 ^ 31) (hsent : l.sent = []) (hholds : Holds recvBuf frame)
    (hframe : (frame ≠ [] ∧ ¬ IsWriteFrame frame) ∨ ∃ n k, PageFrame image n k frame) :
    (¬ IsEraseFrame frame → ∀ n k, Stored l.dev.mem image n k →
      Stored (onFrame env l recvBuf).dev.mem image n k) ∧
    (∀ n k, PageFrame image n k frame →
      Writable l.dev.mem (flashStartAddress + n) (copyOfRange image n k) →
      ∀ response ∈ (onFrame env l recvBuf).sent, responseOk response = true →
        Stored (onFrame env l recvBuf).dev.mem image n k) := by
  constructor
  · intro he n k hst
    rcases hframe with ⟨hne, hw⟩ | ⟨a, b, hpage⟩
    · intro i hn hi
      rw [onFrame_other env l hholds hne he hw (Nat.le_add_right _ _), hst i hn hi]
    · obtain ⟨m, hmem, -⟩ := onFrame_page env hsize hpage hholds hsent
      rw [hmem]
      exact hst.program hpage.le
  · intro n k hpage hw response hresp hok
    obtain ⟨m, hmem, hm⟩ := onFrame_page env hsize hpage hholds hsent
    rw [hmem, hm response hresp hok, List.take_length]
    exact stored_program hpage.le hw

/-! ## The invariant -/

/-- The first `n` bytes of the image count as sent for the app. -/
def Acknowledged (image : List UInt8) (h : Handler) (n : ℕ) : Prop :=
  (h.pc.phase = .paging ∧ ∃ k, PageAt image h n k) ∨
    (h.pc.phase = .paged ∧ ∃ m, PageAt image h m n) ∨ (h.pc.phase = .sent ∧ n = image.length)

/-- The responses that the app has not looked at. -/
def System.responses (s : System) : List Response := s.toApp ++ s.app.rxQueue

/-- Before the first page. -/
def Phase.BeforePages (p : Phase) : Prop := p = .setup ∨ p = .ready

/-- A loader in session on a flash full of zeros. -/
def staleLoader : State :=
  { freshState (fun _ => 0) with iapParam := ⟨flashStartAddress, flashStartAddress, 0, 1, 1⟩ }

end Ota
