import LegoTrain.App.UpdateHandler

/-!
# What a step of the update handler can do

The steps of the handler, sorted by what they do to the address counter, to the cursor of
the firmware and to the page in hand.  Everything that is proved about runs of the handler
goes through these lemmas.

* `Pc.phase` : the stages of an update;
* `step_move` : the moves between them;
* `step_says` : what a step says to the robot.
-/

namespace App

/-- The stages of an update. -/
inductive Phase
  /-- before the page loop -/
  | setup
  /-- the cursor has been reset, no page is loaded -/
  | ready
  /-- a page is loaded and not acknowledged -/
  | paging
  /-- the loaded page is acknowledged -/
  | paged
  /-- all pages are acknowledged -/
  | sent
  | failed
  deriving DecidableEq, Repr

/-- The stage that a call site of `verifyInBootloaderMode` belongs to. -/
def CallSite.phase : CallSite → Phase
  | .reconnecting _ _ => .paging
  | _ => .setup

def Pc.phase : Pc → Phase
  | .verifyClear site => site.phase
  | .verifyWrite site => site.phase
  | .verifyWait site _ => site.phase
  | .firstChunk => .ready
  | .sendClear _ => .paging
  | .sendPacket _ _ => .paging
  | .awaitResponse _ _ => .paging
  | .notOk _ => .paging
  | .pageConnect _ _ => .paging
  | .nextChunk => .paged
  | .systemReset => .sent
  | .complete => .sent
  | .failure => .failed
  | _ => .setup

/-- The page loop. -/
def Phase.InPageLoop (p : Phase) : Prop := p = .paging ∨ p = .paged

/-- The connection is not lost while the page loop runs. -/
def KeepsConnection (h : Handler) (e : Event) : Prop :=
  e = .onDisconnected → ¬ h.pc.phase.InPageLoop

/-- The moves of the handler. -/
inductive Move (h : Handler) (e : Event) (h' : Handler) : Prop
  /-- the stage stays, or the update is given up -/
  | stay (hphase : h'.pc.phase = h.pc.phase ∨ h'.pc.phase = .failed)
      (haddr : h'.progAddr = h.progAddr) (hchunk : h'.firmwareChunk = h.firmwareChunk)
      (hdata : h'.firmwareData = h.firmwareData ∨
        h'.firmwareData = h.firmwareData.reset ∧ ¬ h.pc.phase.InPageLoop)
  /-- the cursor is reset for the page loop -/
  | reset (hphase : h.pc.phase = .setup) (hphase' : h'.pc.phase = .ready)
      (hdata : h'.firmwareData = h.firmwareData.reset)
  /-- the first page is loaded -/
  | first (hphase : h.pc.phase = .ready)
      (heq : h' = loadChunk { h with progAddr := flashStartAddress })
  /-- a response acknowledges the page -/
  | ok (r : Response) (rest : List Response) (retry timeout : ℕ) (he : e = .tick)
      (hpc : h.pc = .awaitResponse retry timeout) (htime : timeout ≠ 0)
      (hrx : h.rxQueue = r :: rest) (hok : responseOk r.data = true)
      (heq : h' = { h with pc := .nextChunk, rxQueue := rest })
  /-- the next page is loaded -/
  | next (hphase : h.pc.phase = .paged)
      (heq : h' = loadChunk { h with progAddr := h.progAddr + h.firmwareChunk.length })

/-! ## The parts of a step -/

theorem retryPage_phase (retry : ℕ) :
    (retryPage retry).phase = .paging ∨ (retryPage retry).phase = .failed := by
  unfold retryPage
  split
  · exact .inr rfl
  · exact .inl rfl

theorem verified_phase (site : CallSite) (ok : Bool) :
    (verified site ok).phase = site.phase ∨ (verified site ok).phase = .failed := by
  cases site with
  | connected => cases ok <;> exact .inl rfl
  | beforeErase => cases ok; exacts [.inr rfl, .inl rfl]
  | afterErase retry =>
    left
    unfold verified
    cases ok
    · simp only [Bool.false_eq_true, if_false]
      split <;> rfl
    · rfl
  | beforePages => cases ok; exacts [.inr rfl, .inl rfl]
  | reconnecting retry retryConnect =>
    unfold verified
    cases ok
    · simp only [Bool.false_eq_true, if_false]
      split
      · exact .inr rfl
      · exact .inl rfl
    · exact retryPage_phase retry

theorem cancelResponseJob_phase (pc : Pc) : (cancelResponseJob pc).phase = pc.phase := by
  unfold cancelResponseJob
  split <;> rfl

section Emit

variable (h : Handler) (w : Written) (frame : List UInt8)

@[simp] theorem emit_progAddr : (emit h w frame).progAddr = h.progAddr := by
  unfold emit
  split <;> rfl

@[simp] theorem emit_firmwareChunk : (emit h w frame).firmwareChunk = h.firmwareChunk := by
  unfold emit
  split <;> rfl

@[simp] theorem emit_firmwareData : (emit h w frame).firmwareData = h.firmwareData := by
  unfold emit
  split <;> rfl

@[simp] theorem emit_rxQueue : (emit h w frame).rxQueue = h.rxQueue := by
  unfold emit
  split <;> rfl

theorem emit_emitted : (emit h w frame).emitted = h.emitted ∨
    (emit h w frame).emitted = h.emitted ++ [frame] := by
  unfold emit
  split
  · exact .inl rfl
  · exact .inr rfl

end Emit

variable {h h' : Handler}

theorem proceed_move (hs : proceed h = some h') : Move h .proceed h' := by
  unfold proceed at hs
  split at hs
  · rename_i hpc
    cases hs
    exact .stay (.inl (by rw [hpc]; rfl)) rfl rfl (.inl rfl)
  · rename_i site hpc
    cases hs
    exact .stay (.inl (by rw [hpc]; rfl)) rfl rfl (.inl rfl)
  · rename_i hpc
    cases hs
    exact .stay (.inl (by rw [hpc]; rfl)) rfl rfl (.inl rfl)
  · rename_i hpc
    cases hs
    exact .reset (by rw [hpc]; rfl) rfl rfl
  · rename_i hpc
    cases hs
    exact .first (by rw [hpc]; rfl) rfl
  · rename_i retry hpc
    cases hs
    exact .stay (.inl (by rw [hpc]; rfl)) rfl rfl (.inl rfl)
  · rename_i retry datapkg hpc
    split at hs
    · cases hs
      exact .stay (.inl (by rw [hpc]; rfl)) rfl rfl (.inl rfl)
    · cases hs
      exact .stay (.inl (by rw [hpc]; rfl)) rfl rfl (.inl rfl)
    · cases hs
  · rename_i hpc
    cases hs
    exact .next (by rw [hpc]; rfl) rfl
  · cases hs

theorem writePacket_eq {w : Written} {retry : ℕ} {datapkg : RobotData}
    (hs : writePacket h w retry datapkg = some h') :
    ∃ c, datapkg.getNextChunk = some c ∧ h.rxQueue = [] ∧
      h' = { (if datapkg.bytesProcessed = 0 then emit h w h.pageFrame else h) with
        pc := if w = .confirmed then .sendPacket retry c.2 else .notOk retry } := by
  unfold writePacket at hs
  split at hs
  · rename_i c hc hrx
    exact ⟨c, hc, hrx, (Option.some.inj hs).symm⟩
  · cases hs

theorem written_move {w : Written} (hs : written h w = some h') : Move h (.written w) h' := by
  unfold written at hs
  split at hs
  · rename_i site hpc
    cases hs
    refine .stay ?_ (by simp) (by simp) (.inl (by simp))
    simp only [hpc]
    split
    · exact .inl rfl
    · exact verified_phase site false
  · rename_i hpc
    cases hs
    refine .stay ?_ rfl rfl (.inl rfl)
    simp only [hpc]
    split
    · exact .inl rfl
    · exact .inr rfl
  · rename_i hpc
    cases hs
    refine .stay ?_ (by simp) (by simp) (.inl (by simp))
    simp only [hpc]
    split
    · exact .inl rfl
    · exact .inr rfl
  · rename_i retry datapkg hpc
    obtain ⟨c, -, -, rfl⟩ := writePacket_eq hs
    have hkeep : ∀ h0 : Handler, h0.progAddr = h.progAddr → h0.firmwareChunk = h.firmwareChunk →
        h0.firmwareData = h.firmwareData →
        Move h (.written w) { h0 with
          pc := if w = .confirmed then .sendPacket retry c.2 else .notOk retry } := by
      intro h0 haddr hchunk hdata
      refine .stay (.inl ?_) haddr hchunk (.inl hdata)
      simp only [hpc]
      split <;> rfl
    split
    · exact hkeep _ (by simp) (by simp) (by simp)
    · exact hkeep _ rfl rfl rfl
  · rename_i hpc
    cases hs
    exact .stay (.inl (by simp only [hpc]; rfl)) (by simp) (by simp) (.inl (by simp))
  · cases hs

theorem tick_move (hs : tick h = some h') : Move h .tick h' := by
  unfold tick at hs
  split at hs
  · rename_i site timeout hpc
    split at hs
    · cases hs
      exact .stay (.inl (by rw [hpc]; rfl)) rfl rfl (.inl rfl)
    · cases hs
      refine .stay ?_ rfl rfl (.inl rfl)
      rw [hpc]
      exact verified_phase site _
  · rename_i retry timeout hpc
    split at hs
    · cases hs
      exact .stay (.inl (by rw [hpc]; rfl)) rfl rfl (.inl rfl)
    split at hs
    · cases hs
      exact .stay (.inl (by rw [hpc]; rfl)) rfl rfl (.inl rfl)
    rename_i htime
    split at hs
    · rename_i r rest hrx
      by_cases hok : responseOk r.data = true
      · rw [if_pos hok] at hs
        exact .ok r rest retry timeout rfl hpc htime hrx hok (Option.some.inj hs).symm
      · rw [if_neg hok] at hs
        cases hs
        exact .stay (.inl (by rw [hpc]; rfl)) rfl rfl (.inl rfl)
    · cases hs
  · cases hs

theorem connection_move {ok : Bool} (hs : connection h ok = some h') :
    Move h (.connection ok) h' := by
  unfold connection at hs
  split at hs
  · rename_i hpc
    cases hs
    refine .stay ?_ rfl rfl (.inr ⟨rfl, ?_⟩)
    · rw [hpc]
      cases ok
      · exact .inr rfl
      · exact .inl rfl
    · rw [hpc]
      rintro (hp | hp) <;> cases hp
  · rename_i retry hpc
    cases hs
    refine .stay (.inl ?_) rfl rfl (.inl rfl)
    rw [hpc]
    cases ok <;> rfl
  · rename_i retry retryConnect hpc
    cases hs
    refine .stay ?_ rfl rfl (.inl rfl)
    rw [hpc]
    cases ok
    · exact .inl rfl
    · exact retryPage_phase retry
  · cases hs

theorem isConnected_move {b : Bool} (hs : isConnected h b = some h') :
    Move h (.isConnected b) h' := by
  unfold isConnected at hs
  split at hs
  · rename_i retry hpc
    cases hs
    refine .stay ?_ rfl rfl (.inl rfl)
    rw [hpc]
    cases b
    · exact .inl rfl
    · exact retryPage_phase retry
  · cases hs

/-- **The moves.**  Every step that does not cut the connection in the page loop is one of
the moves. -/
theorem step_move {e : Event} (hconn : KeepsConnection h e) (hs : step h e = some h') :
    Move h e h' := by
  cases e with
  | proceed => exact proceed_move hs
  | written w => exact written_move hs
  | tick => exact tick_move hs
  | connection ok => exact connection_move hs
  | isConnected b => exact isConnected_move hs
  | onResponse r =>
    cases hs
    exact .stay (.inl rfl) rfl rfl (.inl rfl)
  | onDisconnected =>
    cases hs
    exact .stay (.inl (cancelResponseJob_phase h.pc)) rfl rfl (.inr ⟨rfl, hconn rfl⟩)

/-! ## What a step says -/

@[simp] theorem loadChunk_emitted (h : Handler) : (loadChunk h).emitted = h.emitted := by
  unfold loadChunk
  split <;> rfl

@[simp] theorem loadChunk_rxQueue (h : Handler) : (loadChunk h).rxQueue = h.rxQueue := by
  unfold loadChunk
  split <;> rfl

/-- The frames other than those of the pages. -/
def OtherFrame (frame : List UInt8) : Prop :=
  frame = readJedecCommandPayload ∨ (∃ size, frame = eraseFlashCommandPayload size) ∨
    frame = systemResetCommandPayload

/-- What `h'` has said is what `h` has said, and possibly one frame more. -/
def Says (h h' : Handler) : Prop :=
  h'.emitted = h.emitted ∨ ∃ frame, h'.emitted = h.emitted ++ [frame] ∧
    (OtherFrame frame ∨ frame = h.pageFrame ∧ h.pc.phase = .paging)

theorem Says.emit {w : Written} {frame : List UInt8}
    (hf : OtherFrame frame ∨ frame = h.pageFrame ∧ h.pc.phase = .paging)
    (heq : h'.emitted = (emit h w frame).emitted) : Says h h' := by
  rcases emit_emitted h w frame with he | he
  · exact .inl (heq.trans he)
  · exact .inr ⟨frame, heq.trans he, hf⟩

theorem proceed_says (hs : proceed h = some h') : Says h h' := by
  left
  unfold proceed at hs
  repeat' split at hs
  all_goals cases hs
  all_goals simp

theorem written_says {w : Written} (hs : written h w = some h') : Says h h' := by
  unfold written at hs
  split at hs
  · cases hs
    exact .emit (.inl (.inl rfl)) rfl
  · cases hs
    exact .inl rfl
  · cases hs
    exact .emit (.inl (.inr (.inl ⟨_, rfl⟩))) rfl
  · rename_i retry datapkg hpc
    obtain ⟨c, -, -, rfl⟩ := writePacket_eq hs
    split
    · exact .emit (.inr ⟨rfl, by rw [hpc]; rfl⟩) rfl
    · exact .inl rfl
  · cases hs
    exact .emit (.inl (.inr (.inr rfl))) rfl
  · cases hs

theorem tick_says (hs : tick h = some h') : Says h h' := by
  left
  unfold tick at hs
  repeat' split at hs
  all_goals cases hs
  all_goals rfl

theorem connection_says {ok : Bool} (hs : connection h ok = some h') : Says h h' := by
  left
  unfold connection at hs
  repeat' split at hs
  all_goals cases hs
  all_goals rfl

theorem isConnected_says {b : Bool} (hs : isConnected h b = some h') : Says h h' := by
  left
  unfold isConnected at hs
  split at hs
  all_goals cases hs
  rfl

theorem step_says {e : Event} (hs : step h e = some h') : Says h h' := by
  cases e with
  | proceed => exact proceed_says hs
  | written w => exact written_says hs
  | tick => exact tick_says hs
  | connection ok => exact connection_says hs
  | isConnected b => exact isConnected_says hs
  | onResponse r =>
    cases hs
    exact .inl rfl
  | onDisconnected =>
    cases hs
    exact .inl rfl

end App
