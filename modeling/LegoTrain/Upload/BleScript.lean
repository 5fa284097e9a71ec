import LegoTrain.App.UpdateHandler
import LegoTrain.Loader.BleDelivery
import LegoTrain.Upload.Script

/-!
# The Bluetooth side of the upgrade script

`ble_process` of `upgrade_firmware.py` from the transaction loop on, as a transition function:
the erase, whose answer is not read, the page loop with its retries, the reset, and the
transactions, each of which starts again from the erase.

* `Script.go` : the script up to its next `await`;
* `Script.raise` and `Script.notify` : an exception in an `await`, and a notification;
* `ScriptInv` : the page in hand and the frame that is being written belong to the image.
-/

namespace Upload

open ByteMem Firmware

/-- `FLASH_PAGE_SIZE` of `ble_process`. -/
def blePageSize : ℕ := 2048

/-- The bytes of one `write_gatt_char`. -/
def chunkSize : ℕ := 240

/-- A frame as the script writes it.  The number of the transaction is not on the wire. -/
structure Sent where
  transaction : ℕ
  frame : List UInt8
  deriving DecidableEq, Repr

/-- A notification, and the frame that it answers.  The frame is not on the wire. -/
structure Response where
  data : List UInt8
  request : Option Sent
  deriving DecidableEq, Repr

/-- The function that has called `write_data`. -/
inductive Caller
  | erase
  | page (retry : ℕ)
  | reset
  deriving DecidableEq, Repr

/-- Where the script is. -/
inductive Pc
  /-- the first `async with BleakClient` of a transaction -/
  | eraseConnect
  /-- `clean_queue` of `erase_flash_ble` -/
  | eraseClean
  /-- `write_data`, with what is left of `send_data` -/
  | writing (caller : Caller) (frame sendData : List UInt8)
  /-- the erase has been sent -/
  | eraseSleep
  /-- the second `async with BleakClient` -/
  | programConnect
  /-- `while len(program_data) > 0` -/
  | nextPage
  /-- `clean_queue` of `program_one_page_ble` -/
  | pageClean (retry : ℕ)
  /-- the loop of `get_response_ble` -/
  | awaitResponse (retry timeout : ℕ)
  /-- `is_success = True` -/
  | success
  /-- ten transactions have failed -/
  | failed
  /-- `rx_queue.put` waits for room, and nothing makes room any more -/
  | hung
  deriving DecidableEq, Repr

/-- The variables of the script. -/
structure Script where
  pc : Pc
  fwData : List UInt8
  /-- `retry` of the transaction loop -/
  transaction : ℕ
  /-- `write_handle` and `read_handle` have been found -/
  handles : Bool
  /-- `rx_queue`, which has room for one -/
  rxQueue : Option Response
  programData : List UInt8
  startAddr : ℕ
  deriving DecidableEq, Repr

namespace Script

/-- The start of the transaction loop. -/
def start (fwData : List UInt8) : Script where
  pc := .eraseConnect
  fwData := fwData
  transaction := 0
  handles := false
  rxQueue := none
  programData := []
  startAddr := flashStartAddress

/-- The transaction has failed. -/
def nextTransaction (s : Script) : Script :=
  if s.transaction + 1 < 10 then { s with pc := .eraseConnect, transaction := s.transaction + 1 }
  else { s with pc := .failed }

/-- The exception of an `await` ends the transaction. -/
def raise (s : Script) : Option Script :=
  if s.pc = .success ∨ s.pc = .failed ∨ s.pc = .hung then none else some s.nextTransaction

/-- An attempt to program a page has failed; with the last one the transaction has. -/
def attemptFailed (s : Script) (retry : ℕ) : Script :=
  if retry - 1 = 0 then s.nextTransaction else { s with pc := .pageClean (retry - 1) }

/-- What the callers make of the result of `write_data`: two of them ignore it. -/
def writeReturns (s : Script) (ok : Bool) : Caller → Script
  | .erase => { s with pc := .eraseSleep }
  | .page retry => if ok then { s with pc := .awaitResponse retry 5 } else s.attemptFailed retry
  | .reset => { s with pc := .success }

/-- The page in hand. -/
def page (s : Script) : List UInt8 := s.programData.take blePageSize

/-- The frame that a caller builds for `write_data`. -/
def command (s : Script) : Caller → Option (List UInt8)
  | .erase => eraseFlash s.fwData.length
  | .page _ => programOnePageBle s.startAddr s.page
  | .reset => systemResetCommand

/-- `write_data` starts; an exception while the frame is built ends the transaction. -/
def startWrite (s : Script) (caller : Caller) : Script :=
  match s.command caller with
  | some frame => { s with pc := .writing caller frame (Loader.wire frame) }
  | none => s.nextTransaction

/-- `clean_queue`. -/
def cleanQueue (s : Script) : Script := { s with rxQueue := none }

/-- The test of `get_response_ble`. -/
def responseOk (response : List UInt8) : Bool :=
  response.length = 2 ∧ response.head? = some 0x4F

/-- The page in hand has been acknowledged. -/
def pageDone (s : Script) : Script :=
  { s with
    programData := s.programData.drop blePageSize
    startAddr := s.startAddr + blePageSize
    pc := .nextPage }

/-- The script goes on; the second component is what it writes. -/
def go (s : Script) : Option (Script × Option (List UInt8)) :=
  match s.pc with
  | .eraseClean => some (s.cleanQueue.startWrite .erase, none)
  | .writing caller _ [] => some (s.writeReturns true caller, none)
  | .writing caller frame (b :: sendData) =>
    if s.rxQueue.isSome then some (s.writeReturns false caller, none)
    else some ({ s with pc := .writing caller frame ((b :: sendData).drop chunkSize) },
      some ((b :: sendData).take chunkSize))
  | .eraseSleep => some ({ s with pc := .programConnect }, none)
  | .nextPage =>
    if s.programData = [] then
      -- without a page, `ret` is not bound
      if s.fwData = [] then some (s.nextTransaction, none) else some (s.startWrite .reset, none)
    else some ({ s with pc := .pageClean 3 }, none)
  | .pageClean retry => some (s.cleanQueue.startWrite (.page retry), none)
  | .awaitResponse retry timeout =>
    match s.rxQueue with
    | none =>
      if timeout - 1 = 0 then some (s.attemptFailed retry, none)
      else some ({ s with pc := .awaitResponse retry (timeout - 1) }, none)
    | some r =>
      if responseOk r.data then some (s.cleanQueue.pageDone, none)
      else some (s.cleanQueue.attemptFailed retry, none)
  | _ => none

/-- A connection is there; `found` says whether the services have the characteristics. -/
def connected (s : Script) (found : Bool) : Option Script :=
  match s.pc with
  | .eraseConnect =>
    some { s with
      handles := s.handles || found, pc := if s.handles || found then .eraseClean else .eraseSleep }
  | .programConnect =>
    if s.handles then
      some { s with pc := .nextPage, programData := s.fwData, startAddr := flashStartAddress }
    else some s.nextTransaction
  | _ => none

/-- `notification_handler`. -/
def notify (s : Script) (r : Response) : Script :=
  if s.pc = .success ∨ s.pc = .failed then s
  else if s.rxQueue.isSome then { s with pc := .hung }
  else { s with rxQueue := some r }

end Script

/-! ## The stages of a transaction -/

/-- Before the first page. -/
def Pc.BeforePages : Pc → Prop
  | .eraseConnect | .eraseClean | .writing .erase _ _ | .eraseSleep | .programConnect => True
  | _ => False

/-- From the page loop on. -/
def Pc.InPages : Pc → Prop
  | .nextPage | .pageClean _ | .writing (.page _) _ _ | .awaitResponse _ _ | .writing .reset _ _
  | .success => True
  | _ => False

/-- In `program_one_page_ble`. -/
def Pc.OnPage : Pc → Prop
  | .pageClean _ | .writing (.page _) _ _ | .awaitResponse _ _ => True
  | _ => False

/-- Behind the page loop. -/
def Pc.AfterPages : Pc → Prop
  | .writing .reset _ _ | .success => True
  | _ => False

theorem Pc.BeforePages.outside {pc : Pc} (h : pc.BeforePages) :
    ¬ pc.InPages ∧ ¬ pc.OnPage ∧ ¬ pc.AfterPages := by
  cases pc with
  | writing caller frame sendData =>
    cases caller with
    | erase => exact ⟨id, id, id⟩
    | page retry => exact h.elim
    | reset => exact h.elim
  | eraseConnect => exact ⟨id, id, id⟩
  | eraseClean => exact ⟨id, id, id⟩
  | eraseSleep => exact ⟨id, id, id⟩
  | programConnect => exact ⟨id, id, id⟩
  | _ => exact h.elim

theorem Pc.OnPage.inPages {pc : Pc} (h : pc.OnPage) : pc.InPages := by
  cases pc with
  | writing caller frame sendData =>
    cases caller with
    | erase => exact h.elim
    | page retry => trivial
    | reset => exact h.elim
  | pageClean retry => trivial
  | awaitResponse retry timeout => trivial
  | _ => exact h.elim

/-- What a step of the script does: nothing to the pages, or it leaves the page loop, or enters
it, or takes an `OK` for the answer to the page in hand. -/
inductive Move (s s' : Script) : Prop
  | stay (hin : s.pc.InPages) (hin' : s'.pc.InPages) (hpages : s'.programData = s.programData)
      (haddr : s'.startAddr = s.startAddr) (htransaction : s'.transaction = s.transaction)
  | leave (hout : ¬ s'.pc.InPages) (hbefore : s'.pc.BeforePages → s.pc.BeforePages ∧
      s'.transaction = s.transaction ∨ s.transaction < s'.transaction)
      (htransaction : s.transaction ≤ s'.transaction)
  | enter (hbefore : s.pc.BeforePages) (hin' : s'.pc.InPages) (hpages : s'.programData = s'.fwData)
      (haddr : s'.startAddr = flashStartAddress) (htransaction : s'.transaction = s.transaction)
  | ok (retry timeout : ℕ) (r : Response) (hpc : s.pc = .awaitResponse retry timeout)
      (hqueue : s.rxQueue = some r) (hok : Script.responseOk r.data = true)
      (heq : s' = s.cleanQueue.pageDone)

/-- The page in hand and the frame that is being written belong to the image. -/
structure ScriptInv (image : List UInt8) (s : Script) : Prop where
  data : s.fwData = image
  paging : s.pc.InPages → ∃ n, s.startAddr = flashStartAddress + n ∧ s.programData = image.drop n
  onPage : s.pc.OnPage → s.programData ≠ []
  afterPages : s.pc.AfterPages → s.programData = []
  frame : ∀ caller frame sendData, s.pc = .writing caller frame sendData →
    s.command caller = some frame

theorem scriptInv_start (image : List UInt8) : ScriptInv image (Script.start image) where
  data := rfl
  paging := nofun
  onPage := nofun
  afterPages := nofun
  frame := nofun

section Steps

variable {image : List UInt8} {s s' : Script}

/-- A transaction that has failed. -/
theorem nextTransaction_cases (s : Script) :
    (s.nextTransaction.pc = .eraseConnect ∧ s.nextTransaction.transaction = s.transaction + 1) ∨
      (s.nextTransaction.pc = .failed ∧ s.nextTransaction.transaction = s.transaction) := by
  unfold Script.nextTransaction
  split
  · exact .inl ⟨rfl, rfl⟩
  · exact .inr ⟨rfl, rfl⟩

theorem move_nextTransaction {t : Script} (h : t.transaction = s.transaction) :
    Move s t.nextTransaction := by
  rcases nextTransaction_cases t with ⟨hpc, ht⟩ | ⟨hpc, ht⟩
  · refine .leave ?_ (fun _ => .inr ?_) ?_
    · rw [hpc]
      exact id
    · omega
    · omega
  · refine .leave ?_ ?_ ?_
    · rw [hpc]
      exact id
    · intro hb
      rw [hpc] at hb
      exact hb.elim
    · omega

theorem scriptInv_nextTransaction {t : Script} (h : t.fwData = image) :
    ScriptInv image t.nextTransaction := by
  have hdata : t.nextTransaction.fwData = image := by
    unfold Script.nextTransaction
    split
    · exact h
    · exact h
  rcases nextTransaction_cases t with ⟨hpc, -⟩ | ⟨hpc, -⟩
  all_goals
    refine ⟨hdata, ?_, ?_, ?_, ?_⟩
    all_goals
      rw [hpc]
      exact nofun

/-- A step before the page loop. -/
theorem scriptInv_before (hi : ScriptInv image s) (hbefore : s'.pc.BeforePages)
    (hdata : s'.fwData = s.fwData)
    (hframe : ∀ caller frame sendData, s'.pc = .writing caller frame sendData →
      s.command .erase = some frame) : ScriptInv image s' where
  data := hdata.trans hi.data
  paging := fun hin => absurd hin hbefore.outside.1
  onPage := fun hin => absurd hin hbefore.outside.2.1
  afterPages := fun hin => absurd hin hbefore.outside.2.2
  frame := by
    intro caller frame sendData hpc
    have hf := hframe caller frame sendData hpc
    cases caller with
    | erase =>
      rw [← hf]
      simp only [Script.command, hdata]
    | page retry =>
      rw [hpc] at hbefore
      exact hbefore.elim
    | reset =>
      rw [hpc] at hbefore
      exact hbefore.elim

/-- What every step of the script satisfies. -/
structure StepOk (image : List UInt8) (s s' : Script) : Prop where
  inv : ScriptInv image s'
  move : Move s s'
  queue : s'.rxQueue = none ∨ s'.rxQueue = s.rxQueue

theorem nextTransaction_rxQueue (s : Script) : s.nextTransaction.rxQueue = s.rxQueue := by
  unfold Script.nextTransaction
  split <;> rfl

theorem stepOk_nextTransaction {t : Script} (hi : ScriptInv image s) (hdata : t.fwData = s.fwData)
    (h : t.transaction = s.transaction) (hqueue : t.rxQueue = none ∨ t.rxQueue = s.rxQueue) :
    StepOk image s t.nextTransaction where
  inv := scriptInv_nextTransaction (hdata.trans hi.data)
  move := move_nextTransaction h
  queue := by
    rw [nextTransaction_rxQueue]
    exact hqueue

/-- A step that stays in the page loop. -/
theorem stepOk_stay (hi : ScriptInv image s) (hin : s.pc.InPages) (hin' : s'.pc.InPages)
    (hsame : s'.fwData = s.fwData ∧ s'.programData = s.programData ∧ s'.startAddr = s.startAddr ∧
      s'.transaction = s.transaction) (hqueue : s'.rxQueue = none ∨ s'.rxQueue = s.rxQueue)
    (honPage : s'.pc.OnPage → s.programData ≠ []) (hafter : s'.pc.AfterPages → s.programData = [])
    (hframe : ∀ caller frame sendData, s'.pc = .writing caller frame sendData →
      s.command caller = some frame) : StepOk image s s' := by
  obtain ⟨hdata, hpages, haddr, htransaction⟩ := hsame
  refine ⟨⟨hdata.trans hi.data, ?_, ?_, ?_, ?_⟩, .stay hin hin' hpages haddr htransaction, hqueue⟩
  · intro _
    rw [hpages, haddr]
    exact hi.paging hin
  · rw [hpages]
    exact honPage
  · rw [hpages]
    exact hafter
  · intro caller frame sendData hpc
    rw [← hframe caller frame sendData hpc]
    cases caller with
    | erase => simp only [Script.command, hdata]
    | page retry => simp only [Script.command, Script.page, hpages, haddr]
    | reset => rfl

/-- A step before the page loop. -/
theorem stepOk_before (hi : ScriptInv image s) (hs : s.pc.BeforePages) (hs' : s'.pc.BeforePages)
    (hdata : s'.fwData = s.fwData) (htransaction : s'.transaction = s.transaction)
    (hqueue : s'.rxQueue = none ∨ s'.rxQueue = s.rxQueue)
    (hframe : ∀ caller frame sendData, s'.pc = .writing caller frame sendData →
      s.command .erase = some frame) : StepOk image s s' where
  inv := scriptInv_before hi hs' hdata hframe
  move := .leave hs'.outside.1 (fun _ => .inl ⟨hs, htransaction⟩) (Nat.le_of_eq htransaction.symm)
  queue := hqueue

/-- A failed attempt goes back to the start of the page, or ends the transaction. -/
theorem stepOk_attemptFailed (hi : ScriptInv image s) (hpage : s.pc.OnPage) {q : Option Response}
    (hq : q = none ∨ q = s.rxQueue) (retry : ℕ) :
    StepOk image s (Script.attemptFailed { s with rxQueue := q } retry) := by
  unfold Script.attemptFailed
  split
  · exact stepOk_nextTransaction (t := { s with rxQueue := q }) hi rfl rfl hq
  · exact stepOk_stay hi hpage.inPages trivial ⟨rfl, rfl, rfl, rfl⟩ hq (fun _ => hi.onPage hpage)
      nofun nofun

theorem startWrite_cases (t : Script) (caller : Caller) :
    (∃ frame, t.command caller = some frame ∧
      t.startWrite caller = { t with pc := .writing caller frame (Loader.wire frame) }) ∨
      t.startWrite caller = t.nextTransaction := by
  unfold Script.startWrite
  cases hcommand : t.command caller with
  | some frame => exact .inl ⟨frame, rfl, rfl⟩
  | none => exact .inr rfl

theorem command_rxQueue (q : Option Response) (caller : Caller) :
    Script.command { s with rxQueue := q } caller = s.command caller := by
  cases caller <;> rfl

/-- `write_data` starts for the erase. -/
theorem stepOk_startErase (hi : ScriptInv image s) (hbefore : s.pc.BeforePages) :
    StepOk image s (s.cleanQueue.startWrite .erase) := by
  rcases startWrite_cases s.cleanQueue .erase with ⟨frame, hcommand, heq⟩ | heq
  · rw [heq]
    refine stepOk_before hi hbefore trivial rfl rfl (.inl rfl) ?_
    intro c f d hpc
    cases hpc
    rw [← hcommand]
    exact (command_rxQueue none .erase).symm
  · rw [heq]
    exact stepOk_nextTransaction hi rfl rfl (.inl rfl)

/-- `write_data` starts in the page loop. -/
theorem stepOk_startWrite (hi : ScriptInv image s) (hin : s.pc.InPages) {q : Option Response}
    (hq : q = none ∨ q = s.rxQueue) {caller : Caller} (hcaller : caller ≠ .erase)
    (hpage : ∀ retry, caller = .page retry → s.programData ≠ [])
    (hreset : caller = .reset → s.programData = []) :
    StepOk image s (Script.startWrite { s with rxQueue := q } caller) := by
  rcases startWrite_cases { s with rxQueue := q } caller with ⟨frame, hcommand, heq⟩ | heq
  · rw [heq]
    have hin' : (Pc.writing caller frame (Loader.wire frame)).InPages := by
      cases caller with
      | erase => exact absurd rfl hcaller
      | page retry => trivial
      | reset => trivial
    refine stepOk_stay hi hin hin' ⟨rfl, rfl, rfl, rfl⟩ hq ?_ ?_ ?_
    · intro hon
      cases caller with
      | erase => exact absurd rfl hcaller
      | page retry => exact hpage retry rfl
      | reset => exact hon.elim
    · intro hafter
      cases caller with
      | erase => exact absurd rfl hcaller
      | page retry => exact hafter.elim
      | reset => exact hreset rfl
    · intro c f d hpc
      cases hpc
      rw [← hcommand]
      exact (command_rxQueue q caller).symm
  · rw [heq]
    exact stepOk_nextTransaction hi rfl rfl hq

/-- `write_data` returns. -/
theorem stepOk_writeReturns (hi : ScriptInv image s) {caller : Caller} {frame sendData : List UInt8}
    (hpc : s.pc = .writing caller frame sendData) (ok : Bool) :
    StepOk image s (s.writeReturns ok caller) := by
  cases caller with
  | erase =>
    refine stepOk_before hi ?_ trivial rfl rfl (.inr rfl) nofun
    rw [hpc]
    trivial
  | page retry =>
    have hpage : s.pc.OnPage := by
      rw [hpc]
      trivial
    cases ok with
    | true =>
      exact stepOk_stay hi hpage.inPages trivial ⟨rfl, rfl, rfl, rfl⟩ (.inr rfl)
        (fun _ => hi.onPage hpage) nofun nofun
    | false => exact stepOk_attemptFailed hi hpage (.inr rfl) retry
  | reset =>
    have hin : s.pc.InPages ∧ s.pc.AfterPages := by
      rw [hpc]
      exact ⟨trivial, trivial⟩
    exact stepOk_stay hi hin.1 trivial ⟨rfl, rfl, rfl, rfl⟩ (.inr rfl) nofun
      (fun _ => hi.afterPages hin.2) nofun

/-- A chunk is written. -/
theorem stepOk_chunk (hi : ScriptInv image s) {caller : Caller} {frame sendData rest : List UInt8}
    (hpc : s.pc = .writing caller frame sendData) :
    StepOk image s { s with pc := .writing caller frame rest } := by
  have hcommand := hi.frame caller frame sendData hpc
  have hframe : ∀ c f d, Pc.writing caller frame rest = .writing c f d → s.command c = some f := by
    intro c f d heq
    cases heq
    exact hcommand
  cases caller with
  | erase =>
    refine stepOk_before hi ?_ trivial rfl rfl (.inr rfl) ?_
    · rw [hpc]
      trivial
    · intro c f d heq
      cases heq
      exact hcommand
  | page retry =>
    have hpage : s.pc.OnPage := by
      rw [hpc]
      trivial
    exact stepOk_stay hi hpage.inPages trivial ⟨rfl, rfl, rfl, rfl⟩ (.inr rfl)
      (fun _ => hi.onPage hpage) nofun hframe
  | reset =>
    have hin : s.pc.InPages ∧ s.pc.AfterPages := by
      rw [hpc]
      exact ⟨trivial, trivial⟩
    exact stepOk_stay hi hin.1 trivial ⟨rfl, rfl, rfl, rfl⟩ (.inr rfl) nofun
      (fun _ => hi.afterPages hin.2) hframe

/-- The next page. -/
theorem stepOk_pageDone (hi : ScriptInv image s) {retry timeout : ℕ} {r : Response}
    (hpc : s.pc = .awaitResponse retry timeout) (hqueue : s.rxQueue = some r)
    (hok : Script.responseOk r.data = true) : StepOk image s s.cleanQueue.pageDone := by
  refine ⟨⟨hi.data, ?_, nofun, nofun, nofun⟩, .ok retry timeout r hpc hqueue hok rfl, .inl rfl⟩
  intro _
  obtain ⟨n, haddr, hpages⟩ := hi.paging (by rw [hpc]; trivial)
  refine ⟨n + blePageSize, ?_, ?_⟩
  · show s.startAddr + blePageSize = flashStartAddress + (n + blePageSize)
    rw [haddr, Nat.add_assoc]
  · show s.programData.drop blePageSize = image.drop (n + blePageSize)
    rw [hpages, List.drop_drop]

/-- **The script goes on.** -/
theorem stepOk_go {chunk : Option (List UInt8)} (hi : ScriptInv image s)
    (h : s.go = some (s', chunk)) : StepOk image s s' := by
  unfold Script.go at h
  split at h
  · rename_i hpc
    obtain ⟨rfl, -⟩ := Prod.mk.inj (Option.some.inj h)
    have hbefore : s.pc.BeforePages := by
      rw [hpc]
      trivial
    exact stepOk_startErase hi hbefore
  · rename_i hpc
    cases h
    exact stepOk_writeReturns hi hpc true
  · rename_i hpc
    split at h
    · cases h
      exact stepOk_writeReturns hi hpc false
    · cases h
      exact stepOk_chunk hi hpc
  · rename_i hpc
    cases h
    refine stepOk_before hi ?_ trivial rfl rfl (.inr rfl) nofun
    rw [hpc]
    trivial
  · rename_i hpc
    have hin : s.pc.InPages := by
      rw [hpc]
      trivial
    split at h
    · rename_i hempty
      split at h
      · cases h
        exact stepOk_nextTransaction hi rfl rfl (.inr rfl)
      · obtain ⟨rfl, -⟩ := Prod.mk.inj (Option.some.inj h)
        exact stepOk_startWrite hi hin (.inr rfl) nofun nofun fun _ => hempty
    · rename_i hmore
      cases h
      exact stepOk_stay hi hin trivial ⟨rfl, rfl, rfl, rfl⟩ (.inr rfl) (fun _ => hmore) nofun nofun
  · rename_i retry hpc
    obtain ⟨rfl, -⟩ := Prod.mk.inj (Option.some.inj h)
    have hpage : s.pc.OnPage := by
      rw [hpc]
      trivial
    exact stepOk_startWrite hi hpage.inPages (.inl rfl) nofun (fun _ _ => hi.onPage hpage) nofun
  · rename_i retry timeout hpc
    have hpage : s.pc.OnPage := by
      rw [hpc]
      trivial
    split at h
    · split at h
      · cases h
        exact stepOk_attemptFailed hi hpage (.inr rfl) retry
      · cases h
        exact stepOk_stay hi hpage.inPages trivial ⟨rfl, rfl, rfl, rfl⟩ (.inr rfl)
          (fun _ => hi.onPage hpage) nofun nofun
    · rename_i r hqueue
      split at h
      · rename_i hok
        cases h
        exact stepOk_pageDone hi hpc hqueue hok
      · cases h
        exact stepOk_attemptFailed hi hpage (.inl rfl) retry
  · cases h

theorem stepOk_raise (hi : ScriptInv image s) (h : s.raise = some s') : StepOk image s s' := by
  unfold Script.raise at h
  split at h
  · cases h
  · cases h
    exact stepOk_nextTransaction hi rfl rfl (.inr rfl)

theorem stepOk_connected {found : Bool} (hi : ScriptInv image s)
    (h : s.connected found = some s') : StepOk image s s' := by
  unfold Script.connected at h
  split at h
  · rename_i hpc
    cases h
    have hbefore : s.pc.BeforePages := by
      rw [hpc]
      trivial
    cases hh : s.handles || found with
    | true => exact stepOk_before hi hbefore trivial rfl rfl (.inr rfl) nofun
    | false => exact stepOk_before hi hbefore trivial rfl rfl (.inr rfl) nofun
  · rename_i hpc
    have hbefore : s.pc.BeforePages := by
      rw [hpc]
      trivial
    split at h
    · cases h
      refine ⟨⟨hi.data, ?_, nofun, nofun, nofun⟩, .enter hbefore trivial rfl rfl rfl, .inr rfl⟩
      intro _
      exact ⟨0, rfl, hi.data⟩
    · cases h
      exact stepOk_nextTransaction hi rfl rfl (.inr rfl)
  · cases h

/-- What the script writes is a part of the frame in hand. -/
theorem go_writes {chunk : List UInt8} (h : s.go = some (s', some chunk)) :
    ∃ caller frame b sendData, s.pc = .writing caller frame (b :: sendData) ∧
      chunk = (b :: sendData).take chunkSize ∧
      s' = { s with pc := .writing caller frame ((b :: sendData).drop chunkSize) } := by
  have hsilent : ∀ t : Script, some (t, (none : Option (List UInt8))) ≠ some (s', some chunk) := by
    intro t heq
    simp at heq
  unfold Script.go at h
  split at h
  · exact absurd h (hsilent _)
  · exact absurd h (hsilent _)
  · rename_i caller frame b sendData hpc
    split at h
    · exact absurd h (hsilent _)
    · cases h
      exact ⟨caller, frame, b, sendData, hpc, rfl, rfl⟩
  · exact absurd h (hsilent _)
  · split at h
    · split at h
      · exact absurd h (hsilent _)
      · exact absurd h (hsilent _)
    · exact absurd h (hsilent _)
  · exact absurd h (hsilent _)
  · split at h
    · split at h
      · exact absurd h (hsilent _)
      · exact absurd h (hsilent _)
    · split at h
      · exact absurd h (hsilent _)
      · exact absurd h (hsilent _)
  · cases h

/-- A notification leaves the pages alone. -/
theorem scriptInv_notify (hi : ScriptInv image s) (r : Response) : ScriptInv image (s.notify r) := by
  unfold Script.notify
  split
  · exact hi
  split
  · exact ⟨hi.data, nofun, nofun, nofun, nofun⟩
  · exact ⟨hi.data, hi.paging, hi.onPage, hi.afterPages, hi.frame⟩

end Steps

end Upload
