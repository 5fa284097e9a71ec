import LegoTrain.App.Chunks
import LegoTrain.Lib.Transition

/-!
# The update handler of the app

`FirmwareUpdateHandler.kt` as a transition function.  The update is one coroutine, from
`onStartUpdatingFirmware` on; `Pc` says where it stands, at the granularity at which
callbacks of the Bluetooth stack can come in between.  What the code cannot decide itself
(whether a write gets through, whether there is a connection, when time passes) comes with
the events.

* `step` : the coroutine and the callbacks `onResponse` and `onDisconnected`;
* `sends` : the frames that a step hands over to the link in full;
* `emitted` : the frames whose first packet has been written, for what the app may say.
-/

namespace App

open ByteMem

/-- `FLASH_START_ADDRESS` of `FirmwareUpdateHandler.kt`. -/
def flashStartAddress : ℕ := 0x2F000

/-- A response in `rxQueue`, with the frame that it answers, which the app cannot see. -/
structure Response where
  data : List UInt8
  request : List UInt8

/-- The verdict of `getResponse` on a response: two bytes, of which the first is `O`. -/
def responseOk (response : List UInt8) : Bool :=
  response.length = 2 ∧ response.head? = some 0x4F

/-- The call sites of `verifyInBootloaderMode`. -/
inductive CallSite
  /-- after `connectIfNeeded` -/
  | connected
  /-- before `eraseFlash` -/
  | beforeErase
  /-- in the loop behind `eraseFlash` -/
  | afterErase (retry : ℕ)
  /-- before the page loop -/
  | beforePages
  /-- in the page loop, when the connection is lost -/
  | reconnecting (retry retryConnect : ℕ)
  deriving DecidableEq

/-- Where the coroutine stands. -/
inductive Pc
  | connectIfNeeded
  /-- `verifyInBootloaderMode`: before `clearRxQueue`, before the write, and waiting -/
  | verifyClear (site : CallSite)
  | verifyWrite (site : CallSite)
  | verifyWait (site : CallSite) (timeout : ℕ)
  /-- `enterBootLoaderMode`: before the write, and in `makeNewConnection` -/
  | enterWrite
  | enterConnect
  /-- `eraseFlash`: before `clearRxQueue`, and before the write -/
  | eraseClear
  | eraseWrite
  /-- in `waitNewConnection` behind `eraseFlash` -/
  | eraseConnect (retry : ℕ)
  /-- before `firmwareData.reset()`, and before the first `getNextChunk` -/
  | resetFirmware
  | firstChunk
  /-- `sendOnePage`: before `clearRxQueue`, and before the next packet -/
  | sendClear (retry : ℕ)
  | sendPacket (retry : ℕ) (datapkg : RobotData)
  /-- in `awaitResponse` -/
  | awaitResponse (retry timeout : ℕ)
  /-- the page was not acknowledged -/
  | notOk (retry : ℕ)
  /-- in `waitNewConnection` of the page loop -/
  | pageConnect (retry retryConnect : ℕ)
  /-- the page was acknowledged -/
  | nextChunk
  | systemReset
  | complete
  | failure
  deriving DecidableEq

/-- The fields of the handler and the local variables of the coroutine. -/
structure Handler where
  pc : Pc
  firmwareData : BleFirmwareData
  rxQueue : List Response
  /-- `prog_addr` -/
  progAddr : ℕ
  firmwareChunk : List UInt8
  /-- the frames whose first packet has been written, oldest first -/
  emitted : List (List UInt8)

/-- How a `writeRawData` ends: the stack does not take the packet, or takes it and does not
confirm it within two seconds, or takes and confirms it. -/
inductive Written
  | refused
  | unconfirmed
  | confirmed
  deriving DecidableEq, Repr

inductive Event
  /-- a statement without outcome -/
  | proceed
  | written (w : Written)
  /-- one pass of a waiting loop -/
  | tick
  /-- the end of `waitNewConnection` or `makeNewConnection` -/
  | connection (ok : Bool)
  /-- the value of `IsConnected` -/
  | isConnected (b : Bool)
  | onResponse (r : Response)
  /-- `onDisconnected` with `userInitiated = false` -/
  | onDisconnected

/-- The start of an update with the bytes of the firmware file. -/
def start (image : List UInt8) : Handler where
  pc := .connectIfNeeded
  firmwareData := .ofImage image
  rxQueue := []
  progAddr := 0
  firmwareChunk := []
  emitted := []

/-- The frame of the current page. -/
def Handler.pageFrame (h : Handler) : List UInt8 :=
  programOnePageCommandPayload h.progAddr h.firmwareChunk

/-! ## The callbacks -/

def onResponse (h : Handler) (r : Response) : Handler := { h with rxQueue := h.rxQueue ++ [r] }

/-- `responseJob?.cancel()`: a coroutine that waits in `awaitResponse` gets `RESPONSE_NOK`. -/
def cancelResponseJob (pc : Pc) : Pc :=
  match pc with
  | .awaitResponse retry _ => .notOk retry
  | pc => pc

def onDisconnected (h : Handler) : Handler :=
  { h with
    pc := cancelResponseJob h.pc, rxQueue := [], firmwareData := h.firmwareData.reset }

/-! ## The coroutine -/

/-- A frame of one packet is written. -/
def emit (h : Handler) (w : Written) (frame : List UInt8) : Handler :=
  if w = .refused then h else { h with emitted := h.emitted ++ [frame] }

/-- The end of one round of the retry loop around `sendOnePage`. -/
def retryPage (retry : ℕ) : Pc := if retry - 1 = 0 then .failure else .sendClear (retry - 1)

/-- `verifyInBootloaderMode` returns. -/
def verified (site : CallSite) (ok : Bool) : Pc :=
  match site with
  | .connected => if ok then .verifyClear .beforeErase else .enterWrite
  | .beforeErase => if ok then .eraseClear else .failure
  | .afterErase retry =>
    if ok then .verifyClear .beforePages
    else if retry - 1 = 0 then .verifyClear .beforePages else .eraseConnect (retry - 1)
  | .beforePages => if ok then .resetFirmware else .failure
  | .reconnecting retry retryConnect =>
    if ok then retryPage retry
    else if retryConnect - 1 = 0 then .failure else .pageConnect retry (retryConnect - 1)

/-- The next page of the loop, or the end of the image. -/
def loadChunk (h : Handler) : Handler :=
  match h.firmwareData.getNextChunk with
  | none => { h with pc := .systemReset }
  | some c => { h with pc := .sendClear 10, firmwareChunk := c.1, firmwareData := c.2 }

/-- A statement without outcome. -/
def proceed (h : Handler) : Option Handler :=
  match h.pc with
  | .connectIfNeeded => some { h with pc := .verifyClear .connected }
  | .verifyClear site => some { h with pc := .verifyWrite site, rxQueue := [] }
  | .eraseClear => some { h with pc := .eraseWrite, rxQueue := [] }
  | .resetFirmware => some { h with pc := .firstChunk, firmwareData := h.firmwareData.reset }
  | .firstChunk => some (loadChunk { h with progAddr := flashStartAddress })
  | .sendClear retry =>
    some { h with pc := .sendPacket retry (.ofData h.pageFrame), rxQueue := [] }
  | .sendPacket retry datapkg =>
    match datapkg.getNextChunk, h.rxQueue with
    | none, _ => some { h with pc := .awaitResponse retry 4000 }
    -- a response before the frame is out: it is dropped, and the frame is broken off
    | some _, _ :: rest => some { h with pc := .notOk retry, rxQueue := rest }
    | some _, [] => none
  | .nextChunk => some (loadChunk { h with progAddr := h.progAddr + h.firmwareChunk.length })
  | _ => none

/-- A packet of the page frame is written; the first one starts the frame. -/
def writePacket (h : Handler) (w : Written) (retry : ℕ) (datapkg : RobotData) : Option Handler :=
  match datapkg.getNextChunk, h.rxQueue with
  | some c, [] =>
    let h := if datapkg.bytesProcessed = 0 then emit h w h.pageFrame else h
    some { h with pc := if w = .confirmed then .sendPacket retry c.2 else .notOk retry }
  | _, _ => none

/-- A `writeRawData` ends. -/
def written (h : Handler) (w : Written) : Option Handler :=
  match h.pc with
  | .verifyWrite site =>
    let pc := if w = .confirmed then .verifyWait site 1000 else verified site false
    some { emit h w readJedecCommandPayload with pc := pc }
  | .enterWrite => some { h with pc := if w = .confirmed then .enterConnect else .failure }
  | .eraseWrite =>
    let pc := if w = .confirmed then .eraseConnect 4 else .failure
    some { emit h w (eraseFlashCommandPayload h.firmwareData.totalBytes) with pc := pc }
  | .sendPacket retry datapkg => writePacket h w retry datapkg
  | .systemReset => some { emit h w systemResetCommandPayload with pc := .complete }
  | _ => none

/-- One pass of a waiting loop. -/
def tick (h : Handler) : Option Handler :=
  match h.pc with
  | .verifyWait site timeout =>
    if h.rxQueue.isEmpty ∧ timeout > 0 then some { h with pc := .verifyWait site (timeout - 1) }
    else some { h with pc := verified site (decide (timeout ≠ 0)) }
  | .awaitResponse retry timeout =>
    if h.rxQueue.isEmpty ∧ timeout > 0 then some { h with pc := .awaitResponse retry (timeout - 1) }
    else if timeout = 0 then some { h with pc := .notOk retry }
    else
      match h.rxQueue with
      | r :: rest =>
        some { h with pc := if responseOk r.data then .nextChunk else .notOk retry, rxQueue := rest }
      | [] => none
  | _ => none

/-- A wait for a connection ends.  `makeNewConnection` begins with closing the old
connection, which calls `onDisconnected`. -/
def connection (h : Handler) (ok : Bool) : Option Handler :=
  match h.pc with
  | .enterConnect =>
    some { onDisconnected h with pc := if ok then .verifyClear .beforeErase else .failure }
  | .eraseConnect retry =>
    some { h with pc := .verifyClear (if ok then .beforePages else .afterErase retry) }
  | .pageConnect retry retryConnect =>
    some { h with
      pc := if ok then retryPage retry else .verifyClear (.reconnecting retry retryConnect) }
  | _ => none

def isConnected (h : Handler) (b : Bool) : Option Handler :=
  match h.pc with
  | .notOk retry => some { h with pc := if b then retryPage retry else .pageConnect retry 5 }
  | _ => none

/-- The handler, one event at a time. -/
def step (h : Handler) : Event → Option Handler
  | .proceed => proceed h
  | .written w => written h w
  | .tick => tick h
  | .connection ok => connection h ok
  | .isConnected b => isConnected h b
  | .onResponse r => some (onResponse h r)
  | .onDisconnected => some (onDisconnected h)

/-- The frame that an event hands over to the link in full: a frame of one packet when the
stack takes it, the frame of a page when it takes the last packet. -/
def sends (h : Handler) (e : Event) : Option (List UInt8) :=
  match h.pc, e with
  | .verifyWrite _, .written w => if w = .refused then none else some readJedecCommandPayload
  | .eraseWrite, .written w =>
    if w = .refused then none else some (eraseFlashCommandPayload h.firmwareData.totalBytes)
  | .systemReset, .written w => if w = .refused then none else some systemResetCommandPayload
  | .sendPacket _ datapkg, .written w =>
    if w ≠ .refused ∧ datapkg.remainingBytes ≤ RobotData.defaultPacketSizeBytes then
      some h.pageFrame
    else none
  | _, _ => none

end App
