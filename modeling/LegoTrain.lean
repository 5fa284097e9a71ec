import LegoTrain.Lib.ByteMem
import LegoTrain.Lib.Nor
import LegoTrain.Lib.Transition
import LegoTrain.Lib.WaitLoop
import LegoTrain.Lib.Permits
import LegoTrain.Lib.Text
import LegoTrain.Lib.DualCopy
import LegoTrain.Common.SoftCrc
import LegoTrain.Flash.Device
import LegoTrain.Partition.Table
import LegoTrain.Partition.Update
import LegoTrain.Partition.Create
import LegoTrain.Partition.PowerLoss
import LegoTrain.Partition.Slots
import LegoTrain.Loader.Commands
import LegoTrain.Loader.Session
import LegoTrain.Loader.UartLink
import LegoTrain.Loader.UartReception
import LegoTrain.App.Payload
import LegoTrain.Ota.Frames
import LegoTrain.Ota.Erase
import LegoTrain.App.Chunks
import LegoTrain.App.ChunkRestart
import LegoTrain.Loader.BleLink
import LegoTrain.Loader.BleDelivery
import LegoTrain.App.UpdateHandler
import LegoTrain.App.HandlerMoves
import LegoTrain.App.SenderAddresses
import LegoTrain.Ota.Lossless
import LegoTrain.Ota.Deadline
import LegoTrain.Ota.System
import LegoTrain.Ota.Safety
import LegoTrain.Lib.Checked
import LegoTrain.Lib.Traced
import LegoTrain.Boot.Header
import LegoTrain.Boot.Parser
import LegoTrain.Boot.Acceptance
import LegoTrain.Boot.MediaBoot
import LegoTrain.Boot.SecureBoot
import LegoTrain.Boot.ScratchBuffer
import LegoTrain.Boot.MediaMain
import LegoTrain.Boot.MainTask
import LegoTrain.Boot.HashCheck
import LegoTrain.Boot.BootTarget
import LegoTrain.Boot.Progress
import LegoTrain.Boot.FwCopy
import LegoTrain.Lib.Layout
import LegoTrain.Firmware.Config
import LegoTrain.Firmware.Creator
import LegoTrain.Firmware.UpgradeScript
import LegoTrain.Firmware.HeaderLayout
import LegoTrain.Firmware.Agreement
import LegoTrain.Firmware.RoundTrip
import LegoTrain.Firmware.Bootable
import LegoTrain.Upload.Script
import LegoTrain.Upload.Serial
import LegoTrain.Upload.SerialUpgrade
import LegoTrain.Upload.BleScript
import LegoTrain.Upload.BleSystem
import LegoTrain.Upload.BleSafety
import LegoTrain.Lib.Memo
import LegoTrain.App.ConfigParser
import LegoTrain.App.FirmwareFetcher
import LegoTrain.App.LeService
import LegoTrain.App.Reconnect
import LegoTrain.App.LeSystem
import LegoTrain.App.Readiness
import LegoTrain.App.CommandQueue
import LegoTrain.App.NewConnection
import LegoTrain.App.WriteAck
import LegoTrain.Lib.Ledger
import LegoTrain.Loader.Buffers
import LegoTrain.Controller.FindDevice
import LegoTrain.Controller.Discovery
import LegoTrain.Train.Sleep
import LegoTrain.Train.Advertising
import LegoTrain.Ota.Corruption
import LegoTrain.Loader.FrameBounds
import LegoTrain.Boot.Recovery
import LegoTrain.Ota.Complete
import LegoTrain.Lib.Crc
import LegoTrain.Common.CrcRecord
import LegoTrain.Boot.Burst
import LegoTrain.Flash.Spi
import LegoTrain.Lib.FreeBlocks
import LegoTrain.Lib.FreeBytes
import LegoTrain.Heap.Heap5
import LegoTrain.Heap.FreeList
import LegoTrain.Heap.Insert
import LegoTrain.Heap.Free
import LegoTrain.Heap.Malloc
import LegoTrain.Heap.Regions
import LegoTrain.Heap.Client
import LegoTrain.Heap.Safety
import LegoTrain.Loader.HeapBuffers
import LegoTrain.Common.RingBuffer
import LegoTrain.Common.RingCalls
import LegoTrain.Common.RingRuns
