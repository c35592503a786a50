import OtaBoot.Lib.Memory
import OtaBoot.Lib.Crash
import OtaBoot.Lib.Attempts
import OtaBoot.Lib.Trace
import OtaBoot.Lib.Chip
import OtaBoot.Lib.Checked
import OtaBoot.Lib.Run
import OtaBoot.Lib.Crc
import OtaBoot.Lib.CString
import OtaBoot.Lib.Frame
import OtaBoot.Lib.Oracle
import OtaBoot.Lib.Follow
import OtaBoot.Delay
import OtaBoot.DelayLoop
import OtaBoot.Crc32
import OtaBoot.Qspi
import OtaBoot.QspiMemory
import OtaBoot.QspiCommands
import OtaBoot.QspiCompletion
import OtaBoot.QspiDriver
import OtaBoot.QspiDriverRefines
import OtaBoot.EraseBlocks
import OtaBoot.Metadata
import OtaBoot.MetadataMemory
import OtaBoot.MetadataAtomic
import OtaBoot.Board
import OtaBoot.BoardMemory
import OtaBoot.FlashWrite
import OtaBoot.Menu
import OtaBoot.Boot
import OtaBoot.BackupMemory
import OtaBoot.FlashWriteMemory
import OtaBoot.UpdateRun
import OtaBoot.UpdateResult
import OtaBoot.UpdateTrace
import OtaBoot.Rollback
import OtaBoot.RollbackRun
import OtaBoot.TrialRun
import OtaBoot.RestorePaths
import OtaBoot.BootAnswer
import OtaBoot.Device
import OtaBoot.WatchdogRun
import OtaBoot.BootPhase
import OtaBoot.KnownGood
import OtaBoot.BackupRecord
import OtaBoot.BackupPaths
import OtaBoot.SlotMatch
import OtaBoot.Machine
import OtaBoot.MachineOta
import OtaBoot.OtaPoll
import OtaBoot.StagingGate
import OtaBoot.WriteRetry
import OtaBoot.CrcDetection
import OtaBoot.OtaSession
import OtaBoot.FlashGate
import OtaBoot.RecvCallback
import OtaBoot.ReceivedImage
import OtaBoot.Reception
import OtaBoot.ImageLength
import OtaBoot.Connections
import OtaBoot.TriggerRounds
import OtaBoot.VersionCheck
import OtaBoot.VersionRetry
import OtaBoot.VersionFinal
import OtaBoot.VersionAnswer
import OtaBoot.VersionSegments
import OtaBoot.JumpWatch
import OtaBoot.Upload
import OtaBoot.Footprint
import OtaBoot.FlashDiscipline
import OtaBoot.Recovery
import OtaBoot.RecordLifecycle
import OtaBoot.MainLoop
import OtaBoot.MainLoopRefines
import OtaBoot.MainLoopEnds
import OtaBoot.TimeoutsDue
import OtaBoot.TimeoutsEnd
