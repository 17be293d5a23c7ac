import CppTango.Polling.AttrHistory
import CppTango.Polling.AttrRoundTrip
import CppTango.Polling.AttrCodec
import CppTango.Polling.CmdHistory
import CppTango.Polling.CmdRoundTrip
import CppTango.Polling.CmdCodec
import CppTango.Polling.Schedule
import CppTango.Lib.Keyed
import CppTango.Polling.ScheduleRuns
import CppTango.Polling.Mailbox
import CppTango.Lib.Text
import CppTango.Polling.PoolConf
import CppTango.Polling.PoolFile
import CppTango.Lib.Lists
import CppTango.Polling.PoolCheck
import CppTango.Polling.Properties
import CppTango.Polling.PropertyRuns
import CppTango.Device.MultiAttribute
import CppTango.Device.Write
import CppTango.Lib.Memory
import CppTango.Device.WriteSpec
import CppTango.Device.WritePasses
import CppTango.Device.Read
import CppTango.Device.ReadCache
import CppTango.Device.ReadDevice
import CppTango.Device.ReadSpec
import CppTango.Client.EventFifo
import CppTango.Device.Lock
import CppTango.Device.LockSpec
import CppTango.Client.LockThread
import CppTango.Device.StrProps
import CppTango.Device.StrPropsRestart
import CppTango.Device.Memorized
import CppTango.Device.WriteValues
import CppTango.Device.MemorizedDb
import CppTango.Device.MemorizedRestart
import CppTango.Device.MemorizedSpec
import CppTango.Event.Delivery
import CppTango.Event.Sharing
import CppTango.Device.Dynamic
import CppTango.Device.DynamicTables
import CppTango.Device.DynamicSteps
import CppTango.Device.DynamicSpec
import CppTango.Device.DynamicRuns
import CppTango.Db.Client
import CppTango.Db.FileDatabase
import CppTango.Db.FileAttributes
import CppTango.Db.FileSpec
import CppTango.Db.FileAnswers
import CppTango.Db.Cache
import CppTango.Db.CacheBlocks
import CppTango.Db.CacheSpec
import CppTango.Db.CacheAnswers
import CppTango.Db.FileText
import CppTango.Db.FileLex
import CppTango.Db.FileStatements
import CppTango.Db.FileRestore
import CppTango.Db.FileRoundTrip
import CppTango.Db.FileReadBack
import CppTango.Db.FileReload
import CppTango.Event.Missed
import CppTango.Client.PollItems
import CppTango.Device.SubDevices
import CppTango.Client.Group
import CppTango.Client.GroupForest
import CppTango.Client.GroupDevices
import CppTango.Db.ServerData
import CppTango.Db.ServerMove
import CppTango.Db.CacheNames
import CppTango.Db.CacheImports
import CppTango.Db.FileCodec
import CppTango.Db.FileGrammar
import CppTango.Db.FileOpen
import CppTango.Device.DevIntr
import CppTango.Device.Rollback
import CppTango.Device.RollbackSpec
import CppTango.Device.ConfProps
import CppTango.Device.RollbackValues
import CppTango.Device.Conf
import CppTango.Device.ConfSpec
import CppTango.Device.ConfRanges
import CppTango.Device.RangeRuns
import CppTango.Device.ConfUndo
import CppTango.Device.ConfRefused
import CppTango.Lib.Agenda
import CppTango.Polling.WorkList
import CppTango.Polling.SleepTime
import CppTango.Polling.WorkOrder
import CppTango.Polling.CleanUp
import CppTango.Polling.RingFaithful
import CppTango.Polling.RingSlots
import CppTango.Device.Alarm
import CppTango.Device.AlarmRds
import CppTango.Device.AlarmLevels
import CppTango.Device.ReadMutex
import CppTango.Device.MutexKept
import CppTango.Device.DevState
import CppTango.Device.ValueThere
import CppTango.Device.StatePasses
import CppTango.Device.ValueRuns
import CppTango.Device.StateComputed
import CppTango.Device.StateHistory
import CppTango.Device.StateSame
import CppTango.Event.AlarmEvent
import CppTango.Event.Change
import CppTango.Event.ChangeRuns
import CppTango.Device.LockLost
import CppTango.Client.LockArgs
import CppTango.Client.ConnectEvent
import CppTango.Client.Retry
import CppTango.Polling.PollAttr
import CppTango.Client.PushEvent
import CppTango.Client.PushServed
import CppTango.Device.BlackBox
import CppTango.Device.BlackBoxTruth
import CppTango.Device.RootAtt
import CppTango.Device.RootAttCoherent
import CppTango.Device.RootAttRuns
import CppTango.Device.Restart
import CppTango.Device.RestartKept
import CppTango.Device.RestartRuns
import CppTango.Event.Realign
import CppTango.Lib.Loops
import CppTango.Client.AsynReq
import CppTango.Device.AutoUnsub
import CppTango.Device.ImageDecode
import CppTango.Device.ImageEncode
import CppTango.Client.GroupOrder
import CppTango.Db.Datum
import CppTango.Db.DatumKept
import CppTango.Client.PipeArrays
import CppTango.Client.PipeOwned
import CppTango.Client.PipeRound
import CppTango.Client.GroupRemove
import CppTango.Client.GroupPattern
import CppTango.Device.Logging
import CppTango.Device.LoggingPattern
import CppTango.Device.Interface
import CppTango.Event.Multicast
import CppTango.Event.MulticastBlocks
import CppTango.Device.ConfRestart
import CppTango.Device.RdsRuns
import CppTango.Device.EventText
import CppTango.Device.EventRuns
import CppTango.Device.Creation
import CppTango.Device.CreationRuns
import CppTango.Device.EnumConf
import CppTango.Device.EnumConfRuns
import CppTango.Client.DeviceName
import CppTango.Device.ReadersWriters
import CppTango.Device.TangoMonitor
import CppTango.Device.LoggingTargets
import CppTango.Client.DeviceNameForm
import CppTango.Client.DeviceNameWritten
import CppTango.Client.AttributeName
import CppTango.Client.AttributeNameCopies
import CppTango.Device.ConfStored
import CppTango.Device.ConfUndone
import CppTango.Device.SignalRuns
import CppTango.Client.Access
import CppTango.Client.AccessRuns
import CppTango.Client.GroupAsynch
import CppTango.Client.GroupReplies
import CppTango.Client.AsynCallbacks
import CppTango.Client.AsynCallbackRuns
import CppTango.Event.Archive
import CppTango.Event.PollRuns
