import Grimnir.Spec.LabelEffects
import Grimnir.Spec.LabelProvenance
import Grimnir.Spec.TrainingSync
import Grimnir.Spec.TrainingMirror
import Grimnir.Spec.LabelDeletion
import Grimnir.Native.JobSystem
import Grimnir.ForStd.Spans
import Grimnir.ForStd.Succession
import Grimnir.Spec.JobEffects
import Grimnir.Spec.JobLineage
import Grimnir.Spec.JobOwnership
import Grimnir.Native.TrainedModels
import Grimnir.Native.VolvaTasks
import Grimnir.Spec.ModelActivation
import Grimnir.ForStd.CMemory
import Grimnir.Native.Parser
import Grimnir.Native.Muninn
import Grimnir.Spec.ParserCorrect
import Grimnir.Spec.WireAgreement
import Grimnir.ForStd.Dict
import Grimnir.Native.IngestDb
import Grimnir.Native.Ingest
import Grimnir.Spec.IngestEffects
import Grimnir.Spec.IngestIsolation
import Grimnir.ForStd.Blocks
import Grimnir.ForStd.CAccess
import Grimnir.Native.Train
import Grimnir.Native.Predict
import Grimnir.Spec.WindowAgreement
import Grimnir.Spec.WindowPurity
import Grimnir.Native.ModelLoader
import Grimnir.Spec.VersionGate
import Grimnir.Spec.VoteOrigin
import Grimnir.Spec.ModelRegistry
import Grimnir.Native.Predictions
import Grimnir.Spec.PublishedPrediction
import Grimnir.Native.Writer
import Grimnir.Spec.ShutdownDrain
import Grimnir.Native.Nornir
import Grimnir.Spec.NornirSurvival
import Grimnir.Native.NornirFleet
import Grimnir.Spec.NornirMoves
import Grimnir.Spec.NornirRights
import Grimnir.Spec.JobBooks
import Grimnir.Spec.JobModels
import Grimnir.Native.Migrate
import Grimnir.Spec.MigrateOnce
import Grimnir.Native.Wifi
import Grimnir.Native.Watchdog
import Grimnir.Spec.WatchdogHistory
import Grimnir.Native.AckLoop
import Grimnir.Spec.SpuriousResets
import Grimnir.Spec.SrvSelection
import Grimnir.Spec.StayWindows
import Grimnir.Spec.WifiRecovery
import Grimnir.Spec.DatagramGrammar
import Grimnir.ForStd.Base64
import Grimnir.ForStd.JsonText
import Grimnir.ForStd.Datetime
import Grimnir.Native.TrainingData
import Grimnir.Spec.CursorCodec
import Grimnir.Spec.CursorErrors
import Grimnir.ForStd.SeekPaging
import Grimnir.Spec.ExportExact
import Grimnir.Spec.FallbackExport
import Grimnir.ForStd.Foremost
import Grimnir.Spec.LabelRebuild
import Grimnir.Spec.LabelPrecedence
import Grimnir.Spec.JobShape
import Grimnir.Spec.RoomEffects
import Grimnir.Native.TrainingStream
import Grimnir.Spec.RoomQuery
import Grimnir.Native.FrekiSystem
import Grimnir.Spec.JobRooms
import Grimnir.ForStd.Fifo
import Grimnir.ForStd.FirstBest
import Grimnir.Native.CsiPool
import Grimnir.Spec.CsiPoolOwnership
import Grimnir.Spec.RoomRename
import Grimnir.Spec.PacketLedger
import Grimnir.Native.WriterClock
import Grimnir.Spec.BufferingDelay
import Grimnir.ForStd.SortedEnds
import Grimnir.Spec.ClaimOrder
import Grimnir.Native.CsiStream
import Grimnir.Spec.AntennaLayout
import Grimnir.Spec.StreamBacklog
import Grimnir.Spec.StreamDelivery
import Grimnir.Spec.WindowDefinition
import Grimnir.Native.SyslogClient
import Grimnir.Spec.LogSanitizer
import Grimnir.Spec.DnsSafety
import Grimnir.ForStd.DnsName
import Grimnir.Spec.DnsNames
import Grimnir.ForStd.Throttle
import Grimnir.Spec.AckThrottle
import Grimnir.Native.ExtractFeatures
import Grimnir.Spec.FeatureLayout
import Grimnir.Spec.JobTiming
import Grimnir.ForStd.Purge
import Grimnir.Spec.SecretGuard
import Grimnir.Native.ModelServing
import Grimnir.Spec.ModelServing
import Grimnir.ForStd.JsonDump
import Grimnir.ForStd.EventStream
import Grimnir.Native.CsiStreamText
import Grimnir.Spec.StreamWire
import Grimnir.Native.PredictionStream
import Grimnir.Spec.PredictionStream
import Grimnir.ForStd.Component
import Grimnir.Native.CapturePath
import Grimnir.Spec.CapturePipeline
import Grimnir.Spec.CapturePath
import Grimnir.Native.SyslogQueue
import Grimnir.Spec.SyslogForwarding
import Grimnir.Spec.MigrateReleases
import Grimnir.Spec.TrainingProvenance
import Grimnir.Spec.ModelOrigin
import Grimnir.Native.MlSystem
import Grimnir.Spec.PredictionOrigin
