import Vaultic.Wire.KeyRoundTrip
import Vaultic.Wire.KeyOrder
import Vaultic.Wire.Records
import Vaultic.Wire.StoreKeys
import Vaultic.Analytics.CatchUp
import Vaultic.Daemon.GdprReferences
import Vaultic.Daemon.RevisionBatches
import Vaultic.Daemon.PublicationStates
import Vaultic.Daemon.Revisions
import Vaultic.Daemon.Verification
import Vaultic.Daemon.SeenFilter
import Vaultic.Daemon.LegacyReduce
import Vaultic.Repository.IndexRewrite
import Vaultic.Repository.GC.Deadlines
import Vaultic.Repository.GC.CandidateAge
import Vaultic.Repository.Promotion
import Vaultic.Repository.Prune.IndexFiles
import Vaultic.Repository.Prune.Run
import Vaultic.Maintenance.HistoryRun
import Vaultic.Maintenance.Scheduler
import Vaultic.PathIndex.Prune
import Vaultic.Staging.Discovery
import Vaultic.Server.WriterRole
import Vaultic.Recovery.PolicySecrecy
import Vaultic.Recovery.Custodians
import Vaultic.Recovery.FallbackState
