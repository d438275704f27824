import Observatory.Spool.Account
import Observatory.Guest.Ring
import Observatory.Spool.Damage
import Observatory.Spool.ExactlyOnce
import Observatory.Spool.Gaps
import Observatory.Runner.Acks
import Observatory.Runner.Importable
import Observatory.Runtime.BatchModes
import Observatory.Runtime.Deletion
import Observatory.Runtime.Fairness
import Observatory.Runtime.Revisions
import Observatory.Runtime.ExitNotices
import Observatory.Runtime.Evidence
import Observatory.Store.Idempotency
import Observatory.Terminal.Window
import Observatory.Terminal.Input
import Observatory.Terminal.Cap
import Observatory.Runner.Control
import Observatory.Runner.FrameStream
import Observatory.Runner.Relay
import Observatory.Guest.Replay
import Observatory.Store.RunRecords
import Observatory.Durable.File
import Observatory.Jailer.DiskCapacity
import Observatory.Jailer.Identity
import Observatory.Jailer.Postmortem
import Observatory.Jailer.Stop
import Observatory.Runtime.Claims
import Observatory.Situation.Engine
import Observatory.Report.Reproducible
import Observatory.Report.Jobs
