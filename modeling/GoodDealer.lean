import GoodDealer.Cloud.Retention
import GoodDealer.Cloud.ExactlyOnce
import GoodDealer.Client.Rebuild
import GoodDealer.Sync.Staleness
import GoodDealer.Sync.Tombstones
import GoodDealer.Sync.PullRun
import GoodDealer.Sync.Isolation
import GoodDealer.Client.DrainStream
import GoodDealer.Client.CsvImport
import GoodDealer.Sync.DrainSeals
import GoodDealer.Sync.PushSchema
import GoodDealer.Desktop.Pull
import GoodDealer.Sync.PendingFields
import GoodDealer.Sync.LocalEdits
import GoodDealer.Sync.OpenConflicts
import GoodDealer.Cloud.JobAttempts
import GoodDealer.Backup.RoundTrip
import GoodDealer.Identity.Rotation
import GoodDealer.Devices.LeaseHandover
import GoodDealer.Desktop.SyncLane
import GoodDealer.Desktop.BrowserRuntime
import GoodDealer.Cloud.SequenceHeads
