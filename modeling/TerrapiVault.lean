import TerrapiVault.Audit.Tip
import TerrapiVault.Broker.KeyCache
import TerrapiVault.Broker.LeaseRuns
import TerrapiVault.Console.Logout
import TerrapiVault.Maintenance.Lineage
import TerrapiVault.Maintenance.OneWay
import TerrapiVault.Maintenance.Recording
import TerrapiVault.Maintenance.Reopening
import TerrapiVault.Recovery.Forest
import TerrapiVault.Recovery.Format
import TerrapiVault.Recovery.LossRetry
import TerrapiVault.Replacement.Incarnations
import TerrapiVault.Replacement.Milestones
import TerrapiVault.Replication.Acknowledgement
import TerrapiVault.Replication.BasePublication
import TerrapiVault.Replication.Paging
import TerrapiVault.Replication.Reopen
import TerrapiVault.Replication.SecondaryReads
import TerrapiVault.Sync.Oplog
import TerrapiVault.Sync.Verify
import TerrapiVault.Vault.Crashes
import TerrapiVault.Vault.Create
import TerrapiVault.Maintenance.Restores
import TerrapiVault.Typed.Paging
