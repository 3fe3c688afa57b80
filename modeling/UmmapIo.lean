import UmmapIo.Common.HumanUnits
import UmmapIo.Drivers.CDriver
import UmmapIo.Drivers.IocDriver
import UmmapIo.Drivers.MemoryDriver
import UmmapIo.Drivers.MmapRanges
import UmmapIo.Handler.Registry
import UmmapIo.InterProc.Shares
import UmmapIo.Linked.Policies
import UmmapIo.Locking.Signals
import UmmapIo.Mapping.NoLostStore
import UmmapIo.Mapping.PartialTransfers
import UmmapIo.Mapping.WholeFlush
import UmmapIo.Mixed.EndlessUpdate
import UmmapIo.Mixed.EvictionCount
import UmmapIo.Mixed.QuotaShares
import UmmapIo.Mixed.WindowAccounts
import UmmapIo.Policy.Contents
import UmmapIo.Policy.Notices
import UmmapIo.Policy.Reporting
import UmmapIo.Policy.SequentialRuns
import UmmapIo.Quota.Bound
import UmmapIo.Quota.Regrowth
import UmmapIo.Retarget.SizedCow
import UmmapIo.Retarget.SwitchView
import UmmapIo.RwWrapper.Touch
import UmmapIo.Uri.Agreement
import UmmapIo.Uri.ListingRuns
import UmmapIo.Uri.RoundTrip
