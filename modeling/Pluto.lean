import Pluto.Qbft.Catchup
import Pluto.Qbft.RoundJumps
import Pluto.Core.Deadline.Delivery
import Pluto.Core.DutyDb.Eviction
import Pluto.Core.DutyDb.HighWater
import Pluto.Core.AggSigDb
import Pluto.Consensus.Admission
import Pluto.Core.Tracker.Inclusion
import Pluto.Dkg.Equivocation
import Pluto.Dkg.Exchanger
import Pluto.Dkg.Sync
import Pluto.Core.UnsignedData
import Pluto.Cluster.RoundTrip
import Pluto.Cluster.Registrations
import Pluto.Core.ValidatorApi.Completeness
import Pluto.Qbft.FurthestJump
import Pluto.Priority.Dominance
import Pluto.Priority.Prioritiser
import Pluto.App.PrivKeyLock
import Pluto.Consensus.Retention
import Pluto.Dkg.Round1Coverage
import Pluto.Core.SigAgg
