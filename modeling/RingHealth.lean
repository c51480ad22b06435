import RingHealth.Proofs.Account
import RingHealth.Proofs.Announcements
import RingHealth.Proofs.DatacenterQuorums
import RingHealth.Proofs.Descriptions
import RingHealth.Proofs.LastFactors
import RingHealth.Proofs.Merging
import RingHealth.Proofs.Noninterference
import RingHealth.Proofs.QuorumOverlap
import RingHealth.Proofs.RangeCounts
import RingHealth.Proofs.Records
import RingHealth.Proofs.Recovery
import RingHealth.Proofs.Requirements
import RingHealth.Proofs.Sharding
import RingHealth.Proofs.Splitting
import RingHealth.Proofs.Strength
import RingHealth.Proofs.Tiling
