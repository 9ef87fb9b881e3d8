import Rs3.K8s.TakeoverSafety
import Rs3.K8s.Adoption
import Rs3.Repository.CommitParse
import Rs3.Payload.ReadStream
import Rs3.Payload.MultipartExact
import Rs3.Index.ReplayBudget
import Rs3.Recovery.Promise
import Rs3.Payload.PointerFacts
import Rs3.Repository.AuthContext
import Rs3.Recovery.SectionCodec
import Rs3.Gateway.RetentionDates
import Rs3.Service.SuccessorRollback
import Rs3.Index.NewestReceipts
import Rs3.Index.ChainReplay
import Rs3.Index.RunTable
import Rs3.Maintenance.IoBudget
import Rs3.Maintenance.Supervisor
import Rs3.Service.Reload
import Rs3.Index.PrefixIndex
import Rs3.Storage.Lifecycle
import Rs3.Index.RunVarint
import Rs3.Repository.CborItems
import Rs3.Maintenance.RenewalStrength
import Rs3.Recovery.RootCut
import Rs3.Recovery.Survival
import Rs3.Maintenance.RenewalTargets
