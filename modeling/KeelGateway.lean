import KeelGateway.Acl.Placeholders
import KeelGateway.Auth.TenantPolicy
import KeelGateway.Broker.ClaimRollback
import KeelGateway.Broker.CleanStart
import KeelGateway.Broker.FailedResume
import KeelGateway.Broker.OfflineHandover
import KeelGateway.Broker.OfflineLocks
import KeelGateway.Broker.Origins
import KeelGateway.Broker.RateLimit
import KeelGateway.Broker.ResendOrder
import KeelGateway.Broker.RetainedTopics
import KeelGateway.Broker.RevocationRace
import KeelGateway.Broker.SelfHealing
import KeelGateway.Broker.SingleHop
import KeelGateway.Connector.Buffered
import KeelGateway.Connector.KafkaHono
import KeelGateway.HttpApi.Publish
import KeelGateway.Lifecycle.Rebalance
import KeelGateway.Lifecycle.RoutePurge
import KeelGateway.Membership.GossipMeta
import KeelGateway.Mochi.Outbound
import KeelGateway.Raft.AclTransfer
import KeelGateway.Raft.ClaimCalls
import KeelGateway.Raft.ReplicaAgreement
import KeelGateway.Raft.Snapshot
import KeelGateway.Redis.FleetMigration
import KeelGateway.Redis.FlowDeletion
import KeelGateway.Redis.SchemaFence
import KeelGateway.Routing.MatcherAgreement
import KeelGateway.Routing.Namespace
import KeelGateway.Routing.PurgeNode
import KeelGateway.Routing.ReconcileRace
import KeelGateway.Session.DeliverySpec
import KeelGateway.Session.Rendezvous
