import YdbSdk.Coordination.Callbacks
import YdbSdk.Coordination.Reconnect
import YdbSdk.Credentials.TokenWaiters
import YdbSdk.Decimal.Printing
import YdbSdk.Decimal.Validation
import YdbSdk.Endpoints.Pessimization
import YdbSdk.Grpc.ChannelPool
import YdbSdk.Grpc.StreamReader
import YdbSdk.Issues.Message
import YdbSdk.Kafka.WriteBuffer
import YdbSdk.Observability.ThreadStates
import YdbSdk.Query.AttachStream
import YdbSdk.Query.FailureCallbacks
import YdbSdk.Query.ResultSets
import YdbSdk.Retry.Contexts
import YdbSdk.Session.Ownership
import YdbSdk.Session.Requests
import YdbSdk.Session.Waiting
import YdbSdk.Topic.DeferredCommit
import YdbSdk.Topic.DeferredPublication.Resolution
import YdbSdk.Topic.DirectRead.ResponseOrder
import YdbSdk.Topic.Federated.DatabaseChoice
import YdbSdk.Topic.Federated.Flushing
import YdbSdk.Topic.Federated.Tokens
import YdbSdk.Topic.GracefulRelease
import YdbSdk.Topic.Producer.Bounds
import YdbSdk.Topic.Producer.Splits
import YdbSdk.Topic.ReadFlow.Progress
import YdbSdk.Topic.ReadSession.Entries
import YdbSdk.Topic.ReadSession.Parents
import YdbSdk.Topic.Redelivery
import YdbSdk.Topic.WriteSession.Blocks
import YdbSdk.Topic.WriteSession.DeferredRuns
import YdbSdk.Topic.WriteSession.Order
import YdbSdk.Topic.WriteSession.RejectedWrites
import YdbSdk.Topic.WriteSession.Tokens
import YdbSdk.Topic.WriteSession.TxResolution
