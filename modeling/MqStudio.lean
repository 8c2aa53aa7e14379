import MqStudio.Activemq.Honest
import MqStudio.Activemq.Quoted
import MqStudio.Activemq.Refs
import MqStudio.Alert.LifeCycle
import MqStudio.Alert.Recurrence
import MqStudio.App.Runtime
import MqStudio.Azureservicebus.Deadletter
import MqStudio.Azureservicebus.Duration
import MqStudio.Azureservicebus.Edit
import MqStudio.Azureservicebus.Rules
import MqStudio.Cluster.History
import MqStudio.Configuration.Replacement
import MqStudio.Configuration.Rollback
import MqStudio.Configuration.Service
import MqStudio.Configuration.Transfer
import MqStudio.Connection.Disk
import MqStudio.Connection.Online
import MqStudio.Connection.Repair
import MqStudio.Connection.Sharing
import MqStudio.Connection.StaleClient
import MqStudio.Driver.GivesBack
import MqStudio.Driver.Registry
import MqStudio.Form.Cleared
import MqStudio.Googlepubsub.Edit
import MqStudio.Hooks.BrokerData
import MqStudio.Hooks.ConnectionProfiles
import MqStudio.Hooks.ProducerDrafts
import MqStudio.Hooks.RecentPicks
import MqStudio.Ibmmq.Browse
import MqStudio.Kafka.Acl
import MqStudio.Kafka.GroupOffset
import MqStudio.Kafka.LatestShares
import MqStudio.Kafka.ReadRange
import MqStudio.Kafka.TailRun
import MqStudio.Kinesis.Browse
import MqStudio.Kinesis.Lookup
import MqStudio.Kinesis.Update
import MqStudio.Lib.Attempts
import MqStudio.Lib.Disk
import MqStudio.Lib.Float64
import MqStudio.Lib.Folder
import MqStudio.Lib.Json.Data
import MqStudio.Lib.Json.Float
import MqStudio.Lib.Json.Raw
import MqStudio.Lib.Pages
import MqStudio.Lib.Record
import MqStudio.Lib.Upsert
import MqStudio.Lib.Url
import MqStudio.Live.Panel
import MqStudio.Model.Attributes
import MqStudio.Model.Untouched
import MqStudio.Mqtt.Filters
import MqStudio.Mqtt.Matching
import MqStudio.Mqtt.Quality
import MqStudio.Mqtt.ReadEffects
import MqStudio.Nats.Browse
import MqStudio.Nats.Subscriptions
import MqStudio.Nats.Tail
import MqStudio.Nats.Trim
import MqStudio.Nsq.Removal
import MqStudio.Payload.JsonTokens
import MqStudio.Payload.Truncate
import MqStudio.Pulsar.DeadLetter
import MqStudio.Pulsar.MessageRead
import MqStudio.Pulsar.NamespaceLimits
import MqStudio.Pulsar.Tail
import MqStudio.Pulsar.Topic
import MqStudio.Rabbitmq.Arguments
import MqStudio.Rabbitmq.Browse
import MqStudio.Rabbitmq.DataPlane
import MqStudio.Rabbitmq.Deadletter
import MqStudio.Rabbitmq.Move
import MqStudio.Rabbitmq.Redact
import MqStudio.Redisstream.AclCluster
import MqStudio.Redisstream.AclSave
import MqStudio.Redisstream.Clients
import MqStudio.Redisstream.Listing
import MqStudio.Redisstream.Refs
import MqStudio.Rocketmq.Directory
import MqStudio.Rocketmq.Edits
import MqStudio.Rocketmq.MessageScan
import MqStudio.Rocketmq.MessageTrack
import MqStudio.Rocketmq.Namespace
import MqStudio.Rocketmq.TailRun
import MqStudio.Rocketmq.TopicRemoval
import MqStudio.Settings.Service
import MqStudio.Settings.Writers
import MqStudio.Solace.Deadletter
import MqStudio.Sqs.Edit
import MqStudio.Sqs.Queue
import MqStudio.Storage.Atomicfile
import MqStudio.Storage.Crypto
import MqStudio.Storage.Key
import MqStudio.Update.Apply
import MqStudio.Update.Install
import MqStudio.Update.Mirrors
import MqStudio.Update.Order
import MqStudio.Update.Skip
