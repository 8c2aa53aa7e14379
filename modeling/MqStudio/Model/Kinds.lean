import MqStudio.Model.Profile

/-!
# The other families and mechanisms

The named values of `model/mqkind.go` and of `model/profile.go` that the
connection store itself never mentions; the connection forms do.
-/

namespace MqStudio.Model

def kindRabbitMQ : MQKind := ⟨"rabbitmq"⟩
def kindPulsar : MQKind := ⟨"pulsar"⟩
def kindActiveMQ : MQKind := ⟨"activemq"⟩
def kindRedisStream : MQKind := ⟨"redis-stream"⟩
def kindNATS : MQKind := ⟨"nats"⟩
def kindNSQ : MQKind := ⟨"nsq"⟩
def kindMQTT : MQKind := ⟨"mqtt"⟩
def kindSQS : MQKind := ⟨"sqs"⟩
def kindGooglePubSub : MQKind := ⟨"google-pubsub"⟩
def kindAzureServiceBus : MQKind := ⟨"azure-servicebus"⟩
def kindKinesis : MQKind := ⟨"kinesis"⟩
def kindIBMMQ : MQKind := ⟨"ibmmq"⟩
def kindSolace : MQKind := ⟨"solace"⟩

def authToken : AuthMechanism := ⟨"token"⟩
def authMutualTLS : AuthMechanism := ⟨"mtls"⟩
def authNKey : AuthMechanism := ⟨"nkey"⟩
def authCreds : AuthMechanism := ⟨"creds"⟩

end MqStudio.Model
