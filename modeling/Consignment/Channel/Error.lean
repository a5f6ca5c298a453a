import Consignment.Text.Quoted

/-! What can go wrong between this side and the broker. -/
namespace Consignment

inductive ChannelError
  | connectionFailed (reason : String)
  | publishFailed (topic reason : String)
  | timeout (topic : String)
  | rejected (topic reason : String)
  | subscriptionFailed (topics : List String) (reason : String)
  | transport (reason : String)
deriving DecidableEq

namespace ChannelError

def message : ChannelError → String
  | .connectionFailed reason => "Connection failed: " ++ reason
  | .publishFailed topic reason => s!"Publish failed for topic '{topic}': {reason}"
  | .timeout topic => s!"Publish to topic '{topic}' timed out"
  | .rejected topic reason => s!"Message rejected by topic '{topic}': {reason}"
  | .subscriptionFailed topics reason =>
    "Subscription failed for topics " ++ Text.quotedList topics ++ ": " ++ reason
  | .transport reason => "Transport error: " ++ reason

/-- Whether the same call may succeed later. -/
def isTransient : ChannelError → Bool
  | .connectionFailed _ => true
  | .publishFailed _ _ => true
  | .timeout _ => true
  | .transport _ => true
  | .rejected _ _ => false
  | .subscriptionFailed _ _ => false

def unconfigured : ChannelError := .connectionFailed "Brokers not configured"

end ChannelError

/-- Codes by which the broker says that it will never take the message. -/
def refusalCodes : List String :=
  ["MessageSizeTooLarge", "UnknownTopicOrPartition", "UnknownTopic", "InvalidTopic",
   "TopicAuthorizationFailed"]

def timeoutCodes : List String := ["MessageTimedOut", "RequestTimedOut"]

/-- The error of a publish that the broker answered with a code, if it gave one. Whatever is not
known to be final may be retried. -/
def ChannelError.ofCode (topic reason : String) (code : Option String) : ChannelError :=
  match code with
  | none => .publishFailed topic reason
  | some c =>
    if refusalCodes.contains c then .rejected topic reason
    else if timeoutCodes.contains c then .timeout topic
    else .publishFailed topic reason

end Consignment
