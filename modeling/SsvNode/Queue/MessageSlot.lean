import SsvNode.Queue.Messages
import SsvNode.Spec.Duties

/-!
# The slot of a queued message

`queue.SSVMessage.Slot`: where a queue is kept per slot, and where stale messages are told from live
ones, the slot is read from the body. The data of an internal event is JSON; what it decodes to is a
parameter, like the role a message identifier encodes.
-/

namespace Ssv.Queue

structure TimeoutData where
  slot : ℕ
  round : ℕ
  deriving DecidableEq

class EventSpec where
  getRoleType : Bytes → Validation.RunnerRole
  getTimeoutData : EventMsg → Except Err TimeoutData
  /-- `EventMsg.GetExecuteDutyData`, of which the duty may be `nil`. -/
  getExecuteDutyData : EventMsg → Except Err (Option ValidatorDuty)

variable [EventSpec]

open EventSpec

def errUnknownEventType : Err := { text := "unknown event type" }

/-- `SSVMessage.Slot`, down to the data of the events. -/
def SSVMessage.slot (m : SSVMessage) : Except Err ℕ :=
  match m.body with
  | .none => .error { text := "nil SSVMessage body" }
  | .consensus qbftMsg => .ok qbftMsg.height
  | .partialSignature pms => .ok pms.slot
  | .event e =>
    match e.type with
    | .timeout => do
      let data ← (getTimeoutData e).mapError (.wrap "get Timeout data")
      return data.slot
    | .executeDuty => do
      match ← (getExecuteDutyData e).mapError (.wrap "get ExecuteDuty data") with
      | none => throw { text := "nil duty data in EventMsg" }
      | some duty => return duty.slot
    | .other _ => .error errUnknownEventType

def SSVMessage.role (m : SSVMessage) : Validation.RunnerRole := getRoleType m.ssvMessage.msgID

end Ssv.Queue
