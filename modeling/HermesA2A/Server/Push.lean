import HermesA2A.Lib.OrderedDict
import HermesA2A.Payloads

/-!
# Push notifications: the two stores

A client registers where it wants to be notified under
`/tasks/{id}/pushNotificationConfigs`; `PushConfigStore` is what these endpoints
write to and list.  `SubscriptionStore` is what a notification is sent from.

The ids of both are drawn by `uuid.uuid4`.  A subscription's is its number in the
order of `add`; a configuration's comes with the request, since it is a path segment
of later requests.
-/

namespace HermesA2A

/-! ### Configurations -/

/-- `AuthenticationInfo` -/
structure AuthenticationInfo where
  scheme : Json
  credentials : Json

/-- `TaskPushNotificationConfig`, with the fields that are set. -/
structure PushConfig where
  id : String
  taskId : String
  url : Json
  authentication : Option AuthenticationInfo
  metadata : Json

/-- `_config_store` -/
abbrev PushConfigStore := OrderedDict String PushConfig

namespace PushConfigStore

variable (s : PushConfigStore)

/-- `create_push_config` -/
def create (config : PushConfig) : PushConfigStore := s.set config.id config

/-- `get_push_config` -/
def getConfig (t id : String) : Option PushConfig :=
  (s.get? id).filter fun config => config.taskId = t

/-- `list_push_configs` -/
def list (t : String) : List PushConfig := s.values.filter fun config => config.taskId = t

/-- `delete_push_config` -/
def delete (t id : String) : Option String × PushConfigStore :=
  match s.getConfig t id with
  | some _ => (some id, s.erase id)
  | none => (none, s)

end PushConfigStore

/-- `_serialize_push_config` -/
def serializePushConfig (config : PushConfig) : Json :=
  .obj
    [ ("id", .str config.id),
      ("taskId", .str config.taskId),
      ("url", config.url),
      ("authentication",
        match config.authentication with
        | some info => .obj [("scheme", info.scheme), ("credentials", info.credentials)]
        | none => .null),
      ("metadata", config.metadata) ]

/-! ### Subscriptions -/

/-- `Subscription` -/
structure Subscription where
  subscriptionId : ℕ
  taskId : TaskId
  url : Json
  hmacKey : Json
  createdAt : Time

/-- `SubscriptionStore`.  The sets of the index are lists. -/
structure SubscriptionStore where
  store : OrderedDict ℕ Subscription
  byTask : OrderedDict TaskId (List ℕ)
  next : ℕ

namespace SubscriptionStore

/-- No subscription. -/
def empty : SubscriptionStore := ⟨.empty, .empty, 0⟩

variable (s : SubscriptionStore)

/-- A subscription leaves the store and the index. -/
def discard (sub : Subscription) : SubscriptionStore where
  store := s.store.erase sub.subscriptionId
  byTask :=
    match s.byTask.get? sub.taskId with
    | some ids => s.byTask.set sub.taskId (ids.erase sub.subscriptionId)
    | none => s.byTask
  next := s.next

/-- `_cleanup_expired_locked` -/
def cleanupExpired (now maxAge : Time) : SubscriptionStore :=
  (s.store.values.filter fun sub => now - sub.createdAt > maxAge).foldl discard s

/-- `add`, which cleans up first where there is much. -/
def add (now maxAge : Time) (t : TaskId) (url hmacKey : Json) : ℕ × SubscriptionStore :=
  let s := if s.store.length > 10 then s.cleanupExpired now maxAge else s
  (s.next,
    { store := s.store.set s.next ⟨s.next, t, url, hmacKey, now⟩
      byTask := s.byTask.set t ((s.byTask.get? t).getD [] ++ [s.next])
      next := s.next + 1 })

/-- `add` between two readings of the clock: the cleanup and the `Subscription` constructor
each take their own. -/
def addAt (now createdAt maxAge : Time) (t : TaskId) (url hmacKey : Json) :
    ℕ × SubscriptionStore :=
  let s := if s.store.length > 10 then s.cleanupExpired now maxAge else s
  (s.next,
    { store := s.store.set s.next ⟨s.next, t, url, hmacKey, createdAt⟩
      byTask := s.byTask.set t ((s.byTask.get? t).getD [] ++ [s.next])
      next := s.next + 1 })

/-- The two readings are the same where the clock stands still. -/
theorem add_eq_addAt (now maxAge : Time) (t : TaskId) (url hmacKey : Json) :
    s.add now maxAge t url hmacKey = s.addAt now now maxAge t url hmacKey := rfl

/-- `remove` -/
def remove (id : ℕ) : Bool × SubscriptionStore :=
  match s.store.get? id with
  | some sub => (true, s.discard sub)
  | none => (false, s)

/-- `get` -/
def subscriptionsOf (t : TaskId) : Except PyError (List Subscription) :=
  if t.hashable then .ok (((s.byTask.get? t).getD []).filterMap s.store.get?) else .error .typeError

@[simp] theorem subscriptionsOf_empty (t : TaskId) :
    empty.subscriptionsOf t = if t.hashable then .ok [] else .error .typeError := rfl

end SubscriptionStore

end HermesA2A
