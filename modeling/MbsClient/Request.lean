import MbsClient.Intent

/-!
# Requests — intents as HTTP requests of the Nmbsmf_MBSSession service (TS 29.532)
-/

namespace MbsClient

structure Request where
  method : String
  path : String
  body : Option Json

namespace Request

def sessionsPath : String := "/nmbsmf-mbssession/v1/mbs-sessions"

def subscriptionsPath : String := sessionsPath ++ "/subscriptions"

/-- The path of one resource. -/
def resourcePath (collection id : String) : String := collection ++ "/" ++ id

def ofIntent (i : Intent) : Request :=
  let (method, path) := match i with
    | .createResource .. => ("POST", sessionsPath)
    | .removeResource _ id => ("DELETE", resourcePath sessionsPath id)
    | .patchResource _ id _ => ("PATCH", resourcePath sessionsPath id)
    | .createSubscription .. => ("POST", subscriptionsPath)
    | .updateSubscription _ id _ => ("PATCH", resourcePath subscriptionsPath id)
    | .deleteSubscription id => ("DELETE", resourcePath subscriptionsPath id)
  { method, path, body := i.body? }

/-- Method and path, then the body on lines of its own. -/
def text (r : Request) : String :=
  r.method ++ " " ++ r.path ++
    match r.body with
    | some body => "\n" ++ body.indented
    | none => ""

end Request

end MbsClient
