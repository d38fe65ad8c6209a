import MbsClient.Context.Basic

/-!
# Notifications — which subscription an inbound request is for

The path tells; where it does not, the correlation id of the reports does.
-/

namespace MbsClient

namespace Context

/-- The subscriptions that are wanted, session by session. -/
def subscriptions (c : Context) : List Subscription :=
  c.sessions.values.flatMap Session.subscriptions

/-- The subscription whose notifications are received at `path` on `server`. -/
def subscriptionAt? (c : Context) (server : Nat) (path : String) : Option Subscription :=
  c.subscriptions.find? fun sub => sub.endpoint.any fun e => e.isAt server path

def subscriptionByCorrelationId? (c : Context) (id : String) : Option Subscription :=
  c.subscriptions.find? fun sub => sub.data.notifyCorrelationId = some id

/-- What the application is told of a notification, if it is for a subscription of ours. -/
def notify? (c : Context) (server : Nat) (path : String) (reports : MbsSessionEventReportList) :
    Option (List Call) := do
  let found ← c.subscriptionAt? server path <|>
    reports.notifyCorrelationId.bind c.subscriptionByCorrelationId?
  let sub ← (← c.session? found.session).subscription? found.key
  return sub.deliver reports.eventList

end Context

end MbsClient
