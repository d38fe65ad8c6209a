import MbsClient.Error
import MbsClient.Text.Decimal
import MbsClient.Text.Split

/-!
# Endpoints — where the MB-SMF sends the notifications of one subscription

The key of the subscription is the last segment of the URL, so an inbound path leads back to it.
-/

namespace MbsClient

open Text

structure NotificationEndpoint where
  /-- Which of the configured notification servers it lies on. -/
  server : Nat
  url : String
  /-- The path of the URL without the slash it starts with; a URL may have no path. -/
  path : Option String
deriving DecidableEq, Repr

namespace NotificationEndpoint

/-- The segment that all notification URLs have. -/
def resource : String := "mbs-session-notify"

/-- What follows the first occurrence of `sep`. -/
def behind? (sep : List Char) : List Char → Option (List Char)
  | [] => none
  | c :: rest =>
      match afterStart? sep (c :: rest) with
      | some behind => some behind
      | none => behind? sep rest

/-- The path of an absolute URL: what follows the first slash behind scheme and authority, without
query and fragment. -/
def urlPath? (url : List Char) : Option (List Char) :=
  let location := (behind? "://".toList url).getD url
  (splitOnce '/' location).map fun (_, path) => path.takeWhile fun c => c != '?' && c != '#'

/-- The URL for a subscription: slashes at the end of the root do not count. -/
def urlFor (apiRoot : String) (key : SubscriptionKey) : List Char :=
  (apiRoot.toList.reverse.dropWhile (· == '/')).reverse ++ '/' :: resource.toList ++
    '/' :: Decimal.digits key

def ofKey (server : Nat) (apiRoot : String) (key : SubscriptionKey) : NotificationEndpoint :=
  let url := urlFor apiRoot key
  { server, url := String.ofList url, path := (urlPath? url).map String.ofList }

/-- Whether a request for `path` on `server` is sent here. The path may start with a slash. -/
def isAt (e : NotificationEndpoint) (server : Nat) (path : String) : Bool :=
  let asked := match path.toList with
    | '/' :: rest => rest
    | cs => cs
  e.server = server && asked = (e.path.getD "").toList

end NotificationEndpoint

end MbsClient
