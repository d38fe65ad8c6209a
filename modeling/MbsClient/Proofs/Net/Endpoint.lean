import Mathlib.Data.List.TakeWhile
import MbsClient.Endpoint

/-!
# Endpoints — whether a path leads back to the key

The URL for a key is the configured root with the segments for the key behind it. Where the root has
a query or a fragment behind its path, these segments are no part of the path, and all keys have one
path in common. Else no two keys have the same path (`urlPath?_urlFor_inj`).
-/

namespace MbsClient

namespace Text

-- A separator is found in front of the one that is there.
theorem splitOnce_append_sep (sep : Char) (cs behind : List Char) :
    splitOnce sep (cs ++ sep :: behind) =
      some (((splitOnce sep cs).map fun (before, rest) => (before, rest ++ sep :: behind)).getD
        (cs, behind)) := by
  induction cs with
  | nil => simp [splitOnce]
  | cons c cs ih =>
    by_cases hc : c = sep
    · simp [splitOnce, hc]
    · rw [List.cons_append, splitOnce, if_neg hc, ih, splitOnce, if_neg hc]
      cases splitOnce sep cs <;> rfl

end Text

namespace NotificationEndpoint

open Text

/-! ## 1. Parts of a URL -/

/-- A root without the slashes at its end. -/
def base (apiRoot : String) : List Char :=
  (apiRoot.toList.reverse.dropWhile (· == '/')).reverse

/-- What the URL for a key has behind the root. -/
def segments (key : SubscriptionKey) : List Char := resource.toList ++ '/' :: Decimal.digits key

/-- A URL from its authority on. -/
def location (url : List Char) : List Char := (behind? "://".toList url).getD url

/-- Neither a query nor a fragment starts here. -/
def isPathChar (c : Char) : Bool := c != '?' && c != '#'

/-- What follows the authority of a root, with whatever the root has behind its path. -/
def rootPath (apiRoot : String) : List Char :=
  ((splitOnce '/' (location (base apiRoot))).map fun (_, path) => path ++ ['/']).getD []

/-- The path of the root has no query and no fragment behind it. -/
def isPlain (apiRoot : String) : Bool := (rootPath apiRoot).all isPathChar

theorem urlFor_eq (apiRoot : String) (key : SubscriptionKey) :
    urlFor apiRoot key = base apiRoot ++ '/' :: segments key := by
  simp only [urlFor, base, segments, List.append_assoc, List.cons_append]

theorem getLast?_base (apiRoot : String) : (base apiRoot).getLast? ≠ some '/' := by
  rw [base, List.getLast?_reverse]
  intro h
  have hkept := List.head?_dropWhile_not (· == '/') apiRoot.toList.reverse
  rw [h] at hkept
  exact absurd hkept (by decide)

theorem mem_segments {key : SubscriptionKey} {c : Char} (h : c ∈ segments key) :
    c ∈ resource.toList ∨ c = '/' ∨ c.isDigit = true := by
  rcases List.mem_append.1 h with h | h
  · exact .inl h
  · exact .inr ((List.mem_cons.1 h).imp_right Decimal.isDigit_of_mem_digits)

theorem isPathChar_of_mem_segments {key : SubscriptionKey} {c : Char} (h : c ∈ segments key) :
    isPathChar c = true := by
  rcases mem_segments h with h | rfl | h
  · have hall : resource.toList.all isPathChar = true := by decide
    exact List.all_eq_true.1 hall c h
  · rfl
  · rw [isPathChar, Bool.and_eq_true, bne_iff_ne, bne_iff_ne]
    exact ⟨fun hc => by simp [hc] at h, fun hc => by simp [hc] at h⟩

theorem colon_not_mem_segments (key : SubscriptionKey) : ':' ∉ segments key := by
  intro h
  rcases mem_segments h with h | h | h
  · exact absurd h (by decide)
  · exact absurd h (by decide)
  · exact absurd h (by decide)

theorem segments_inj {key key' : SubscriptionKey} : segments key = segments key' ↔ key = key' := by
  refine ⟨fun h => ?_, congrArg segments⟩
  exact Decimal.digits_injective (List.cons.inj (List.append_cancel_left h)).2

/-! ## 2. Where the authority starts -/

theorem behind?_of_not_mem {cs : List Char} (h : ':' ∉ cs) : behind? "://".toList cs = none := by
  induction cs with
  | nil => rfl
  | cons c cs ih =>
    have hc : ':' ≠ c := fun hc => h (hc ▸ List.mem_cons_self)
    have hhere : afterStart? "://".toList (c :: cs) = none := if_neg hc
    rw [behind?, hhere, ih fun hmem => h (List.mem_cons_of_mem c hmem)]

-- No scheme ends where a root and a segment meet.
theorem afterStart?_append_slash {cs rest : List Char} (hcs : cs ≠ [])
    (hlast : cs.getLast? ≠ some '/') (hrest : rest.head? ≠ some '/') :
    afterStart? "://".toList (cs ++ '/' :: rest) =
      (afterStart? "://".toList cs).map (· ++ '/' :: rest) := by
  rw [show "://".toList = [':', '/', '/'] from rfl]
  match cs with
  | [] => exact absurd rfl hcs
  | [c] =>
    have hnone : afterStart? ['/'] rest = none := by
      cases rest with
      | nil => rfl
      | cons d rest => exact if_neg fun hd : '/' = d => hrest (hd ▸ rfl)
    simp [afterStart?, hnone]
  | [c, d] =>
    have hd : '/' ≠ d := fun hd => hlast (hd ▸ rfl)
    simp [afterStart?, hd]
  | c :: d :: e :: cs =>
    simp only [List.cons_append, afterStart?]
    repeat' split
    all_goals rfl

theorem behind?_append_slash {cs rest : List Char} (hlast : cs.getLast? ≠ some '/')
    (hrest : rest.head? ≠ some '/') (hcolon : ':' ∉ rest) :
    behind? "://".toList (cs ++ '/' :: rest) =
      (behind? "://".toList cs).map (· ++ '/' :: rest) := by
  induction cs with
  | nil => exact behind?_of_not_mem (by simpa using hcolon)
  | cons c cs ih =>
    have hhere := afterStart?_append_slash (List.cons_ne_nil c cs) hlast hrest
    have hthere := ih fun h => hlast (by rw [List.getLast?_cons, h]; rfl)
    rw [List.cons_append, behind?, ← List.cons_append, hhere, hthere, behind?]
    cases afterStart? "://".toList (c :: cs) <;> rfl

theorem location_urlFor (apiRoot : String) (key : SubscriptionKey) :
    location (urlFor apiRoot key) = location (base apiRoot) ++ '/' :: segments key := by
  have hhead : (segments key).head? ≠ some '/' := by
    rw [show (segments key).head? = some 'm' from rfl]
    decide
  rw [location, urlFor_eq,
    behind?_append_slash (getLast?_base apiRoot) hhead (colon_not_mem_segments key), location]
  cases behind? "://".toList (base apiRoot) <;> rfl

/-! ## 3. Paths -/

-- The path ends where a query or a fragment starts.
theorem urlPath?_urlFor (apiRoot : String) (key : SubscriptionKey) :
    urlPath? (urlFor apiRoot key) =
      some ((rootPath apiRoot ++ segments key).takeWhile isPathChar) := by
  have hpath : urlPath? (urlFor apiRoot key) =
      (splitOnce '/' (location (urlFor apiRoot key))).map fun (_, path) =>
        path.takeWhile isPathChar := rfl
  rw [hpath, location_urlFor, splitOnce_append_sep, Option.map_some, rootPath]
  cases splitOnce '/' (location (base apiRoot)) with
  | none => rfl
  | some parts => simp

theorem takeWhile_of_isPlain {apiRoot : String} (h : isPlain apiRoot = true)
    (key : SubscriptionKey) :
    (rootPath apiRoot ++ segments key).takeWhile isPathChar = rootPath apiRoot ++ segments key :=
  List.takeWhile_eq_self_iff.2 fun _ hc =>
    (List.mem_append.1 hc).elim (List.all_eq_true.1 h _) isPathChar_of_mem_segments

theorem takeWhile_of_not_isPlain {apiRoot : String} (h : isPlain apiRoot = false)
    (key : SubscriptionKey) :
    (rootPath apiRoot ++ segments key).takeWhile isPathChar =
      (rootPath apiRoot).takeWhile isPathChar := by
  have hcut : ((rootPath apiRoot).takeWhile isPathChar).length ≠ (rootPath apiRoot).length := by
    intro hlength
    have hall := List.takeWhile_eq_self_iff.1
      ((List.takeWhile_prefix isPathChar).eq_of_length hlength)
    exact Bool.false_ne_true (h.symm.trans (List.all_eq_true.2 hall))
  rw [List.takeWhile_append, if_neg hcut]

/-- **The path leads back to the key** unless the root has a query or a fragment behind its path;
then it is the same for all keys. -/
theorem urlPath?_urlFor_inj {apiRoot : String} {key key' : SubscriptionKey} :
    urlPath? (urlFor apiRoot key) = urlPath? (urlFor apiRoot key') ↔
      key = key' ∨ isPlain apiRoot = false := by
  rw [urlPath?_urlFor, urlPath?_urlFor, Option.some_inj]
  cases h : isPlain apiRoot with
  | true =>
    rw [takeWhile_of_isPlain h, takeWhile_of_isPlain h, List.append_cancel_left_eq, segments_inj]
    simp
  | false => simp [takeWhile_of_not_isPlain h]

example : isPlain "http://10.0.0.5:7777/mbs/" = true := by decide

/-- The path that a request to the endpoint is for. -/
def target (e : NotificationEndpoint) : String := "/" ++ e.path.getD ""

theorem isAt_ofKey_iff (server : Nat) {apiRoot : String} {key key' : SubscriptionKey} :
    (ofKey server apiRoot key').isAt server (ofKey server apiRoot key).target = true ↔
      key = key' ∨ isPlain apiRoot = false := by
  rw [← urlPath?_urlFor_inj, urlPath?_urlFor, urlPath?_urlFor, Option.some_inj]
  simp [isAt, ofKey, target, urlPath?_urlFor]

end NotificationEndpoint

end MbsClient
