import Mathlib.Data.List.Induction
import Mathlib.Data.List.TakeWhile
import MbsClient.Answer

/-!
# Locations — which part of a URI is taken for an id

An id is read off the last text between slashes, and no part of the URI is set aside before it is
looked for but what follows the path. So where the path names nothing, the authority comes last and
is taken for an id. A colon marks what is no id: there is one behind the scheme and in front of a
port, but there may be one in a segment as well (`AbsoluteUri.resourceIdOfUri?_text`).
-/

namespace MbsClient

/-! ## 1. Segments -/

/-- The texts between the slashes of a path, without the empty ones. -/
def segments (path : List Char) : List (List Char) :=
  (path.splitOn '/').filter fun segment => !segment.isEmpty

theorem segments_append_slash (before behind : List Char) :
    segments (before ++ '/' :: behind) = segments before ++ segments behind := by
  simp only [segments, List.splitOn_eq_splitOnP]
  rw [List.splitOnP_append_cons (p := (· == '/')) before behind rfl, List.filter_append]

theorem segments_of_not_mem {cs : List Char} (h : '/' ∉ cs) :
    segments cs = if cs.isEmpty then [] else [cs] := by
  have hsingle : cs.splitOn '/' = [cs] := by
    apply List.splitOn_eq_singleton_of_beq_eq_false
    intro c hc
    exact beq_false_of_ne (ne_of_mem_of_not_mem hc h)
  rw [segments, hsingle]
  cases cs <;> rfl

theorem ne_nil_of_mem_segments {path segment : List Char} (h : segment ∈ segments path) :
    segment ≠ [] := by
  have hkept := (List.mem_filter.1 h).2
  simpa using hkept

-- The texts between the last slash and the end.
theorem takeWhile_reverse_concat (before : List Char) {rest : List Char} {c : Char} (hc : c ≠ '/')
    (hrest : '/' ∉ rest) (hbefore : ∀ a ∈ before.head?, a = '/') :
    (c :: (rest.reverse ++ before)).takeWhile (· != '/') = c :: rest.reverse := by
  have hkept : ∀ a ∈ c :: rest.reverse, (a != '/') = true := by
    intro a ha
    rcases List.mem_cons.1 ha with rfl | ha
    · exact bne_iff_ne.2 hc
    · exact bne_iff_ne.2 (ne_of_mem_of_not_mem (List.mem_reverse.1 ha) hrest)
  rw [← List.cons_append, List.takeWhile_append_of_pos hkept]
  cases before with
  | nil => simp
  | cons a before => simp [hbefore a rfl]

-- What is left of a path in front of the slashes at its end, back to the slash before it.
theorem lastPart_eq (path : List Char) :
    ((path.reverse.dropWhile (· == '/')).takeWhile (· != '/')).reverse =
      (segments path).getLast?.getD [] := by
  induction path using List.reverseRecOn with
  | nil => rfl
  | append_singleton path c ih =>
    rw [List.reverse_append, List.reverse_singleton, List.singleton_append]
    by_cases hc : c = '/'
    · have hslash := segments_append_slash path []
      rw [hc, List.dropWhile_cons_of_pos (p := (· == '/')) rfl, ih, hslash]
      simp [segments]
    · rw [List.dropWhile_cons_of_neg (by simpa using hc)]
      by_cases hpath : '/' ∈ path
      · -- the last segment starts behind the last slash
        obtain ⟨as, bs, heq, has⟩ := List.eq_append_cons_of_mem (List.mem_reverse.2 hpath)
        have hpath' : path = bs.reverse ++ '/' :: as.reverse := by
          rw [← List.reverse_reverse path, heq]
          simp
        have hrest : '/' ∉ as.reverse := fun h => has (List.mem_reverse.1 h)
        have hlast : '/' ∉ as.reverse ++ [c] := by simp [has, Ne.symm hc]
        have htake := takeWhile_reverse_concat ('/' :: bs) hc hrest (by simp)
        rw [List.reverse_reverse] at htake
        rw [heq, htake, hpath', List.append_assoc, List.cons_append, segments_append_slash,
          segments_of_not_mem hlast]
        simp
      · have hlast : '/' ∉ path ++ [c] := by simp [hpath, Ne.symm hc]
        have htake := takeWhile_reverse_concat [] hc hpath (by simp)
        rw [List.append_nil] at htake
        rw [htake, segments_of_not_mem hlast]
        simp

/-- What is taken for an id: the last segment of what stands in front of a query and a fragment. -/
theorem resourceIdOfUri?_eq (uri : String) :
    resourceIdOfUri? uri =
      ((segments (uri.toList.takeWhile fun c => c != '?' && c != '#')).getLast?.filter
        fun segment => !segment.contains ':').map String.ofList := by
  simp only [resourceIdOfUri?, lastPart_eq]
  generalize uri.toList.takeWhile _ = path
  cases hlast : (segments path).getLast? with
  | none => rfl
  | some segment =>
    have hne : segment ≠ [] := ne_nil_of_mem_segments (List.mem_of_getLast? hlast)
    by_cases hcolon : ':' ∈ segment <;> simp [Option.filter, hne, hcolon]

/-! ## 2. URIs with an authority -/

/-- `scheme://authority`, a path, and perhaps a query and a fragment. -/
structure AbsoluteUri where
  scheme : List Char
  authority : List Char
  path : List Char
  query : Option (List Char)
  fragment : Option (List Char)
  scheme_plain : ∀ c ∈ scheme, c ∉ [':', '/', '?', '#']
  authority_plain : ∀ c ∈ authority, c ∉ ['/', '?', '#']
  /-- A path is empty or starts with a slash. -/
  path_rooted : ∀ c ∈ path.head?, c = '/'
  path_plain : ∀ c ∈ path, c ∉ ['?', '#']
  query_plain : ∀ q ∈ query, '#' ∉ q

namespace AbsoluteUri

/-- The URI up to its query and fragment. -/
def hierarchy (u : AbsoluteUri) : List Char := u.scheme ++ "://".toList ++ u.authority ++ u.path

def text (u : AbsoluteUri) : String :=
  String.ofList (u.hierarchy ++ (u.query.map ('?' :: ·)).getD [] ++
    (u.fragment.map ('#' :: ·)).getD [])

/-- What an id is to be read off: the last segment of the path that is not empty. -/
def lastSegment? (u : AbsoluteUri) : Option (List Char) := (segments u.path).getLast?

/-- What comes last in the path, or where the path names nothing, in the authority. -/
def lastNamed? (u : AbsoluteUri) : Option (List Char) :=
  u.lastSegment?.or (if u.authority.isEmpty then none else some u.authority)

variable (u : AbsoluteUri)

theorem mem_hierarchy {c : Char} (h : c ∈ u.hierarchy) : (c != '?' && c != '#') = true := by
  have hplain : c ∉ ['?', '#'] := by
    simp only [hierarchy, List.mem_append] at h
    rcases h with ((h | h) | h) | h
    · exact fun hc => u.scheme_plain c h (List.mem_cons_of_mem _ (List.mem_cons_of_mem _ hc))
    · intro hc
      have hall : ∀ c ∈ "://".toList, c ∉ ['?', '#'] := by simp
      exact hall c h hc
    · exact fun hc => u.authority_plain c h (List.mem_cons_of_mem _ hc)
    · exact u.path_plain c h
  simpa using hplain

theorem takeWhile_text :
    u.text.toList.takeWhile (fun c => c != '?' && c != '#') = u.hierarchy := by
  rw [text, String.toList_ofList, List.append_assoc,
    List.takeWhile_append_of_pos fun _ hc => u.mem_hierarchy hc]
  cases u.query with
  | some query => simp
  | none => cases u.fragment <;> simp

theorem segments_hierarchy :
    segments u.hierarchy = [u.scheme ++ [':']] ++
      (if u.authority.isEmpty then [] else [u.authority]) ++ segments u.path := by
  have hscheme : '/' ∉ u.scheme ++ [':'] := by
    intro h
    rcases List.mem_append.1 h with h | h
    · exact u.scheme_plain _ h (by decide)
    · exact absurd h (by decide)
  have hauthority : '/' ∉ u.authority := fun h => u.authority_plain _ h (by decide)
  have hrest : segments (u.authority ++ u.path) =
      (if u.authority.isEmpty then [] else [u.authority]) ++ segments u.path := by
    cases hpath : u.path with
    | nil =>
      rw [List.append_nil, segments_of_not_mem hauthority]
      simp [segments]
    | cons c rest =>
      obtain rfl : c = '/' := u.path_rooted c (by rw [hpath]; rfl)
      have hrooted := segments_append_slash [] rest
      rw [List.nil_append] at hrooted
      rw [segments_append_slash, segments_of_not_mem hauthority, hrooted]
      simp [segments]
  calc segments u.hierarchy
      = segments ((u.scheme ++ [':']) ++ '/' :: ([] ++ '/' :: (u.authority ++ u.path))) := by
        simp [hierarchy]
    _ = [u.scheme ++ [':']] ++ segments (u.authority ++ u.path) := by
        rw [segments_append_slash, segments_append_slash, segments_of_not_mem hscheme]
        simp [segments]
    _ = _ := by rw [hrest, List.append_assoc]

/-- The part that comes last is taken for the id, if it holds no colon. -/
theorem resourceIdOfUri?_text :
    resourceIdOfUri? u.text =
      (u.lastNamed?.filter fun segment => !segment.contains ':').map String.ofList := by
  rw [resourceIdOfUri?_eq, takeWhile_text, segments_hierarchy, List.getLast?_append, lastNamed?,
    lastSegment?]
  congr 1
  cases (segments u.path).getLast? with
  | some segment => rfl
  | none => cases u.authority <;> simp

end AbsoluteUri

/-! ## 3. Answers -/

namespace Response

/-- An answer that says where its resource is, and nothing else. -/
def located (location : String) : Response := { location := some location, body := none }

/-- What it means for a session, if this is the id. -/
def session (location : String) : Option (List Char) → Except Error SessionCreated
  | some id => .ok { resourceId := String.ofList id }
  | none => .error (.answer (.noResourceId location))

/-- What it means for a subscription, if this is the id. -/
def subscription (location : String) : Option (List Char) → Except Error SubscriptionAck
  | some id => .ok { id := String.ofList id }
  | none => .error (.answer (.noSubscriptionId location))

theorem session_injective (location : String) : Function.Injective (session location) := by
  intro a b h
  cases a <;> cases b <;> simp_all [session, String.ofList_inj]

theorem ofResponse_session (location : String) {id? : Option (List Char)}
    (h : resourceIdOfUri? location = id?.map String.ofList) :
    SessionCreated.ofResponse (.located location) = session location id? := by
  simp only [SessionCreated.ofResponse, Response.located, h]
  cases id? <;> rfl

theorem ofResponse_subscription (location : String) {id? : Option (List Char)}
    (h : resourceIdOfUri? location = id?.map String.ofList) :
    SubscriptionAck.ofResponse (.located location) = subscription location id? := by
  simp only [SubscriptionAck.ofResponse, Response.located, h]
  cases id? <;> rfl

end Response

namespace AbsoluteUri

/-- Answers at this location are read as the path of the location says. -/
def ReadByPath (u : AbsoluteUri) : Prop :=
  SessionCreated.ofResponse (.located u.text) = Response.session u.text u.lastSegment? ∧
    SubscriptionAck.ofResponse (.located u.text) = Response.subscription u.text u.lastSegment?

/-- What is taken for the id. -/
def taken? (u : AbsoluteUri) : Option (List Char) :=
  u.lastNamed?.filter fun segment => !segment.contains ':'

variable (u : AbsoluteUri)

theorem readByPath_iff_taken? : u.ReadByPath ↔ u.taken? = u.lastSegment? := by
  rw [ReadByPath, Response.ofResponse_session u.text u.resourceIdOfUri?_text,
    Response.ofResponse_subscription u.text u.resourceIdOfUri?_text]
  refine ⟨fun h => Response.session_injective _ h.1, fun h => ?_⟩
  rw [← h]
  exact ⟨rfl, rfl⟩

theorem taken?_eq_lastSegment?_iff :
    u.taken? = u.lastSegment? ↔
      (∀ segment ∈ u.lastSegment?, ':' ∉ segment) ∧
        (u.lastSegment? = none → u.authority = [] ∨ ':' ∈ u.authority) := by
  rw [taken?, lastNamed?]
  cases u.lastSegment? with
  | some segment => by_cases h : ':' ∈ segment <;> simp [Option.filter, h]
  | none =>
    by_cases hempty : u.authority = []
    · simp [hempty]
    · by_cases h : ':' ∈ u.authority <;> simp [Option.filter, hempty, h]

end AbsoluteUri

/-- What an answer without a body says of its resource. The last text between slashes is the id,
the authority counting as one, unless it holds a colon: then there is no id, and the answer breaks
the protocol. So the id is the last segment of the path, and is missing where the path has none,
exactly if that segment has no colon, and without a segment the authority has one or is empty. -/
theorem location_read_by_path_iff (u : AbsoluteUri) :
    SessionCreated.ofResponse (.located u.text) = Response.session u.text u.taken? ∧
      SubscriptionAck.ofResponse (.located u.text) = Response.subscription u.text u.taken? ∧
      (u.ReadByPath ↔ (∀ segment ∈ u.lastSegment?, ':' ∉ segment) ∧
        (u.lastSegment? = none → u.authority = [] ∨ ':' ∈ u.authority)) :=
  ⟨Response.ofResponse_session u.text u.resourceIdOfUri?_text,
    Response.ofResponse_subscription u.text u.resourceIdOfUri?_text,
    u.readByPath_iff_taken?.trans u.taken?_eq_lastSegment?_iff⟩

/-- A host without a path. -/
def bareHost : AbsoluteUri where
  scheme := "http".toList
  authority := "mbsmf".toList
  path := []
  query := none
  fragment := none
  scheme_plain := by simp
  authority_plain := by simp
  path_rooted := by simp
  path_plain := by simp
  query_plain := by simp

/-- A resource that is named with a colon. -/
def urnNamed : AbsoluteUri where
  scheme := "http".toList
  authority := "mbsmf:7777".toList
  path := "/mbs-sessions/urn:42/".toList
  query := none
  fragment := some []
  scheme_plain := by simp
  authority_plain := by simp
  path_rooted := by simp
  path_plain := by simp
  query_plain := by simp

/-- The host is taken for an id, and the name is not. -/
theorem location_misread_bareHost :
    (bareHost.text = "http://mbsmf" ∧ bareHost.lastSegment? = none ∧
      SessionCreated.ofResponse (.located bareHost.text) = .ok { resourceId := "mbsmf" } ∧
      ¬ bareHost.ReadByPath) ∧
    urnNamed.lastSegment? = some "urn:42".toList ∧ ¬ urnNamed.ReadByPath := by
  have hhost := location_read_by_path_iff bareHost
  have hurn := location_read_by_path_iff urnNamed
  have hnone : bareHost.lastSegment? = none := by decide
  have hsome : urnNamed.lastSegment? = some "urn:42".toList := by decide
  refine ⟨⟨by decide, hnone, hhost.1.trans ?_, ?_⟩, hsome, ?_⟩
  · have htaken : bareHost.taken? = some "mbsmf".toList := by decide
    rw [htaken]
    rfl
  · rw [hhost.2.2]
    exact fun h => absurd (h.2 hnone) (by decide)
  · rw [hurn.2.2, hsome]
    exact fun h => absurd (h.1 _ rfl) (by decide)

end MbsClient
