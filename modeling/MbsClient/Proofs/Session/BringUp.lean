import MbsClient.Proofs.Session.Pending
import MbsClient.Proofs.Session.Simulation

/-!
# Bringing up — a fresh session that is granted all it asks for

A fresh session is created with its first subscription (`push_of_fresh`). Once the creation has been
granted, the next push creates the other subscriptions (`push_of_granted`), and when these have been
granted as well, nothing is left to send (`push_of_settled`).
-/

namespace MbsClient

-- What the MB-SMF allocates is no part of the area of service.
theorem MbsSession.noNaN_withAllocated {r : MbsSession} (h : r.NoNaN) (tmgi : Option Tmgi) :
    (r.withAllocated tmgi).NoNaN := by
  cases tmgi <;> exact h

namespace Session

/-! ## 1. Fresh sessions -/

/-- Nothing has been sent of the session or its subscriptions. -/
structure Fresh (s : Session) : Prop where
  kept : s.deleted = false
  remote : s.remote = .absent
  dirty : s.dirty = true
  once : (s.pendingNew.map Subscription.key).Nodup
  due : ∀ sub ∈ s.pendingNew, sub.isDue = true

/-- The request that creates a session with its first subscription. -/
def creation (config : ClientConfig) (s : Session) : Intent :=
  .createResource s.key s.data (s.pendingNew.head?.map fun sub =>
    ⟨sub.key, (sub.sendCreate s.data.mbsSessionId config.notificationServers).data⟩)

/-- The session after that request. -/
def asked (config : ClientConfig) (s : Session) : Session :=
  { s with
    pendingNew := s.pendingNew.modifyHead
      (Subscription.sendCreate s.data.mbsSessionId config.notificationServers)
    dirty := false
    remote := .creating s.data (s.pendingNew.head?.map Subscription.key) }

theorem bundleFirst_of_due (sessionId : MbsSessionId) (servers : List NotificationServer)
    {subs : List Subscription} (h : ∀ sub ∈ subs, sub.isDue = true) :
    bundleFirst sessionId servers subs =
      (subs.head?.map fun sub => ⟨sub.key, (sub.sendCreate sessionId servers).data⟩,
        subs.modifyHead (Subscription.sendCreate sessionId servers)) := by
  cases subs with
  | nil => rfl
  | cons sub rest =>
    rw [bundleFirst, if_pos (h sub List.mem_cons_self)]
    rfl

theorem push_of_fresh {s : Session} (h : s.Fresh) (config : ClientConfig) :
    s.push config = (some (s.asked config), [s.creation config]) := by
  have hcreate : s.create config = (s.asked config, s.creation config) := by
    rw [create, bundleFirst_of_due _ _ h.due, asked, creation]
    simp [Function.comp_def]
  rw [push, h.kept, h.remote, h.dirty, hcreate]
  rfl

theorem subscriptionKeys_of_fresh {s : Session} (h : s.Fresh) :
    s.subscriptionKeys = s.pendingNew.map Subscription.key :=
  subscriptionKeys_of_resource?_none (by rw [resource?, h.remote]; rfl)

theorem subscriptionKeys_asked {s : Session} (h : s.Fresh) (config : ClientConfig) :
    (s.asked config).subscriptionKeys = s.subscriptionKeys := by
  rw [subscriptionKeys_of_fresh h, subscriptionKeys_of_resource?_none rfl, newKeys, asked]
  cases s.pendingNew <;> rfl

theorem waitingFor?_asked {s : Session} (h : s.Fresh) (config : ClientConfig) :
    (s.asked config).waitingFor? = some (s.data, s.pendingNew.head?.map Subscription.key) := by
  simp only [waitingFor?, asked, h.kept]

/-! ## 2. Granted sessions -/

/-- A session has come of a fresh one: it is registered as it is, but for an allocated TMGI, and
has the same subscriptions, of which the active ones have nothing to send and wait for nothing. -/
structure Granted (s t : Session) (r : Resource) : Prop where
  key : t.key = s.key
  kept : t.deleted = false
  remote : t.remote = .registered r
  data : ∃ tmgi, t.data = s.data.withAllocated tmgi
  acked : r.acked = t.data
  identity : t.identity = t.data.mbsSessionId
  patching : r.patching = none
  leaving : r.pendingDelete = []
  wanted : (t.pendingNew.map Subscription.key ++ r.active.values.map Subscription.key).Perm
    (s.pendingNew.map Subscription.key)
  settled : ∀ sub ∈ r.active.values, sub.dirty = false ∧ sub.inFlight = none

namespace Granted

variable {s t : Session} {r : Resource}

theorem identityChanged (h : Granted s t r) : t.identityChanged = false := by
  rw [Session.identityChanged, h.identity, bne_self_eq_false]

theorem mem_subscriptionKeys (h : Granted s t r) (hs : s.Fresh) {k : SubscriptionKey} :
    k ∈ t.subscriptionKeys ↔ k ∈ s.subscriptionKeys := by
  rw [subscriptionKeys_of_fresh hs, ← h.wanted.mem_iff, subscriptionKeys_of_registered h.remote,
    Resource.subscriptionKeys, h.leaving, List.map_nil, List.append_nil]
  rfl

theorem nodup_newKeys (h : Granted s t r) (hs : s.Fresh) :
    (t.pendingNew.map Subscription.key).Nodup :=
  (List.nodup_append.1 (h.wanted.nodup_iff.2 hs.once)).1

end Granted

/-- The answer to the creation of a session, with ids for it and for its first subscription. -/
def grant (s : Session) (id subscriptionId : String) (tmgi : Option Tmgi) : SessionCreated :=
  { resourceId := id, tmgi, subscriptionId := s.pendingNew.head?.map fun _ => subscriptionId }

-- An allocated TMGI is filled in, since the record has none.
theorem data_of_grant {s : Session} {tmgi : Option Tmgi}
    (htmgi : tmgi.isSome = true → s.data.tmgi = none) :
    (if s.data.tmgi.isNone then s.data.withAllocated tmgi else s.data) =
      s.data.withAllocated tmgi := by
  cases tmgi with
  | none => exact ite_self _
  | some allocated => rw [htmgi rfl]; rfl

-- Of the new subscriptions the first is registered, and the others make the session dirty.
theorem created_of_first {t : Session} (body : MbsSession) {sent : Subscription}
    {rest : List Subscription} (hnew : t.pendingNew = sent :: rest)
    (hothers : ∀ other ∈ rest, other.key ≠ sent.key) (hclean : t.dirty = false)
    (hsent : sent.dirty = false) (hdue : ∀ other ∈ rest, other.dirty = true)
    {answer : SessionCreated} {id : String} (hid : answer.subscriptionId = some id) :
    (t.created body (some sent.key) answer).1 = { t with
      data := if t.data.tmgi.isNone then t.data.withAllocated answer.tmgi else t.data
      remote := .registered
        { id := answer.resourceId, acked := body.withAllocated answer.tmgi,
          active := SortedMap.empty.insert id (sent.confirmCreate id none) }
      dirty := !rest.isEmpty
      identity := (body.withAllocated answer.tmgi).mbsSessionId
      pendingNew := rest
      ingressTunAddrs := answer.ingressTunAddrs
      expirationTime := answer.expirationTime } := by
  have hfind : t.pendingNew.find? (fun other => other.key = sent.key) = some sent := by
    rw [hnew]
    exact List.find?_cons_of_pos (by simp)
  have hfilter : t.pendingNew.filter (fun other => other.key != sent.key) = rest := by
    rw [hnew, List.filter_cons_of_neg (by simp)]
    exact List.filter_eq_self.2 fun other hother => bne_iff_ne.2 (hothers other hother)
  have hdirty : ((rest ++ [sent.confirmCreate id none]).any Subscription.dirty) =
      !rest.isEmpty := by
    have hconfirmed : (sent.confirmCreate id none).dirty = false := hsent
    rw [List.any_append, List.any_cons, hconfirmed]
    cases rest with
    | nil => rfl
    | cons other rest => rw [List.any_cons, hdue other List.mem_cons_self]; rfl
  have hvalues : (SortedMap.empty.insert id (sent.confirmCreate id none)).values =
      [sent.confirmCreate id none] := rfl
  simp only [created, Option.bind_some, hfind, hid, settleBundled, hfilter, hvalues, hdirty, hclean,
    Bool.false_or]

-- The first subscription is active, the others are still to be sent.
theorem created_of_answer {s : Session} (h : s.Fresh) (config : ClientConfig)
    {answer : SessionCreated} (htmgi : answer.tmgi.isSome = true → s.data.tmgi = none)
    {id : String} (hid : s.pendingNew ≠ [] → answer.subscriptionId = some id) :
    ∃ t r, ((s.asked config).created s.data (s.pendingNew.head?.map Subscription.key) answer).1 =
        t ∧ Granted s t r ∧ t.data = s.data.withAllocated answer.tmgi ∧ r.id = answer.resourceId ∧
      r.active.entries = (s.pendingNew.head?.map fun sub => (id,
        (sub.sendCreate s.data.mbsSessionId config.notificationServers).confirmCreate id
          none)).toList ∧
      t.pendingNew = s.pendingNew.tail ∧ t.dirty = !s.pendingNew.tail.isEmpty := by
  have hdata := data_of_grant htmgi
  cases hnew : s.pendingNew with
  | nil =>
    have hcreated : ((s.asked config).created s.data none answer).1 =
        { s with
          data := s.data.withAllocated answer.tmgi
          remote := .registered
            { id := answer.resourceId, acked := s.data.withAllocated answer.tmgi }
          dirty := false
          identity := (s.data.withAllocated answer.tmgi).mbsSessionId
          pendingNew := []
          ingressTunAddrs := answer.ingressTunAddrs
          expirationTime := answer.expirationTime } := by
      simp only [created, asked, hdata, hnew]
      rfl
    exact ⟨_, _, hcreated, ⟨rfl, h.kept, rfl, ⟨answer.tmgi, rfl⟩, rfl, rfl, rfl, rfl,
      by rw [hnew]; rfl, fun _ hsub => absurd hsub List.not_mem_nil⟩, rfl, rfl, rfl, rfl, rfl⟩
  | cons sub rest =>
    have hdue : ∀ other ∈ rest, other.dirty = true := fun other hother =>
      (Bool.and_eq_true_iff.1 (h.due other (by rw [hnew]; exact List.mem_cons_of_mem _ hother))).1
    have hothers : ∀ other ∈ rest, other.key ≠ sub.key := by
      have honce := h.once
      rw [hnew, List.map_cons, List.nodup_cons] at honce
      intro other hother heq
      exact honce.1 (heq ▸ List.mem_map_of_mem hother)
    obtain ⟨sent, hsent⟩ :
        ∃ sent, sent = sub.sendCreate s.data.mbsSessionId config.notificationServers := ⟨_, rfl⟩
    have hkey : sent.key = sub.key := by rw [hsent]; rfl
    have hclean : sent.dirty = false := by rw [hsent]; rfl
    have hasked : (s.asked config).pendingNew = sent :: rest := by
      rw [asked, hnew, List.modifyHead_cons, hsent]
    have hcreated := created_of_first s.data hasked
      (fun other hother => by rw [hkey]; exact hothers other hother) rfl hclean hdue
      (hid (by rw [hnew]; exact List.cons_ne_nil sub rest))
    rw [hkey] at hcreated
    refine ⟨_, _, hcreated, ⟨rfl, h.kept, rfl, ⟨answer.tmgi, hdata⟩, hdata.symm,
      congrArg MbsSession.mbsSessionId hdata.symm, rfl, rfl, ?_, ?_⟩, hdata, rfl, ?_, rfl, rfl⟩
    · show (rest.map Subscription.key ++ [sent.key]).Perm _
      rw [hnew, hkey]
      exact List.perm_append_singleton _ _
    · intro other hother
      have hother : other ∈ [sent.confirmCreate id none] := hother
      rw [List.mem_singleton.1 hother]
      exact ⟨hclean, rfl⟩
    · rw [hsent]
      rfl

-- The same where ids are handed out one after the other.
theorem created_of_asked {s : Session} (h : s.Fresh) (config : ClientConfig)
    (id subscriptionId : String) {tmgi : Option Tmgi}
    (htmgi : tmgi.isSome = true → s.data.tmgi = none) :
    ∃ t r, ((s.asked config).created s.data (s.pendingNew.head?.map Subscription.key)
        (s.grant id subscriptionId tmgi)).1 = t ∧
      Granted s t r ∧ r.id = id ∧
      r.active.keys = (s.pendingNew.head?.map fun _ => subscriptionId).toList ∧
      t.pendingNew = s.pendingNew.tail ∧ t.dirty = !s.pendingNew.tail.isEmpty := by
  have hid : s.pendingNew ≠ [] →
      (s.grant id subscriptionId tmgi).subscriptionId = some subscriptionId := by
    intro hnew
    rw [grant, List.head?_eq_some_head hnew]
    rfl
  have hallocated : (s.grant id subscriptionId tmgi).tmgi.isSome = true → s.data.tmgi = none :=
    htmgi
  obtain ⟨t, r, hcreated, hgranted, -, hr, hactive, hnew, hdirty⟩ :=
    created_of_answer h config hallocated hid
  refine ⟨t, r, hcreated, hgranted, hr, ?_, hnew, hdirty⟩
  rw [SortedMap.keys, hactive]
  cases s.pendingNew.head? <;> rfl

/-! ## 3. The other subscriptions -/

/-- The subscription as it is sent under a registered session. -/
def sentUnder (config : ClientConfig) (t : Session) (sub : Subscription) : Subscription :=
  sub.sendCreate t.data.mbsSessionId config.notificationServers

/-- The session after the requests for its new subscriptions. -/
def sentNew (config : ClientConfig) (t : Session) : Session :=
  { t with dirty := false, pendingNew := t.pendingNew.map (t.sentUnder config) }

theorem subscriptionKeys_sentNew (config : ClientConfig) (t : Session) :
    (t.sentNew config).subscriptionKeys = t.subscriptionKeys :=
  subscriptionKeys_congr (List.map_map ..) rfl

/-- The requests for the new subscriptions of a registered session. -/
def creations (config : ClientConfig) (t : Session) (id : String) (subs : List Subscription) :
    List Intent :=
  subs.map fun sub => .createSubscription t.key sub.key id (t.sentUnder config sub).data

theorem pushBody_of_granted {s t : Session} {r : Resource} (h : Granted s t r)
    (hnumbers : s.data.NoNaN) : t.pushBody r = (t, r, []) := by
  obtain ⟨tmgi, hdata⟩ := h.data
  have hsame : Diff.values r.acked t.data = [] := by
    rw [h.acked, hdata]
    exact Diff.values_self (MbsSession.edits_self (MbsSession.noNaN_withAllocated hnumbers tmgi))
  rw [pushBody, h.patching, hsame]

theorem pushSubscriptions_of_granted {s t : Session} {r : Resource} (h : Granted s t r)
    (hdue : ∀ sub ∈ t.pendingNew, sub.isDue = true) (config : ClientConfig) :
    t.pushSubscriptions config r =
      ({ t with pendingNew := t.pendingNew.map (t.sentUnder config) },
        t.creations config r.id t.pendingNew) := by
  have hpushNew : t.pendingNew.map (t.pushNew config r) = t.pendingNew.map fun sub =>
      (t.sentUnder config sub,
        [.createSubscription t.key sub.key r.id (t.sentUnder config sub).data]) :=
    List.map_congr_left fun sub hsub => by rw [pushNew, if_pos (hdue sub hsub)]; rfl
  obtain ⟨hactive, hsilent⟩ := active_of_not_due
    fun sub (hsub : sub ∈ r.active.values) => isDue_of_clean (h.settled sub hsub).1
  have hresource : { r with pendingDelete := [] } = r := by rw [← h.leaving]
  have hsession : ∀ pendingNew, { t with pendingNew, remote := .registered r } =
      { t with pendingNew } := by
    intro pendingNew
    rw [← h.remote]
  simp only [pushSubscriptions, hpushNew, hactive, hsilent, h.leaving, hresource, hsession,
    List.map_map, List.map_nil, List.append_nil, List.flatMap_map]
  exact congrArg (Prod.mk _) List.map_eq_flatMap.symm

-- Nothing is left of the body and of the active subscriptions.
theorem reconcile_of_granted {s t : Session} {r : Resource} (h : Granted s t r)
    (hdue : ∀ sub ∈ t.pendingNew, sub.isDue = true) {config : ClientConfig}
    (hnumbers : config.sessionBodyPatch = true → s.data.NoNaN) :
    t.reconcile config r = (t.sentNew config, t.creations config r.id t.pendingNew) := by
  have hclean : Granted s { t with dirty := false } r :=
    ⟨h.key, h.kept, h.remote, h.data, h.acked, h.identity, h.patching, h.leaving, h.wanted,
      h.settled⟩
  have hbody : (if config.sessionBodyPatch then pushBody { t with dirty := false } r
      else ({ t with dirty := false }, r, [])) = ({ t with dirty := false }, r, []) := by
    split
    · rename_i hpatches
      exact pushBody_of_granted hclean (hnumbers hpatches)
    · rfl
  have hsubs := pushSubscriptions_of_granted hclean hdue config
  simp only [reconcile, hbody, hsubs]
  rfl

-- A session that is clean has no new subscription, and the other way round.
theorem push_of_granted {s t : Session} {r : Resource} (h : Granted s t r)
    (hdue : ∀ sub ∈ t.pendingNew, sub.isDue = true) (hdirty : t.dirty = !t.pendingNew.isEmpty)
    {config : ClientConfig}
    (hnumbers : config.sessionBodyPatch = true → t.pendingNew ≠ [] → s.data.NoNaN) :
    t.push config = (some (t.sentNew config), t.creations config r.id t.pendingNew) := by
  have hpush : t.push config =
      if t.dirty then (some (t.reconcile config r).1, (t.reconcile config r).2)
      else (some t, []) := by
    simp only [push, h.kept, h.remote, h.identityChanged, Bool.false_eq_true, if_false]
  rw [hpush, hdirty]
  cases hnew : t.pendingNew with
  | nil =>
    have hclean : t.dirty = false := by rw [hdirty, hnew]; rfl
    have hself : t.sentNew config = t := by
      rw [sentNew, hnew, List.map_nil, ← hclean, ← hnew]
    rw [hself]
    rfl
  | cons sub rest =>
    have hnumbers : config.sessionBodyPatch = true → s.data.NoNaN := fun hpatches =>
      hnumbers hpatches (by rw [hnew]; exact List.cons_ne_nil sub rest)
    rw [reconcile_of_granted h hdue hnumbers, hnew]
    rfl

/-! ## 4. Their answers -/

-- The sent subscriptions of a granted session are new ones of the same keys.
theorem granted_sent {s t : Session} {r : Resource} (h : Granted s t r) (config : ClientConfig) :
    Granted s (t.sentNew config) r := by
  refine ⟨h.key, h.kept, h.remote, h.data, h.acked, h.identity, h.patching, h.leaving, ?_,
    h.settled⟩
  rw [sentNew, List.map_map]
  exact h.wanted

theorem perm_values_insert {κ ν : Type} [KeyOrder κ] [DecidableEq ν] {m : SortedMap κ ν} {k : κ}
    (h : k ∉ m.keys) (v : ν) : (m.insert k v).values.Perm (v :: m.values) := by
  rw [List.perm_iff_count]
  intro a
  have hcount := m.count_insert (fun v => [v]) a k v
  have hnone : m.get? k = none := by
    rw [← Option.not_isSome_iff_eq_none, SortedMap.isSome_get?]
    exact h
  rw [hnone] at hcount
  simp only [List.flatMap_singleton', Option.map_none, Option.getD_none, List.count_nil,
    Nat.add_zero] at hcount
  rw [hcount, List.count_cons, List.count_cons, List.count_nil, Nat.zero_add]

-- The first new subscription becomes active under the id that it is given.
theorem subscriptionCreated?_of_granted {s t : Session} {r : Resource} (h : Granted s t r)
    (hs : s.Fresh) {sub : Subscription} {rest : List Subscription}
    (hnew : t.pendingNew = sub :: rest) (hclean : t.dirty = false) (hsent : sub.dirty = false)
    (hwaits : sub.isInFlight = true) {id : String} (hid : id ∉ r.active.keys) :
    ∃ t' r' calls, t.subscriptionCreated? sub.key (.ok { id }) = some (t', calls) ∧
      Granted s t' r' ∧ t'.data = t.data ∧ r'.id = r.id ∧
      r'.active.keys.Perm (id :: r.active.keys) ∧ t'.pendingNew = rest ∧ t'.dirty = false := by
  have hfind : t.pendingNew.find? (fun other => other.key = sub.key && other.isInFlight) =
      some sub := by
    rw [hnew]
    exact List.find?_cons_of_pos (by simp [hwaits])
  have hothers : ∀ other ∈ rest, other.key ≠ sub.key := by
    have honce := h.nodup_newKeys hs
    rw [hnew, List.map_cons, List.nodup_cons] at honce
    intro other hother heq
    exact honce.1 (heq ▸ List.mem_map_of_mem hother)
  have hfilter : t.pendingNew.filter (fun other => other.key != sub.key) = rest := by
    rw [hnew, List.filter_cons_of_neg (by simp)]
    exact List.filter_eq_self.2 fun other hother => bne_iff_ne.2 (hothers other hother)
  have hconfirmed : (sub.confirmCreate id none).dirty = false := hsent
  have hvalues := perm_values_insert hid (sub.confirmCreate id none)
  refine ⟨{ t with
    pendingNew := rest
    remote := .registered { r with active := r.active.insert id (sub.confirmCreate id none) }
    dirty := false }, { r with active := r.active.insert id (sub.confirmCreate id none) },
    sub.report .ok, ?_, ⟨h.key, h.kept, rfl, h.data, h.acked, h.identity, h.patching, h.leaving, ?_,
      ?_⟩, rfl, rfl, SortedMap.perm_keys_insert hid _, rfl, rfl⟩
  · simp only [subscriptionCreated?, h.kept, h.remote, hfind, hfilter, hclean, hconfirmed,
      Bool.or_false]
  · refine List.Perm.trans ?_ h.wanted
    rw [hnew]
    exact (List.Perm.append_left _ (hvalues.map Subscription.key)).trans List.perm_middle
  · intro other hother
    rcases List.mem_cons.1 (hvalues.mem_iff.1 hother) with rfl | hother
    · exact ⟨hsent, rfl⟩
    · exact h.settled other hother

/-! ## 5. At rest -/

/-- A session has come of a fresh one and has nothing left to send or to wait for. -/
structure Settled (s t : Session) : Prop where
  key : t.key = s.key
  state : t.state = .registered
  dirty : t.dirty = false
  /-- What is registered is what was wanted, but for an allocated TMGI. -/
  data : ∃ tmgi, t.data = s.data.withAllocated tmgi
  acknowledged : t.acknowledged? = some t.data
  new : t.pendingNew = []
  leaving : t.pendingDelete = []
  active : (t.active.values.map Subscription.key).Perm (s.pendingNew.map Subscription.key)
  settled : ∀ sub ∈ t.active.values, sub.dirty = false ∧ sub.isInFlight = false

theorem Granted.settles {s t : Session} {r : Resource} (h : Granted s t r)
    (hnew : t.pendingNew = []) (hclean : t.dirty = false) : Settled s t where
  key := h.key
  state := by rw [state, h.kept, h.remote]; rfl
  dirty := hclean
  data := h.data
  acknowledged := by rw [acknowledged?, resource?, h.remote, ← h.acked]; rfl
  new := hnew
  leaving := by rw [pendingDelete, h.remote]; exact h.leaving
  active := by
    have hwanted := h.wanted
    rw [hnew] at hwanted
    rwa [active_of_registered h.remote]
  settled := by
    rw [active_of_registered h.remote]
    intro sub hsub
    obtain ⟨hdirty, hflight⟩ := h.settled sub hsub
    exact ⟨hdirty, by rw [Subscription.isInFlight, hflight]; rfl⟩

theorem push_of_settled {s t : Session} {r : Resource} (h : Granted s t r)
    (hclean : t.dirty = false) (config : ClientConfig) : t.push config = (some t, []) := by
  simp only [push, h.kept, h.remote, h.identityChanged, hclean, Bool.false_eq_true, if_false]

/-! ## 6. Stages -/

/-- The session is registered with its first subscription, and the others are still to be sent. -/
structure Begun (s t : Session) : Prop where
  granted : ∃ r, Granted s t r
  new : t.pendingNew = s.pendingNew.tail
  dirty : t.dirty = !s.pendingNew.tail.isEmpty

/-- The session is registered, and all its subscriptions are active. -/
structure Complete (s t : Session) : Prop where
  granted : ∃ r, Granted s t r
  new : t.pendingNew = []
  dirty : t.dirty = false

/-- The requests for subscriptions of a session, once the session is registered. -/
def further (config : ClientConfig) (subs : List Subscription) (t : Session) : List Intent :=
  (t.resourceId?.map fun id => t.creations config id subs).getD []

/-- The same for all subscriptions of fresh sessions but the first ones. -/
def furtherAll (config : ClientConfig) (wanted registered : List Session) : List Intent :=
  (List.zipWith (fun s t => t.further config s.pendingNew.tail) wanted registered).flatten

theorem further_of_registered {t : Session} {r : Resource} (h : t.remote = .registered r)
    (config : ClientConfig) (subs : List Subscription) :
    t.further config subs = t.creations config r.id subs := by
  rw [further, resourceId?, resource?, h]
  rfl

theorem further_congr {t t' : Session} (hkey : t'.key = t.key) (hdata : t'.data = t.data)
    (hid : t'.resourceId? = t.resourceId?) (config : ClientConfig) (subs : List Subscription) :
    t'.further config subs = t.further config subs := by
  simp only [further, creations, sentUnder, hkey, hdata, hid]

theorem Complete.settles {s t : Session} (h : s.Complete t) : s.Settled t := by
  obtain ⟨r, hgranted⟩ := h.granted
  exact hgranted.settles h.new h.dirty

end Session

end MbsClient
