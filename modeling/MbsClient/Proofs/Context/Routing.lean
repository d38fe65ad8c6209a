import MbsClient.Context.Notification
import MbsClient.Proofs.Context.Index
import MbsClient.Proofs.Net.Endpoint

/-!
# Routing — notifications reach the subscription they are for

A subscription gets its endpoint when it is sent for the first time, on the first configured server,
and keeps it (`addressed_run`). All that tells the endpoints apart is the key at the end of their
paths, so whether notifications reach the right subscription depends on the root of that server
alone, unless there is no more than one subscription to reach (`notifications_routed_iff`).
-/

namespace MbsClient

/-! ## 1. Endpoints of subscriptions -/

/-- The endpoint of the subscription, if it has one, is the one for its key on the first server. -/
def Subscription.Addressed (config : ClientConfig) (sub : Subscription) : Prop :=
  ∀ e, sub.endpoint = some e → ∃ server ∈ config.notificationServers.head?,
    e = .ofKey 0 server.apiRoot sub.key

namespace Subscription

variable {config : ClientConfig} {sub sub' : Subscription}

theorem addressed_new (key : SubscriptionKey) (session : SessionKey)
    (data : MbsSessionSubscription) : (new key session data).Addressed config := by
  intro e he
  cases he

theorem addressed_of_eq (h : sub.Addressed config) (hkey : sub'.key = sub.key)
    (hendpoint : sub'.endpoint = sub.endpoint) : sub'.Addressed config := by
  intro e he
  rw [hkey]
  exact h e (hendpoint ▸ he)

theorem endpoint_changed (changes : List SubscriptionChange) (sub : Subscription) :
    (sub.changed changes).endpoint = sub.endpoint :=
  Session.foldl_change (f := endpoint) (fun sub c => by cases c <;> rfl) changes sub

theorem addressed_changed (h : sub.Addressed config) (changes : List SubscriptionChange) :
    (sub.changed changes).Addressed config :=
  addressed_of_eq h (Session.foldl_change_key changes sub) (endpoint_changed changes sub)

-- The endpoint is allocated once.
theorem addressed_sendCreate (h : sub.Addressed config) (sessionId : MbsSessionId) :
    (sub.sendCreate sessionId config.notificationServers).Addressed config := by
  intro e he
  have hfirst : (sub.endpoint <|> config.notificationServers.head?.map fun server =>
      NotificationEndpoint.ofKey 0 server.apiRoot sub.key) = some e := he
  cases hend : sub.endpoint with
  | some e' =>
    rw [hend] at hfirst
    exact h e (hend.trans hfirst)
  | none =>
    rw [hend] at hfirst
    obtain ⟨server, hserver, rfl⟩ := Option.map_eq_some_iff.1 hfirst
    exact ⟨server, hserver, rfl⟩

end Subscription

namespace Session

variable {config : ClientConfig} {s s' : Session}

/-- The subscriptions that are wanted have the endpoints for their keys. -/
def Addressed (config : ClientConfig) (s : Session) : Prop :=
  ∀ sub ∈ s.subscriptions, sub.Addressed config

theorem addressed_of_newFrom (h : s.Addressed config) {m : Move} (hm : m.Uses config)
    (hin : ∀ sub, m = .takeOver sub → sub.Addressed config) {sub : Subscription}
    (hsub : NewFrom s m sub) : sub.Addressed config := by
  have hnew := fun sub (hsub : sub ∈ s.pendingNew) => h sub (List.mem_append_left _ hsub)
  cases hsub with
  | kept hsub => exact hnew _ hsub
  | takenOver => exact Subscription.addressed_of_eq (hin _ rfl) rfl rfl
  | changed hsub => exact Subscription.addressed_changed (hnew _ hsub) _
  | sent hsub =>
    obtain rfl := hm
    exact Subscription.addressed_sendCreate (hnew _ hsub) _
  | requeued hsub => exact Subscription.addressed_of_eq (h _ hsub) rfl rfl
  | @resent _ sub hsub =>
    obtain rfl := hm
    have hforgotten : sub.forgetRemote.Addressed _ :=
      Subscription.addressed_of_eq (h sub hsub) rfl rfl
    exact Subscription.addressed_sendCreate hforgotten _
  | failed hsub => exact Subscription.addressed_of_eq (hnew _ hsub) rfl rfl

theorem addressed_of_activeFrom (h : s.Addressed config) {m : Move} {id : String}
    {sub : Subscription} (hsub : ActiveFrom s m id sub) : sub.Addressed config := by
  have hactive := fun id sub (hsub : s.active.get? id = some sub) =>
    h sub (mem_subscriptions.2 (.inr ⟨id, hsub⟩))
  cases hsub with
  | kept hsub => exact hactive _ _ hsub
  | changed hsub => exact Subscription.addressed_changed (hactive _ _ hsub) _
  | unchanged hsub => exact Subscription.addressed_of_eq (hactive _ _ hsub) rfl rfl
  | sent hsub => exact Subscription.addressed_of_eq (hactive _ _ hsub) rfl rfl
  | confirmed hsub => exact Subscription.addressed_of_eq (hactive _ _ hsub) rfl rfl
  | failed hsub => exact Subscription.addressed_of_eq (hactive _ _ hsub) rfl rfl
  | created hsub =>
    exact Subscription.addressed_of_eq (h _ (List.mem_append_left _ hsub)) rfl rfl

theorem addressed_moved (hn : s.subscriptionKeys.Nodup) (hrides : s.Rides)
    (h : s.Addressed config) {m : Move} (hm : m.Uses config)
    (hin : ∀ sub, m = .takeOver sub → sub.Addressed config) (hs' : (s.moved m).1 = some s') :
    s'.Addressed config := by
  have horigins := origins_moved hn hrides hs'
  intro sub hsub
  rcases mem_subscriptions.1 hsub with hsub | ⟨id, hsub⟩
  · exact addressed_of_newFrom h hm hin (horigins.new sub hsub)
  · exact addressed_of_activeFrom h (horigins.active id sub hsub)

theorem subscription?_of_mem (hn : s.subscriptionKeys.Nodup) {sub : Subscription}
    (h : sub ∈ s.subscriptions) : s.subscription? sub.key = some sub := by
  have hsome : (s.subscription? sub.key).isSome = true :=
    List.find?_isSome.2 ⟨sub, h, decide_eq_true rfl⟩
  obtain ⟨found, hfound⟩ := Option.isSome_iff_exists.1 hsome
  have hkey : found.key = sub.key := by simpa using List.find?_some hfound
  rw [hfound, eq_of_key hn (List.mem_of_find?_eq_some hfound) h hkey]

end Session

namespace Context

variable {c : Context}

theorem mem_subscriptions {sub : Subscription} :
    sub ∈ c.subscriptions ↔ ∃ key s, c.session? key = some s ∧ sub ∈ s.subscriptions := by
  rw [subscriptions, List.mem_flatMap]
  constructor
  · rintro ⟨s, hs, hsub⟩
    obtain ⟨key, hs⟩ := SortedMap.mem_values.1 hs
    exact ⟨key, s, hs, hsub⟩
  · rintro ⟨key, s, hs, hsub⟩
    exact ⟨s, SortedMap.mem_values.2 ⟨key, hs⟩, hsub⟩

-- What is taken over is new, or another session has had it.
theorem new_or_mem_of_takeOver {a : Action} {key : SessionKey} {sub : Subscription}
    (h : .moved key (.takeOver sub) ∈ c.script a) :
    (∃ k session data, sub = .new k session data) ∨ sub ∈ c.subscriptions := by
  cases a with
  | addSubscription session data =>
    obtain ⟨-, rfl⟩ : key = session ∧ sub = .new c.nextSubscription session data := by
      simpa [script] using h
    exact .inl ⟨_, _, _, rfl⟩
  | transferSubscription k target =>
    rcases transferSubscription_cases c k target with
      ⟨e, -, hnone⟩ | ⟨o, s, found, holder, t, hs, hd, -, hmoves, -⟩
    · rw [script, hnone] at h
      cases h
    · rw [script, hmoves] at h
      obtain ⟨-, rfl⟩ : key = target ∧ sub = found := by simpa using h
      exact .inr (mem_subscriptions.2 ⟨o, s, hs, (Session.mem_of_detach? hd).1⟩)
  | _ => cases makes_of_mem_script h

end Context

theorem World.addressed_run (config : ClientConfig) (actions : List Action) :
    (run config actions).view.All fun s => s.Rides ∧ s.Addressed config := by
  have hnew : ∀ key, Session.Rides { key } ∧ Session.Addressed config { key } := fun key =>
    ⟨Session.rides_new key, fun sub hsub => absurd hsub List.not_mem_nil⟩
  induction actions using List.reverseRecOn with
  | nil => exact all_empty config
  | append_singleton actions a ih =>
    refine all_act hnew ih fun t ht => ?_
    cases t with
    | moved key m =>
      have hm := Action.uses_of_makes (makes_of_mem_script config actions ht)
      rintro s s' hn ⟨hrides, haddressed⟩ hs'
      refine ⟨Session.rides_moved hrides hs',
        Session.addressed_moved hn hrides haddressed hm ?_ hs'⟩
      rintro sub rfl
      rcases Context.new_or_mem_of_takeOver ht with ⟨k, session, data, rfl⟩ | hsub
      · exact Subscription.addressed_new k session data
      · obtain ⟨key', s', hs', hsub⟩ := Context.mem_subscriptions.1 hsub
        exact (ih key' s' hs').2 sub hsub
    | opened => trivial
    | orphaned intents => trivial

/-! ## 2. Routing -/

namespace Context

/-- Notifications to the endpoint are for the subscription, and for no other. -/
structure Reaches (c : Context) (e : NotificationEndpoint) (sub : Subscription) : Prop where
  alone : ∀ other ∈ c.subscriptions,
    other.endpoint.any (·.isAt e.server e.target) = true ↔ other = sub
  found : c.subscriptionAt? e.server e.target = some sub
  /-- The application is told each report, if it watches them, in order. -/
  told : ∀ reports, c.notify? e.server e.target reports =
    some (if sub.watchesReports then reports.eventList.map (.report sub.key) else [])

/-- Notifications reach the subscriptions at whose endpoints they arrive. -/
def Routes (c : Context) : Prop :=
  ∀ sub ∈ c.subscriptions, ∀ e, sub.endpoint = some e → c.Reaches e sub

variable {c : Context} {sub other : Subscription} {e : NotificationEndpoint}

theorem Exclusive.session?_of_mem (h : c.Exclusive) (hsub : sub ∈ c.subscriptions) :
    ∃ s, c.session? sub.session = some s ∧ sub ∈ s.subscriptions ∧
      c.owners.get? sub.key = some sub.session := by
  obtain ⟨key, s, hs, hsub⟩ := mem_subscriptions.1 hsub
  obtain ⟨rfl, howner⟩ := h.owned key s hs sub (List.mem_append_left _ hsub)
  exact ⟨s, hs, hsub, howner⟩

theorem Exclusive.nodup_subscriptionKeys (h : c.Exclusive) {key : SessionKey} {s : Session}
    (hs : c.session? key = some s) : s.subscriptionKeys.Nodup :=
  (List.nodup_flatMap.1 h.once).1 s (SortedMap.mem_values.2 ⟨key, hs⟩)

theorem Exclusive.eq_of_key (h : c.Exclusive) (hsub : sub ∈ c.subscriptions)
    (hother : other ∈ c.subscriptions) (hkey : other.key = sub.key) : other = sub := by
  obtain ⟨s, hs, hsub, howner⟩ := h.session?_of_mem hsub
  obtain ⟨t, ht, hother, howner'⟩ := h.session?_of_mem hother
  -- the index leads to one session
  rw [hkey, howner, Option.some_inj] at howner'
  rw [← howner', hs, Option.some_inj] at ht
  subst ht
  exact Session.eq_of_key (h.nodup_subscriptionKeys hs) hother hsub hkey

-- A subscription that is alone at its endpoint is found and told.
theorem Exclusive.reaches_of_alone (h : c.Exclusive) (hsub : sub ∈ c.subscriptions)
    (halone : ∀ other ∈ c.subscriptions,
      other.endpoint.any (·.isAt e.server e.target) = true ↔ other = sub) : c.Reaches e sub := by
  have hfound : c.subscriptionAt? e.server e.target = some sub := by
    have hsome : (c.subscriptionAt? e.server e.target).isSome = true :=
      List.find?_isSome.2 ⟨sub, hsub, (halone sub hsub).2 rfl⟩
    obtain ⟨found, hfound⟩ := Option.isSome_iff_exists.1 hsome
    have hat : found.endpoint.any (·.isAt e.server e.target) = true := by
      simpa using List.find?_some hfound
    rw [hfound, (halone found (List.mem_of_find?_eq_some hfound)).1 hat]
  obtain ⟨s, hs, hmem, -⟩ := h.session?_of_mem hsub
  have hheld : s.subscription? sub.key = some sub :=
    Session.subscription?_of_mem (h.nodup_subscriptionKeys hs) hmem
  refine ⟨halone, hfound, fun reports => ?_⟩
  rw [notify?, hfound]
  show (c.session? sub.session).bind _ = _
  rw [hs, Option.bind_some]
  show (s.subscription? sub.key).bind _ = _
  rw [hheld]
  rfl

end Context

section

variable {config : ClientConfig} {actions : List Action} {sub other : Subscription}
  {e : NotificationEndpoint}

-- Endpoints are told apart by the keys, if the root of the server lets these through.
theorem World.any_isAt_iff (hsub : sub ∈ (run config actions).context.subscriptions)
    (hother : other ∈ (run config actions).context.subscriptions) (he : sub.endpoint = some e) :
    other.endpoint.any (·.isAt e.server e.target) = true ↔ other.endpoint.isSome = true ∧
      (other = sub ∨ ¬ ∀ server ∈ config.notificationServers.head?,
        NotificationEndpoint.isPlain server.apiRoot = true) := by
  have haddressed : ∀ sub ∈ (run config actions).context.subscriptions, sub.Addressed config := by
    intro sub hsub
    obtain ⟨key, s, hs, hsub⟩ := Context.mem_subscriptions.1 hsub
    exact (addressed_run config actions key s hs).2 sub hsub
  obtain ⟨server, hserver, rfl⟩ := haddressed sub hsub e he
  have hplain : (¬ ∀ server ∈ config.notificationServers.head?,
      NotificationEndpoint.isPlain server.apiRoot = true) ↔
      NotificationEndpoint.isPlain server.apiRoot = false := by
    simp [Option.mem_def.1 hserver]
  have hkey : other = sub ↔ sub.key = other.key :=
    ⟨fun h => congrArg Subscription.key h.symm,
      fun h => (exclusive_run config actions).eq_of_key hsub hother h.symm⟩
  cases he' : other.endpoint with
  | none => simp
  | some e' =>
    obtain ⟨server', hserver', rfl⟩ := haddressed other hother e' he'
    obtain rfl : server = server' := Option.some.inj (hserver.symm.trans hserver')
    have hfirst : (NotificationEndpoint.ofKey 0 server.apiRoot sub.key).server = 0 := rfl
    rw [hplain, hkey, ← NotificationEndpoint.isAt_ofKey_iff 0, hfirst, Option.any_some,
      Option.isSome_some, eq_self, true_and]

end

/-- **Notifications reach their subscription.** Along every run, a request to the endpoint of a
subscription that is wanted is for this subscription and no other, and all the application is told
are its reports, in order. This holds if the path of the first server's root has no query and no
fragment behind it; else it holds only as long as no two subscriptions have an endpoint. -/
theorem notifications_routed_iff (config : ClientConfig) (actions : List Action) :
    (World.run config actions).context.Routes ↔
      (∀ server ∈ config.notificationServers.head?,
        NotificationEndpoint.isPlain server.apiRoot = true) ∨
      ∀ sub ∈ (World.run config actions).context.subscriptions,
        ∀ other ∈ (World.run config actions).context.subscriptions,
          sub.endpoint.isSome = true → other.endpoint.isSome = true → other = sub := by
  have hexclusive := exclusive_run config actions
  constructor
  · intro h
    by_cases hplain : ∀ server ∈ config.notificationServers.head?,
        NotificationEndpoint.isPlain server.apiRoot = true
    · exact .inl hplain
    · refine .inr fun sub hsub other hother hsome hsome' => ?_
      obtain ⟨e, he⟩ := Option.isSome_iff_exists.1 hsome
      exact ((h sub hsub e he).alone other hother).1
        ((World.any_isAt_iff hsub hother he).2 ⟨hsome', .inr hplain⟩)
  · intro h sub hsub e he
    refine hexclusive.reaches_of_alone hsub fun other hother => ?_
    rw [World.any_isAt_iff hsub hother he]
    constructor
    · rintro ⟨hsome, heq | hcut⟩
      · exact heq
      · rcases h with hplain | honly
        · exact absurd hplain hcut
        · exact honly sub hsub other hother (by rw [he]; rfl) hsome
    · rintro rfl
      exact ⟨by rw [he]; rfl, .inl rfl⟩

/-- A root with a query, which the configuration accepts. -/
def queriedRoot : ClientConfig :=
  { notificationServers := [⟨"http://10.0.0.5:7777/mbs?tenant=1"⟩] }

/-- Two subscriptions are sent, one with its session and one after it. -/
def addressedTwice : List Action :=
  [.newSession, .addSubscription 1 {}, .addSubscription 1 {}, .push 1,
    .event (.createResult 1 (.ok { resourceId := "r", subscriptionId := some "s" })), .push 1]

/-- Their endpoints are the same, so one of them does not get its notifications. -/
theorem misrouted_addressedTwice : queriedRoot.validate = .ok queriedRoot ∧
    ¬ (World.run queriedRoot addressedTwice).context.Routes := by
  refine ⟨rfl, ?_⟩
  rw [notifications_routed_iff]
  rintro (hplain | honly)
  · exact absurd (hplain _ rfl) (by decide)
  · obtain ⟨second, first, hsubs, hkeys, hsome, hsome'⟩ : ∃ second first,
        (World.run queriedRoot addressedTwice).context.subscriptions = [second, first] ∧
        first.key ≠ second.key ∧ second.endpoint.isSome = true ∧ first.endpoint.isSome = true :=
      ⟨_, _, rfl, by decide, rfl, rfl⟩
    rw [hsubs] at honly
    have hsame := honly second List.mem_cons_self first
      (List.mem_cons_of_mem _ List.mem_cons_self) hsome hsome'
    exact hkeys (congrArg Subscription.key hsame)

end MbsClient
