import MbsClient.Proofs.Context.Roster
import MbsClient.Proofs.Session.BringUp
import MbsClient.Scenario

/-!
# Loading — the sessions of a scenario, numbered as they are written

A scenario that can be loaded opens one fresh session for each of its entries, in order, and numbers
the subscriptions of all of them in one row (`load_lists`). Nothing is sent yet.
-/

namespace MbsClient

/-! ## 1. What is wanted -/

/-- New subscriptions of a session with keys from `first` on. -/
def ScenarioSession.newSubscriptions (key : SessionKey) (first : SubscriptionKey)
    (records : List MbsSessionSubscription) : List Subscription :=
  (records.zipIdx first).map fun (data, k) => .new k key data

/-- The session of an entry, with subscription keys from `first` on. -/
def ScenarioSession.opened (entry : ScenarioSession) (key : SessionKey) (first : SubscriptionKey) :
    Session :=
  { key, data := entry.session, pendingNew := newSubscriptions key first entry.subscriptions }

namespace Scenario

/-- The sessions of entries, with session keys from `key` and subscription keys from `first` on. -/
def opened (key : SessionKey) (first : SubscriptionKey) : List ScenarioSession → List Session
  | [] => []
  | entry :: rest =>
      entry.opened key first :: opened (key + 1) (first + entry.subscriptions.length) rest

/-- The sessions that a new context has of a scenario. -/
def wanted (scenario : Scenario) : List Session := opened 1 1 scenario.sessions

end Scenario

namespace ScenarioSession

theorem map_key_newSubscriptions (key : SessionKey) (first : SubscriptionKey)
    (records : List MbsSessionSubscription) :
    (newSubscriptions key first records).map Subscription.key =
      List.range' first records.length := by
  rw [newSubscriptions, List.map_map, ← List.zipIdx_map_snd]
  rfl

theorem fresh_opened (entry : ScenarioSession) (key : SessionKey) (first : SubscriptionKey) :
    (entry.opened key first).Fresh where
  kept := rfl
  remote := rfl
  dirty := rfl
  once := by
    show ((newSubscriptions key first entry.subscriptions).map Subscription.key).Nodup
    rw [map_key_newSubscriptions]
    exact List.nodup_range'
  due := by
    intro sub hsub
    obtain ⟨record, -, rfl⟩ := List.mem_map.1 hsub
    rfl

theorem length_opened (entry : ScenarioSession) (key : SessionKey) (first : SubscriptionKey) :
    (entry.opened key first).pendingNew.length = entry.subscriptions.length := by
  simp [opened, newSubscriptions]

end ScenarioSession

namespace Scenario

-- Every session comes of its own entry.
theorem forall₂_opened (key : SessionKey) (first : SubscriptionKey)
    (entries : List ScenarioSession) :
    List.Forall₂ (fun entry s => ∃ key first, s = entry.opened key first) entries
      (opened key first entries) := by
  induction entries generalizing key first with
  | nil => exact .nil
  | cons entry rest ih => exact .cons ⟨key, first, rfl⟩ (ih _ _)

end Scenario

/-! ## 2. Loading -/

namespace Context

/-- A context that lists its sessions has not handed out a key that is still to come. -/
structure Numbers (c : Context) (ss : List Session) : Prop extends c.Lists ss where
  sessionsBelow : ∀ s ∈ ss, s.key < c.nextSession
  subscriptionsBelow : ∀ s ∈ ss, ∀ k ∈ s.subscriptionKeys, k < c.nextSubscription

namespace Numbers

variable {c : Context} {done : List Session} {s : Session}

-- A new session comes last.
theorem newSession (h : c.Numbers done) :
    Numbers { c.store { key := c.nextSession } with nextSession := c.nextSession + 1 }
      (done ++ [{ key := c.nextSession }]) where
  entries := by
    have hbelow : ∀ e ∈ c.sessions.entries, KeyOrder.lt e.1 c.nextSession = true := by
      rw [h.entries]
      intro e he
      obtain ⟨s, hs, rfl⟩ := List.mem_map.1 he
      exact decide_eq_true (h.sessionsBelow s hs)
    show Entries.insert c.nextSession _ c.sessions.entries = _
    rw [Entries.insert_last hbelow, h.entries, List.map_append]
    rfl
  owned := by
    rw [List.forall_mem_append, List.forall_mem_singleton]
    exact ⟨h.owned, fun _ hk => absurd hk List.not_mem_nil⟩
  sessionsBelow := by
    rw [List.forall_mem_append, List.forall_mem_singleton]
    exact ⟨fun t ht => Nat.lt_succ_of_lt (h.sessionsBelow t ht), Nat.lt_succ_self _⟩
  subscriptionsBelow := by
    rw [List.forall_mem_append, List.forall_mem_singleton]
    exact ⟨h.subscriptionsBelow, fun _ hk => absurd hk List.not_mem_nil⟩

-- A session of the same subscriptions takes the place of the last one.
theorem store (h : c.Numbers (done ++ [s])) (s' : Session) (hkey : s'.key = s.key)
    (hsubs : s'.subscriptionKeys = s.subscriptionKeys) : (c.store s').Numbers (done ++ [s']) where
  toLists := h.toLists.store hkey fun k hk => hsubs ▸ hk
  sessionsBelow := by
    have hbelow := h.sessionsBelow
    rw [List.forall_mem_append, List.forall_mem_singleton] at hbelow ⊢
    rwa [hkey]
  subscriptionsBelow := by
    have hbelow := h.subscriptionsBelow
    rw [List.forall_mem_append, List.forall_mem_singleton] at hbelow ⊢
    rwa [hsubs]

-- A new subscription of the last session is found under it.
theorem addSubscription (h : c.Numbers (done ++ [s])) (data : MbsSessionSubscription) :
    Numbers
      { c.store (s.attach (.new c.nextSubscription s.key data)) with
        nextSubscription := c.nextSubscription + 1
        owners := c.owners.insert c.nextSubscription s.key }
      (done ++ [s.attach (.new c.nextSubscription s.key data)]) := by
  -- the new subscription, and all others as before
  have hheld : ∀ t ∈ done ++ [s.attach (.new c.nextSubscription s.key data)],
      ∀ k ∈ t.subscriptionKeys, (t.key = s.key ∧ k = c.nextSubscription) ∨
        (k < c.nextSubscription ∧ c.owners.get? k = some t.key) := by
    intro t ht k hk
    rcases List.mem_append.1 ht with ht | ht
    · have ht := List.mem_append_left [s] ht
      exact .inr ⟨h.subscriptionsBelow t ht k hk, h.owned t ht k hk⟩
    · rw [List.mem_singleton.1 ht] at hk ⊢
      rcases Session.mem_subscriptionKeys_attach.1 hk with hk | rfl
      · have hs : s ∈ done ++ [s] := List.mem_append_cons_self
        exact .inr ⟨h.subscriptionsBelow s hs k hk, h.owned s hs k hk⟩
      · exact .inl ⟨rfl, rfl⟩
  refine ⟨⟨h.entries_insert rfl, fun t ht k hk => ?_⟩, ?_, fun t ht k hk => ?_⟩
  · rcases hheld t ht k hk with ⟨hkey, rfl⟩ | ⟨hlt, hk⟩
    · rw [SortedMap.get?_insert_self, hkey]
    · rw [SortedMap.get?_insert_of_ne _ (Nat.ne_of_lt hlt), hk]
  · have hbelow := h.sessionsBelow
    rw [List.forall_mem_append, List.forall_mem_singleton] at hbelow ⊢
    exact hbelow
  · rcases hheld t ht k hk with ⟨-, rfl⟩ | ⟨hlt, -⟩
    · exact Nat.lt_succ_self _
    · exact Nat.lt_succ_of_lt hlt

end Numbers

end Context

namespace Scenario

variable {c : Context} {done : List Session}

-- Subscriptions of the session that was opened last are added in order, and this does not fail.
theorem loadSubscriptions_last (name : String) (records : List MbsSessionSubscription)
    {s : Session} (h : c.Numbers (done ++ [s])) (hdirty : s.dirty = true) :
    ∃ c', loadSubscriptions name s.key records c = .ok c' ∧
      c'.Numbers (done ++ [{ s with
        pendingNew := s.pendingNew ++
          ScenarioSession.newSubscriptions s.key c.nextSubscription records }]) ∧
      c'.nextSubscription = c.nextSubscription + records.length ∧
      c'.nextSession = c.nextSession ∧ c'.config = c.config ∧ c'.outbox = c.outbox := by
  induction records generalizing c s with
  | nil =>
    have hself : { s with pendingNew := s.pendingNew ++ [] } = s := by rw [List.append_nil]
    refine ⟨c, rfl, ?_, rfl, rfl, rfl, rfl⟩
    show c.Numbers (done ++ [{ s with pendingNew := s.pendingNew ++ [] }])
    rwa [hself]
  | cons data records ih =>
    obtain ⟨c', hload, hnumbers, hsubs, hsessions, hconfig, houtbox⟩ :=
      ih (h.addSubscription data) rfl
    refine ⟨c', ?_, ?_, ?_, hsessions, hconfig, houtbox⟩
    · rw [loadSubscriptions, Context.addSubscription, h.toLists.session List.mem_append_cons_self]
      exact hload
    · rw [Session.attach, List.append_assoc, ← hdirty] at hnumbers
      exact hnumbers
    · rw [hsubs, List.length_cons, Nat.add_right_comm, Nat.add_assoc]

-- The record and the subscriptions of an entry go to the session that has just been opened.
theorem load_entry (h : c.Numbers done) (entry : ScenarioSession) :
    ∃ c₁ c₂, Context.changeSession
        { c.store { key := c.nextSession } with nextSession := c.nextSession + 1 }
        c.nextSession (.record entry.session) = .ok c₁ ∧
      loadSubscriptions entry.name c.nextSession entry.subscriptions c₁ = .ok c₂ ∧
      c₂.Numbers (done ++ [entry.opened c.nextSession c.nextSubscription]) ∧
      c₂.nextSubscription = c.nextSubscription + entry.subscriptions.length ∧
      c₂.nextSession = c.nextSession + 1 ∧ c₂.config = c.config ∧ c₂.outbox = c.outbox := by
  have hnew := h.newSession
  have hrecord := hnew.store { key := c.nextSession, data := entry.session } rfl rfl
  obtain ⟨c₂, hload, hnumbers, hrest⟩ :=
    loadSubscriptions_last entry.name entry.subscriptions hrecord rfl
  refine ⟨_, c₂, ?_, hload, hnumbers, hrest⟩
  rw [Context.changeSession, hnew.toLists.session List.mem_append_cons_self]
  rfl

/-- **Loading opens the sessions of the entries in order**, after those that are there. -/
theorem loadSessions_lists {entries : List ScenarioSession} {keys : List (String × SessionKey)}
    {c' : Context} (h : c.Numbers done) (hload : loadSessions entries c = .ok (keys, c')) :
    c'.Lists (done ++ opened c.nextSession c.nextSubscription entries) ∧
      c'.config = c.config ∧ c'.outbox = c.outbox := by
  induction entries generalizing c done keys with
  | nil =>
    obtain ⟨-, rfl⟩ : _ ∧ c = c' := by simpa [loadSessions] using hload
    rw [opened, List.append_nil]
    exact ⟨h.toLists, rfl, rfl⟩
  | cons entry rest ih =>
    obtain ⟨c₁, c₂, hrecord, hsubs, hnumbers, hnextSub, hnextSession, hconfig, houtbox⟩ :=
      load_entry h entry
    simp only [loadSessions, Context.newSession] at hload
    split at hload
    · cases hload
    · simp only [Except.mapError, bind, Except.bind, hrecord, hsubs] at hload
      split at hload
      · cases hload
      · rename_i loaded hrest
        obtain ⟨-, rfl⟩ : _ ∧ loaded.2 = c' := by simpa [pure, Except.pure] using hload
        obtain ⟨hlists, hconfig', houtbox'⟩ := ih hnumbers hrest
        rw [hnextSub, hnextSession, List.append_assoc] at hlists
        exact ⟨hlists, hconfig'.trans hconfig, houtbox'.trans houtbox⟩

theorem load_lists {scenario : Scenario} {config : ClientConfig}
    {keys : List (String × SessionKey)} (hload : scenario.load { config } = .ok (keys, c)) :
    c.Lists scenario.wanted ∧ c.config = config ∧ c.outbox = [] := by
  have hempty : Context.Numbers { config } [] :=
    ⟨⟨rfl, by simp⟩, by simp, by simp⟩
  exact loadSessions_lists hempty hload

end Scenario

end MbsClient
