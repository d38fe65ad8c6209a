import MbsClient.Proofs.Context.Kept
import MbsClient.Proofs.Context.Repeat

/-!
# Holders — the session that an operation on a subscription is about

The index of owners may lead to a session that has the subscription among those to be deleted, or
that has lost it; but it leads to a session that is there (`ownersLive_run`). So an operation on a
subscription fails exactly if no session wants the subscription, and it says so.
-/

namespace MbsClient

/-! ## 1. The index leads to sessions -/

namespace View

-- A session stays where no session goes.
theorem exists_foldl {v : View} (hk : v.Keyed) {ts : List Transition} (hts : ∀ t ∈ ts, t.Plain)
    {key : SessionKey} {s : Session} (h : v.sessions.get? key = some s) :
    ∃ s', (ts.foldl apply v).sessions.get? key = some s' := by
  induction ts generalizing v s with
  | nil => exact ⟨s, h⟩
  | cons t ts ih =>
    have hfirst : ∃ s', (v.apply t).sessions.get? key = some s' := by
      rcases get?_apply h (hk.below h) t with hsame | ⟨m, rfl, hmoved⟩
      · exact ⟨s, hsame⟩
      · obtain ⟨s', hs', -⟩ := s.identity_moved (hts _ List.mem_cons_self)
        exact ⟨s', hmoved.trans hs'⟩
    obtain ⟨s', hs'⟩ := hfirst
    exact ih (keyed_apply hk t) (fun u hu => hts u (List.mem_cons_of_mem _ hu)) hs'

end View

namespace Context

variable {c c' : Context}

/-- The index of owners leads to sessions that are there. -/
def OwnersLive (c : Context) : Prop :=
  ∀ k owner, c.owners.get? k = some owner → ∃ s, c.session? owner = some s

theorem session?_of_session {key : SessionKey} {s : Session} (h : c.session key = .ok s) :
    c.session? key = some s := by
  unfold session at h
  split at h
  · rename_i t ht
    rwa [Except.ok.inj h] at ht
  · cases h

theorem OwnersLive.session (hc : c.OwnersLive) {k : SubscriptionKey} {owner : SessionKey}
    (h : c.owner k = .ok owner) : ∃ s, c.session owner = .ok s := by
  unfold Context.owner at h
  split at h
  · rename_i o ho
    obtain ⟨s, hs⟩ := hc k o ho
    exact ⟨s, Except.ok.inj h ▸ session_of_get? hs⟩
  · cases h

-- No session has gone, and who is new in the index is there.
theorem ownersLive_of_stay (hc : c.OwnersLive)
    (hstay : ∀ key s, c.session? key = some s → ∃ s', c'.session? key = some s')
    (howners : ∀ k owner, c'.owners.get? k = some owner →
      c.owners.get? k = some owner ∨ ∃ s, c.session? owner = some s) : c'.OwnersLive := by
  intro k owner h
  rcases howners k owner h with h | ⟨s, hs⟩
  · obtain ⟨s, hs⟩ := hc k owner h
    exact hstay owner s hs
  · exact hstay owner s hs

theorem exists_act_of_plain (hk : (c.view []).Keyed) {a : Action} (ha : a.Plain) {key : SessionKey}
    {s : Session} (h : c.session? key = some s) : ∃ s', (c.act a).session? key = some s' := by
  rw [session?, sessions_act hk]
  exact View.exists_foldl hk (fun t ht => (makes_of_mem_script ht).plain ha) h

theorem ownersLive_of_plain (hk : (c.view []).Keyed) (hc : c.OwnersLive) {a : Action} (ha : a.Plain)
    (howners : (c.act a).owners = c.owners) : (c.act a).OwnersLive :=
  ownersLive_of_stay hc (fun _ _ h => exists_act_of_plain hk ha h) fun k owner h => by
    rw [howners] at h
    exact .inl h

theorem ownersLive_store (hc : c.OwnersLive) (s : Session) : (c.store s).OwnersLive := by
  refine ownersLive_of_stay hc (fun key t ht => ?_) fun _ _ => .inl
  by_cases hkey : key = s.key
  · exact ⟨s, hkey ▸ SortedMap.get?_insert_self _ _ _⟩
  · exact ⟨t, (SortedMap.get?_insert_of_ne _ hkey _).trans ht⟩

theorem ownersLive_reindex (hc : c.OwnersLive) (s : Session) : (c.reindex s).OwnersLive :=
  fun k owner h => hc k owner (SortedMap.get?_filter_iff.1 h).1

theorem ownersLive_destroy (hc : c.OwnersLive) (key : SessionKey) : (c.destroy key).OwnersLive := by
  intro k owner h
  obtain ⟨hbefore, hkept⟩ := SortedMap.get?_filter_iff.1 h
  obtain ⟨s, hs⟩ := hc k owner hbefore
  exact ⟨s, (SortedMap.get?_erase_of_ne _ (bne_iff_ne.1 hkept)).trans hs⟩

theorem ownersLive_push (hc : c.OwnersLive) (key : SessionKey) : (c.act (.push key)).OwnersLive := by
  cases hs : c.sessions.get? key with
  | none =>
    simp only [act, push, session_of_get?_none hs]
    exact hc
  | some s =>
    simp only [act, push, session_of_get? hs, bind, Except.bind]
    split
    · exact ownersLive_reindex (ownersLive_store hc _) _
    · exact ownersLive_destroy hc key

theorem ownersLive_pushAll (hc : c.OwnersLive) : c.pushAll.OwnersLive := by
  rw [pushAll_eq]
  generalize c.sessions.keys = keys
  induction keys generalizing c with
  | nil => exact hc
  | cons key keys ih => exact ih (ownersLive_push hc key)

theorem ownersLive_settle (hc : c.OwnersLive) (s : Session) : (c.settle s).OwnersLive := by
  refine ownersLive_reindex (fun k owner h => ?_) s
  rw [owners_indexTmgi] at h
  rw [session?, sessions_indexTmgi]
  exact ownersLive_store hc s k owner h

theorem ownersLive_createResult (hk : (c.view []).Keyed) (hc : c.OwnersLive) (key : SessionKey)
    (result : Except ProblemDetails SessionCreated) :
    (c.act (.event (.createResult key result))).OwnersLive := by
  cases h : (c.session? key).bind Session.waitingFor? with
  | none =>
    rw [act_unawaited h result]
    exact hc
  | some w =>
    obtain ⟨s, hs, hw⟩ := Option.bind_eq_some_iff.1 h
    have hown : s.key = key := hk.own hs
    subst hown
    cases result with
    | ok answer =>
      rw [act_created hs hw answer]
      exact ownersLive_settle hc _
    | error problem =>
      rw [act_refused hs hw problem]
      exact ownersLive_settle hc _

theorem ownersLive_addSubscription (hk : (c.view []).Keyed) (hc : c.OwnersLive)
    (session : SessionKey) (data : MbsSessionSubscription) :
    (c.act (.addSubscription session data)).OwnersLive := by
  cases hs : c.sessions.get? session with
  | none => rwa [act_addSubscription_of_none hs]
  | some s =>
    have howners : (c.act (.addSubscription session data)).owners =
        c.owners.insert c.nextSubscription session := by
      simp only [act, addSubscription, session_of_get? hs]
      rfl
    refine ownersLive_of_stay hc
      (fun _ _ => exists_act_of_plain (a := .addSubscription session data) hk trivial)
      fun k owner h => ?_
    rw [howners] at h
    by_cases hnew : k = c.nextSubscription
    · rw [hnew, SortedMap.get?_insert_self] at h
      exact .inr ⟨s, Option.some.inj h ▸ hs⟩
    · rw [SortedMap.get?_insert_of_ne _ hnew] at h
      exact .inl h

theorem ownersLive_removeSubscription (hk : (c.view []).Keyed) (hc : c.OwnersLive)
    (key : SubscriptionKey) : (c.act (.removeSubscription key)).OwnersLive := by
  refine ownersLive_of_stay hc
    (fun _ _ => exists_act_of_plain (a := .removeSubscription key) hk trivial)
    fun k owner h => .inl ?_
  rcases act_removeSubscription c key with hsame | ⟨o, s, s', -, -, -, hact⟩
  · rwa [hsame] at h
  · rw [hact] at h
    split at h
    · exact h
    · by_cases hkey : k = key
      · rw [hkey] at h
        simp at h
      · exact (SortedMap.get?_erase_of_ne _ hkey).symm.trans h

theorem ownersLive_transferSubscription (hk : (c.view []).Keyed) (hc : c.OwnersLive)
    (key : SubscriptionKey) (target : SessionKey) :
    (c.act (.transferSubscription key target)).OwnersLive := by
  rcases wants_transferSubscription hk key target with hsame | ⟨howners, s, hs, -⟩
  · rwa [hsame]
  · intro k owner h
    rw [howners] at h
    by_cases hkey : k = key
    · rw [hkey, SortedMap.get?_insert_self] at h
      exact ⟨s, Option.some.inj h ▸ hs⟩
    · rw [SortedMap.get?_insert_of_ne _ hkey] at h
      obtain ⟨t, ht⟩ := hc k owner h
      exact exists_act_of_plain (a := .transferSubscription key target) hk trivial ht

theorem ownersLive_handle (hk : (c.view []).Keyed) (hc : c.OwnersLive) (e : TransportEvent) :
    (c.act (.event e)).OwnersLive := by
  have hplain : (Action.event e).Plain → (c.act (.event e)).owners = c.owners →
      (c.act (.event e)).OwnersLive := ownersLive_of_plain hk hc
  cases e with
  | createResult key result => exact ownersLive_createResult hk hc key result
  | patchResult key result => cases result <;> exact hplain trivial (owners_sessionPatched c key _)
  | subscriptionCreated key result => exact hplain trivial (owners_subscriptionCreated c key _)
  | subscriptionUpdated key result => exact hplain trivial (owners_subscriptionUpdated c key _)
  | timeout target =>
    cases target with
    | createResource key =>
      show (c.creationTimedOut key).1.OwnersLive
      unfold creationTimedOut
      split
      · exact ownersLive_destroy hc key
      · exact hc
    | patchResource key => exact hplain trivial (owners_sessionPatched c key .timedOut)
    | createSubscription key => exact hplain trivial (owners_subscriptionCreated c key _)
    | updateSubscription key => exact hplain trivial (owners_subscriptionUpdated c key _)

theorem ownersLive_act (hk : (c.view []).Keyed) (hc : c.OwnersLive) (a : Action) :
    (c.act a).OwnersLive := by
  cases a with
  | newSession => exact ownersLive_of_plain hk hc trivial (owners_newSession c)
  | watchSession key => exact ownersLive_of_plain hk hc trivial (owners_watchSession c key)
  | changeSession key change =>
    exact ownersLive_of_plain hk hc trivial (owners_changeSession c key change)
  | deleteSession key => exact ownersLive_of_plain hk hc trivial (owners_deleteSession c key)
  | addSubscription session data => exact ownersLive_addSubscription hk hc session data
  | updateSubscription key changes =>
    exact ownersLive_of_plain hk hc trivial (owners_updateSubscription c key changes)
  | removeSubscription key => exact ownersLive_removeSubscription hk hc key
  | transferSubscription key target => exact ownersLive_transferSubscription hk hc key target
  | push key => exact ownersLive_push hc key
  | pushAll => exact ownersLive_pushAll hc
  | close => exact fun k owner h => by simp [act, close] at h
  | takeIntents => exact hc
  | event e => exact ownersLive_handle hk hc e

end Context

theorem World.ownersLive_run (config : ClientConfig) (actions : List Action) :
    (run config actions).context.OwnersLive := by
  induction actions using List.reverseRecOn with
  | nil => exact fun k owner h => by simp [run, acts] at h
  | append_singleton actions a ih =>
    rw [run_snoc]
    exact Context.ownersLive_act (keyed_context config actions) ih a

/-! ## 2. Operations on a subscription -/

namespace Context

variable {c : Context}

-- A session that has been put back is found again.
theorem session_store (c : Context) (s : Session) : (c.store s).session s.key = .ok s :=
  session_of_get? (SortedMap.get?_insert_self _ _ _)

-- A session that is there stays there when another is put back.
theorem session_store_of_ok {key : SessionKey} {t : Session} (h : c.session key = .ok t)
    (s : Session) : ∃ t', (c.store s).session key = .ok t' := by
  by_cases hkey : key = s.key
  · exact ⟨s, hkey ▸ session_store c s⟩
  · refine ⟨t, ?_⟩
    rw [← h, session, session?, store, SortedMap.get?_insert_of_ne _ hkey]
    rfl

end Context

namespace Session

variable {s : Session} {key : SubscriptionKey}

theorem isSome_subscription? : (s.subscription? key).isSome = true ↔ key ∈ s.wantedKeys := by
  rw [subscription?, List.find?_isSome, wantedKeys, List.mem_map]
  simp only [decide_eq_true_eq]

-- A subscription that is wanted can be let go, and no other.
theorem isSome_detach? : (s.detach? key).isSome = true ↔ key ∈ s.wantedKeys := by
  have hnew : (s.pendingNew.find? fun sub => sub.key = key) = none ↔ key ∉ s.newKeys := by
    rw [List.find?_eq_none, newKeys, List.mem_map]
    simp
  have hactive : (s.active.entries.find? fun e => e.2.key = key).isSome = true ↔
      ∃ id sub, s.active.get? id = some sub ∧ sub.key = key := by
    rw [List.find?_isSome]
    simp only [decide_eq_true_eq, Prod.exists, SortedMap.mem_entries]
  rw [mem_wantedKeys]
  unfold detach?
  split
  · rename_i sub hfound
    have hmem : key ∈ s.newKeys := by
      by_contra hmem
      rw [hnew.2 hmem] at hfound
      cases hfound
    simp only [Option.isSome_some, hmem, true_or]
  · rename_i hnone
    rw [Option.isSome_map, hactive, or_iff_right (hnew.1 hnone)]

theorem removeSubscription_of_detach? {s' : Session} {sub : Subscription}
    (h : s.detach? key = some (sub, s')) : ∃ t, s.removeSubscription key = .ok t := by
  simp only [removeSubscription, h]
  cases sub.id with
  | none => exact ⟨_, rfl⟩
  | some id => exact ⟨_, rfl⟩

end Session

namespace Context

variable {c : Context} {key : SubscriptionKey}

/-- Some session wants the subscription. -/
def Wanted (c : Context) (key : SubscriptionKey) : Prop := ∃ owner, c.Wants owner key

/-- What the look-up of the session that holds a subscription comes to. -/
inductive Holder (c : Context) (key : SubscriptionKey) : Prop
  | unknown (howner : c.owner key = .error (.subscriptionNotFound key)) (hnot : ¬ c.Wanted key)
  | found {owner : SessionKey} {s : Session} (howner : c.owner key = .ok owner)
      (hs : c.session owner = .ok s) (hwanted : c.Wanted key ↔ key ∈ s.wantedKeys)

theorem holder (hI : c.Indexed) (hlive : c.OwnersLive) (key : SubscriptionKey) : c.Holder key := by
  have hindex : ∀ {owner}, c.Wants owner key → c.owners.get? key = some owner := by
    rintro owner ⟨s, hs, hmem⟩
    exact hI owner key ⟨s, hs, Session.mem_subscriptionKeys.2 (.inl hmem)⟩
  cases ho : c.owners.get? key with
  | none =>
    refine .unknown (by rw [Context.owner, ho]) fun ⟨owner, hwants⟩ => ?_
    rw [hindex hwants] at ho
    cases ho
  | some owner =>
    obtain ⟨s, hs⟩ := hlive key owner ho
    refine .found (by rw [Context.owner, ho]) (session_of_get? hs) ⟨?_, fun h => ⟨owner, s, hs, h⟩⟩
    rintro ⟨owner', hwants⟩
    -- it is the session that the index leads to which wants it
    obtain rfl : owner' = owner := Option.some.inj ((hindex hwants).symm.trans ho)
    obtain ⟨t, ht, hmem⟩ := hwants
    rwa [Option.some.inj (hs.symm.trans ht)]

-- The session that is found lets the subscription go, or the withdrawal fails.
theorem removeSubscription_eq {owner : SessionKey} {s : Session} (howner : c.owner key = .ok owner)
    (hs : c.session owner = .ok s) :
    c.removeSubscription key = (s.removeSubscription key).map fun s' =>
      if s'.subscriptionKeys.contains key then c.store s'
      else { c.store s' with owners := c.owners.erase key } := by
  simp only [removeSubscription, howner, hs, bind, Except.bind]
  cases s.removeSubscription key <;> rfl

theorem iff_of_outcome {r : Except Error Context} {P : Prop} {e : Error}
    (hok : P → ∃ c', r = .ok c') (herror : ¬ P → r = .error e) :
    ((∃ c', r = .ok c') ↔ P) ∧ (r = .error e ↔ ¬ P) := by
  by_cases h : P
  · obtain ⟨c', hr⟩ := hok h
    simp [hr, h]
  · simp [herror h, h]

section

variable (hI : c.Indexed) (hlive : c.OwnersLive)

include hI hlive

theorem removeSubscription_of_wanted (h : c.Wanted key) : ∃ c', c.removeSubscription key = .ok c' := by
  cases holder hI hlive key with
  | unknown howner hnot => exact absurd h hnot
  | found howner hs hwanted =>
    obtain ⟨⟨sub, s'⟩, hd⟩ := Option.isSome_iff_exists.1 (Session.isSome_detach?.2 (hwanted.1 h))
    obtain ⟨t, ht⟩ := Session.removeSubscription_of_detach? hd
    rw [removeSubscription_eq howner hs, ht]
    exact ⟨_, rfl⟩

theorem removeSubscription_of_not_wanted (h : ¬ c.Wanted key) :
    c.removeSubscription key = .error (.subscriptionNotFound key) := by
  cases holder hI hlive key with
  | unknown howner hnot =>
    simp only [removeSubscription, howner]
    rfl
  | found howner hs hwanted =>
    rename_i owner s
    have hd : s.detach? key = none :=
      Option.not_isSome_iff_eq_none.1 fun hd => h (hwanted.2 (Session.isSome_detach?.1 hd))
    rw [removeSubscription_eq howner hs]
    simp only [Session.removeSubscription, hd]
    rfl

theorem updateSubscription_of_wanted (h : c.Wanted key) (changes : List SubscriptionChange) :
    ∃ c', c.updateSubscription key changes = .ok c' := by
  cases holder hI hlive key with
  | unknown howner hnot => exact absurd h hnot
  | found howner hs hwanted =>
    obtain ⟨sub, hsub⟩ := Option.isSome_iff_exists.1 (Session.isSome_subscription?.2 (hwanted.1 h))
    simp only [updateSubscription, howner, hs, bind, Except.bind, hsub]
    exact ⟨_, rfl⟩

theorem updateSubscription_of_not_wanted (h : ¬ c.Wanted key) (changes : List SubscriptionChange) :
    c.updateSubscription key changes = .error (.subscriptionNotFound key) := by
  cases holder hI hlive key with
  | unknown howner hnot =>
    simp only [updateSubscription, howner]
    rfl
  | found howner hs hwanted =>
    rename_i owner s
    have hnone : (s.subscription? key).isNone = true :=
      Option.isNone_iff_eq_none.2 (Option.not_isSome_iff_eq_none.1 fun hsub =>
        h (hwanted.2 (Session.isSome_subscription?.1 hsub)))
    simp only [updateSubscription, howner, hs, bind, Except.bind, hnone]
    rfl

theorem removeSubscription_iff :
    ((∃ c', c.removeSubscription key = .ok c') ↔ c.Wanted key) ∧
      (c.removeSubscription key = .error (.subscriptionNotFound key) ↔ ¬ c.Wanted key) :=
  iff_of_outcome (removeSubscription_of_wanted hI hlive)
    (removeSubscription_of_not_wanted hI hlive)

theorem updateSubscription_iff (changes : List SubscriptionChange) :
    ((∃ c', c.updateSubscription key changes = .ok c') ↔ c.Wanted key) ∧
      (c.updateSubscription key changes = .error (.subscriptionNotFound key) ↔ ¬ c.Wanted key) :=
  iff_of_outcome (updateSubscription_of_wanted hI hlive · changes)
    (updateSubscription_of_not_wanted hI hlive · changes)

-- A transfer is made if some session wants the subscription and the target is there.
theorem transferSubscription_iff (target : SessionKey) :
    (∃ c', c.transferSubscription key target = .ok c') ↔
      c.Wanted key ∧ ∃ s, c.session? target = some s := by
  cases holder hI hlive key with
  | unknown howner hnot =>
    simp only [transferSubscription, howner, hnot, false_and, iff_false]
    rintro ⟨c', hok⟩
    cases hok
  | found howner hs hwanted =>
    rename_i owner s
    rw [hwanted, ← Session.isSome_detach?]
    simp only [transferSubscription, howner, hs, bind, Except.bind]
    cases ht : c.session? target with
    | none =>
      simp only [session_of_get?_none ht, reduceCtorEq, exists_false, and_false]
    | some t =>
      simp only [session_of_get? ht]
      cases s.detach? key with
      | none => simp
      | some left =>
        obtain ⟨t', ht'⟩ := session_store_of_ok
          (c := c.emit (left.1.id.toList.map .deleteSubscription)) (session_of_get? ht) left.2
        simp only [ht', Option.isSome_some, Option.some.injEq, exists_eq', and_self, iff_true]
        exact ⟨_, rfl⟩

end

end Context

end MbsClient
