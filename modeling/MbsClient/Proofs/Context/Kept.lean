import MbsClient.Proofs.Context.Tmgis
import MbsClient.Proofs.Session.Spared

/-!
# Kept — no subscription vanishes unasked

A subscription that is wanted stays wanted, by its session or another, until it is withdrawn or its
session goes; and the index of owners leads to subscriptions that are there. Both fail for a
confirmation under an id that is taken, and for no other reason
(`subscriptions_kept_iff_none_displaced`).
-/

namespace MbsClient

theorem Session.Spared.trans {k : SubscriptionKey} {s s' s'' : Session} (h : Spared k s s')
    (h' : Spared k s' s'') : Spared k s s'' :=
  ⟨h'.wanted ∘ h.wanted, h'.leaving ∘ h.leaving⟩

/-! ## 1. Actions that leave a subscription alone -/

/-- The subscription is left to the session that has it. -/
def Transition.Spares (k : SubscriptionKey) : Transition → Prop
  | .moved _ m => m.Spares k
  | _ => True

namespace View

variable {v : View} {key : SessionKey} {s : Session} {k : SubscriptionKey}

theorem spared_apply (hk : v.Keyed) {t : Transition} (ht : t.Spares k)
    (h : v.sessions.get? key = some s) :
    ∃ s', (v.apply t).sessions.get? key = some s' ∧ Session.Spared k s s' := by
  rcases get?_apply h (hk.below h) t with hsame | ⟨m, rfl, hmoved⟩
  · exact ⟨s, hsame, .refl k s⟩
  · obtain ⟨s', hs', hspared⟩ := s.spared_moved ht
    exact ⟨s', hmoved.trans hs', hspared⟩

theorem spared_foldl (hk : v.Keyed) {ts : List Transition} (hts : ∀ t ∈ ts, t.Spares k)
    (h : v.sessions.get? key = some s) :
    ∃ s', (ts.foldl apply v).sessions.get? key = some s' ∧ Session.Spared k s s' := by
  induction ts generalizing v s with
  | nil => exact ⟨s, h, .refl k s⟩
  | cons t ts ih =>
    obtain ⟨t', ht', hfirst⟩ := spared_apply hk (hts t List.mem_cons_self) h
    obtain ⟨s', hs', hrest⟩ :=
      ih (keyed_apply hk t) (fun u hu => hts u (List.mem_cons_of_mem _ hu)) ht'
    exact ⟨s', hs', hfirst.trans hrest⟩

-- What is taken over is there.
theorem get?_takeOver (h : v.sessions.get? key = some s) (sub : Subscription) :
    ∃ s', (v.apply (.moved key (.takeOver sub))).sessions.get? key = some s' ∧
      sub.key ∈ s'.wantedKeys := by
  rw [apply_moved h]
  refine ⟨_, get?_put_self v key _ _, ?_⟩
  rw [Session.mem_wantedKeys]
  refine .inl ?_
  simp [Session.newKeys, Session.attach, Subscription.forgetRemote]

end View

/-- Neither pushes nor confirms, and takes neither the subscription nor a session away. -/
def Action.Spares (k : SubscriptionKey) : Action → Prop
  | .removeSubscription key => k ≠ key
  | .transferSubscription key _ => k ≠ key
  | .push _ => False
  | .pushAll => False
  | .close => False
  | .event (.timeout (.createResource _)) => False
  | .event (.subscriptionCreated _ (.ok _)) => False
  | _ => True

theorem Action.Makes.spares {k : SubscriptionKey} {config : ClientConfig} {a : Action}
    {t : Transition} (h : a.Makes config t) (ha : a.Spares k) : t.Spares k := by
  cases h with
  | withdrawn => exact ha
  | letGo => exact ha
  | pushed => exact ha.elim
  | allPushed => exact ha.elim
  | closed => exact ha.elim
  | timedOut => exact ha.elim
  | confirmed => exact ha.elim
  | _ => trivial

namespace Context

variable {c : Context} {key : SessionKey} {s : Session} {k : SubscriptionKey}

theorem sessions_act (hk : (c.view []).Keyed) (a : Action) :
    (c.act a).sessions = ((c.script a).foldl View.apply (c.view [])).sessions := by
  have hview := World.view_act (w := ⟨c, []⟩) hk a
  exact congrArg View.sessions hview

theorem spared_act (hk : (c.view []).Keyed) {a : Action} (ha : a.Spares k)
    (h : c.session? key = some s) :
    ∃ s', (c.act a).session? key = some s' ∧ Session.Spared k s s' := by
  rw [session?, sessions_act hk]
  exact View.spared_foldl hk (fun t ht => (makes_of_mem_script ht).spares ha) h

/-! ## 2. Wanted subscriptions -/

/-- A session wants a subscription: it is new or registered. -/
def Wants (c : Context) (key : SessionKey) (k : SubscriptionKey) : Prop :=
  ∃ s, c.session? key = some s ∧ k ∈ s.wantedKeys

/-- An action that may take a subscription from the session that wants it. -/
inductive Takes (c : Context) (key : SessionKey) (k : SubscriptionKey) : Action → Prop
  | removed : Takes c key k (.removeSubscription k)
  | pushed {s : Session} (hs : c.session? key = some s) (hdeleted : s.deleted = true) :
      Takes c key k (.push key)
  | allPushed {s : Session} (hs : c.session? key = some s) (hdeleted : s.deleted = true) :
      Takes c key k .pushAll
  | timedOut : Takes c key k (.event (.timeout (.createResource key)))
  | closed : Takes c key k .close

/-- No subscription vanishes unasked at an action. -/
def Keeps (c : Context) (a : Action) : Prop :=
  ∀ key k, c.Wants key k → c.Takes key k a ∨ ∃ key', (c.act a).Wants key' k

/-- The subscriptions that lose their place to another that is confirmed under the same id. -/
def displaced (c : Context) : Action → List SubscriptionKey
  | .event (.subscriptionCreated key (.ok ack)) =>
      match (c.owners.get? key).bind c.session? with
      | some s =>
          if (s.subscriptionCreated? key (.ok ack)).isSome then s.registeredKeys ack.id else []
      | none => []
  | _ => []

theorem wants_of_spares (hk : (c.view []).Keyed) {a : Action} (ha : a.Spares k)
    (h : c.Wants key k) : (c.act a).Wants key k := by
  obtain ⟨s, hs, hmem⟩ := h
  obtain ⟨s', hs', hspared⟩ := spared_act hk ha hs
  exact ⟨s', hs', hspared.wanted hmem⟩

/-! ### Pushes and timeouts -/

theorem session?_push (hk : (c.view []).Keyed) (key : SessionKey) {key' : SessionKey} :
    ((c.push key).toOption.getD c).session? key' =
      ((c.view []).apply (.moved key (.push c.config))).sessions.get? key' :=
  congrArg (fun v : View => v.sessions.get? key') (view_push hk key)

-- A push leaves the other sessions alone.
theorem session?_push_of_ne (hk : (c.view []).Keyed) {key key' : SessionKey} (hne : key' ≠ key) :
    ((c.push key).toOption.getD c).session? key' = c.session? key' := by
  rw [session?_push hk, View.get?_apply_moved, if_neg hne]
  rfl

/-- A session that is not deleted wants a subscription. -/
def WantsLive (c : Context) (key : SessionKey) (k : SubscriptionKey) : Prop :=
  ∃ s, c.session? key = some s ∧ s.deleted = false ∧ k ∈ s.wantedKeys

theorem wantsLive_push (hk : (c.view []).Keyed) (key' : SessionKey) (h : c.WantsLive key k) :
    ((c.push key').toOption.getD c).WantsLive key k := by
  obtain ⟨s, hs, hdeleted, hmem⟩ := h
  by_cases hne : key = key'
  · subst hne
    obtain ⟨s', hs', hdeleted', hsame⟩ := Session.wantedKeys_push c.config hdeleted
    refine ⟨s', ?_, hdeleted', hsame ▸ hmem⟩
    have hget : (c.view []).sessions.get? key = some s := hs
    rw [session?_push hk, View.apply_moved hget, Session.moved, hs']
    exact View.get?_put_self _ _ _ _
  · exact ⟨s, (session?_push_of_ne hk hne).trans hs, hdeleted, hmem⟩

theorem wantsLive_pushAll (hk : (c.view []).Keyed) (h : c.WantsLive key k) :
    c.pushAll.WantsLive key k := by
  unfold pushAll
  generalize c.sessions.keys = keys
  induction keys generalizing c with
  | nil => exact h
  | cons key' keys ih =>
    refine ih ?_ (wantsLive_push hk key' h)
    rw [view_push hk]
    exact View.keyed_apply hk _

theorem WantsLive.wants (h : c.WantsLive key k) : c.Wants key k := by
  obtain ⟨s, hs, -, hmem⟩ := h
  exact ⟨s, hs, hmem⟩

theorem keeps_push (hk : (c.view []).Keyed) (key : SessionKey) : c.Keeps (.push key) := by
  rintro key' k ⟨s, hs, hmem⟩
  by_cases hne : key' = key
  · subst hne
    cases hdeleted : s.deleted with
    | true => exact .inl (.pushed hs hdeleted)
    | false => exact .inr ⟨key', (wantsLive_push hk key' ⟨s, hs, hdeleted, hmem⟩).wants⟩
  · exact .inr ⟨key', s, (session?_push_of_ne hk hne).trans hs, hmem⟩

theorem keeps_pushAll (hk : (c.view []).Keyed) : c.Keeps .pushAll := by
  rintro key k ⟨s, hs, hmem⟩
  cases hdeleted : s.deleted with
  | true => exact .inl (.allPushed hs hdeleted)
  | false => exact .inr ⟨key, (wantsLive_pushAll hk ⟨s, hs, hdeleted, hmem⟩).wants⟩

theorem keeps_creationTimedOut (key : SessionKey) :
    c.Keeps (.event (.timeout (.createResource key))) := by
  rintro key' k ⟨s, hs, hmem⟩
  by_cases hne : key' = key
  · exact .inl (hne ▸ .timedOut)
  · refine .inr ⟨key', s, ?_, hmem⟩
    show (c.creationTimedOut key).1.session? key' = some s
    unfold creationTimedOut
    split
    · exact (SortedMap.get?_erase_of_ne _ hne).trans hs
    · exact hs

/-! ### Transfers and confirmations -/

-- Where a transfer does anything, the target wants the subscription after it.
theorem wants_transferSubscription (hk : (c.view []).Keyed) (key : SubscriptionKey)
    (target : SessionKey) :
    c.act (.transferSubscription key target) = c ∨
      (c.act (.transferSubscription key target)).owners = c.owners.insert key target ∧
        (c.act (.transferSubscription key target)).Wants target key := by
  rcases transferSubscription_cases c key target with
    ⟨e, herror, -⟩ | ⟨o, s, sub, holder, t, hs, hd, ht, hmoves, hok⟩
  · rw [act, herror]
    exact .inl rfl
  · -- the target is still there when the holder has let go
    have hleft : ((c.view []).apply (.moved o (.letGo key))).sessions.get? target = some t := by
      have hget : (c.view []).sessions.get? o = some s := hs
      have hholder : holder.key = o := (Session.key_of_detach? hd).trans (hk.own hs)
      rw [View.apply_moved hget, Session.moved, hd, ← hholder]
      exact ht
    obtain ⟨t', ht', hmem⟩ := View.get?_takeOver hleft sub
    refine .inr ⟨by rw [act, hok]; rfl, t', ?_, (Session.mem_of_detach? hd).2 ▸ hmem⟩
    rw [session?, sessions_act hk, script, hmoves]
    exact ht'

theorem keeps_transferSubscription (hk : (c.view []).Keyed) (key : SubscriptionKey)
    (target : SessionKey) : c.Keeps (.transferSubscription key target) := by
  intro owner k h
  by_cases hne : k = key
  · rcases wants_transferSubscription hk key target with hsame | ⟨-, hwants⟩
    · exact .inr ⟨owner, by rwa [hsame]⟩
    · exact .inr ⟨target, hne ▸ hwants⟩
  · exact .inr ⟨owner, wants_of_spares hk (a := .transferSubscription key target) hne h⟩

-- The session that holds the subscription takes the answer in, or nothing changes for sessions.
theorem sessions_confirmed (hk : (c.view []).Keyed) (key : SubscriptionKey)
    (ack : SubscriptionAck) :
    (c.act (.event (.subscriptionCreated key (.ok ack)))).sessions = c.sessions ∨
      ∃ o s s' calls, c.owners.get? key = some o ∧ c.session? o = some s ∧
        s.subscriptionCreated? key (.ok ack) = some (s', calls) ∧
        c.displaced (.event (.subscriptionCreated key (.ok ack))) = s.registeredKeys ack.id ∧
        (c.act (.event (.subscriptionCreated key (.ok ack)))).sessions =
          ((c.view []).put o (some s') []).sessions := by
  cases hc : ((c.owners.get? key).bind c.session?).bind (·.subscriptionCreated? key (.ok ack)) with
  | none =>
    have hview := World.view_act_unclaimed (w := ⟨c, []⟩) hk hc
    exact .inl (congrArg View.sessions hview)
  | some taken =>
    obtain ⟨s, hos, hcreated⟩ := Option.bind_eq_some_iff.1 hc
    obtain ⟨o, ho, hs⟩ := get?_of_owner hos
    have hview := World.view_act_confirmed (w := ⟨c, []⟩) hk ho hs hcreated
    refine .inr ⟨o, s, taken.1, taken.2, ho, hs, hcreated, ?_, congrArg View.sessions hview⟩
    simp only [displaced, hos, hcreated, Option.isSome_some, if_true]

theorem spared_confirmed (hk : (c.view []).Keyed) {key : SubscriptionKey} {ack : SubscriptionAck}
    (hk' : k ∉ c.displaced (.event (.subscriptionCreated key (.ok ack)))) {owner : SessionKey}
    (h : c.session? owner = some s) :
    ∃ s', (c.act (.event (.subscriptionCreated key (.ok ack)))).session? owner = some s' ∧
      Session.Spared k s s' := by
  rcases sessions_confirmed hk key ack with hsame | ⟨o, t, t', calls, -, ht, hc, hdisplaced, hput⟩
  · exact ⟨s, by rw [session?, hsame]; exact h, .refl k s⟩
  · rw [hdisplaced] at hk'
    rw [session?, hput]
    by_cases ho : owner = o
    · subst ho
      have hst : t = s := Option.some.inj (ht.symm.trans h)
      subst hst
      exact ⟨t', View.get?_put_self _ _ _ _, Session.spared_confirmed hc hk'⟩
    · exact ⟨s, (View.get?_put_of_ne _ ho _ _).trans h, .refl k s⟩

theorem keeps_act (hk : (c.view []).Keyed) {a : Action} (hnone : c.displaced a = []) :
    c.Keeps a := by
  have hspares : (∀ k, a.Spares k) → c.Keeps a :=
    fun ha key k h => .inr ⟨key, wants_of_spares hk (ha k) h⟩
  cases a with
  | removeSubscription key =>
    intro owner k h
    by_cases hne : k = key
    · exact .inl (hne ▸ .removed)
    · exact .inr ⟨owner, wants_of_spares hk (a := .removeSubscription key) hne h⟩
  | transferSubscription key target => exact keeps_transferSubscription hk key target
  | push key => exact keeps_push hk key
  | pushAll => exact keeps_pushAll hk
  | close => exact fun key k h => .inl .closed
  | event e =>
    cases e with
    | timeout target =>
      cases target with
      | createResource key => exact keeps_creationTimedOut key
      | _ => exact hspares fun _ => trivial
    | subscriptionCreated key result =>
      cases result with
      | error problem => exact hspares fun _ => trivial
      | ok ack =>
        rintro owner k ⟨s, hs, hmem⟩
        obtain ⟨s', hs', hspared⟩ := spared_confirmed (k := k) hk (by rw [hnone]; simp) hs
        exact .inr ⟨owner, s', hs', hspared.wanted hmem⟩
    | _ => exact hspares fun _ => trivial
  | _ => exact hspares fun _ => trivial

/-! ## 3. The index of owners -/

/-- The index leads to sessions that hold the subscription, in whatever bucket. -/
def OwnersHold (c : Context) : Prop :=
  ∀ k owner, c.owners.get? k = some owner →
    ∃ s, c.session? owner = some s ∧ k ∈ s.subscriptionKeys

theorem ownersHold_of_spares (hk : (c.view []).Keyed) (hc : c.OwnersHold) {a : Action}
    (ha : ∀ k, a.Spares k) (howners : (c.act a).owners = c.owners) : (c.act a).OwnersHold := by
  intro k owner h
  rw [howners] at h
  obtain ⟨s, hs, hmem⟩ := hc k owner h
  obtain ⟨s', hs', hspared⟩ := spared_act hk (ha k) hs
  exact ⟨s', hs', hspared.held hmem⟩

-- What is left in the index of a session that is looked up anew, the session holds.
theorem ownersHold_reindex (hc : c.OwnersHold) (s : Session) {c' : Context}
    (hs : c'.session? s.key = some s)
    (hothers : ∀ key, key ≠ s.key → c'.session? key = c.session? key)
    (howners : c'.owners = c.owners) : (c'.reindex s).OwnersHold := by
  intro k owner h
  obtain ⟨hbefore, hkept⟩ := SortedMap.get?_filter_iff.1 h
  rw [howners] at hbefore
  by_cases ho : owner = s.key
  · rw [ho] at hkept ⊢
    exact ⟨s, hs, by simpa using hkept⟩
  · obtain ⟨t, ht, hmem⟩ := hc k owner hbefore
    exact ⟨t, (hothers owner ho).trans ht, hmem⟩

theorem ownersHold_destroy (hc : c.OwnersHold) (key : SessionKey) : (c.destroy key).OwnersHold := by
  intro k owner h
  obtain ⟨hbefore, hkept⟩ := SortedMap.get?_filter_iff.1 h
  obtain ⟨s, hs, hmem⟩ := hc k owner hbefore
  exact ⟨s, (SortedMap.get?_erase_of_ne _ (bne_iff_ne.1 hkept)).trans hs, hmem⟩

theorem ownersHold_store (hc : c.OwnersHold) (s : Session) : ((c.store s).reindex s).OwnersHold :=
  ownersHold_reindex hc s (SortedMap.get?_insert_self _ _ _)
    (fun _ hne => SortedMap.get?_insert_of_ne _ hne _) rfl

theorem ownersHold_push (hc : c.OwnersHold) (key : SessionKey) :
    ((c.push key).toOption.getD c).OwnersHold := by
  cases hs : c.sessions.get? key with
  | none =>
    simp only [push, session_of_get?_none hs]
    exact hc
  | some s =>
    simp only [push, session_of_get? hs, bind, Except.bind]
    split
    · exact ownersHold_store hc _
    · exact ownersHold_destroy hc key

theorem ownersHold_pushAll (hc : c.OwnersHold) : c.pushAll.OwnersHold := by
  unfold pushAll
  generalize c.sessions.keys = keys
  induction keys generalizing c with
  | nil => exact hc
  | cons key keys ih => exact ih (ownersHold_push hc key)

theorem ownersHold_settle (hc : c.OwnersHold) (s : Session) : (c.settle s).OwnersHold := by
  refine ownersHold_reindex hc s (session?_settle c s) (fun key hne => ?_) ?_
  · rw [session?, sessions_indexTmgi]
    exact SortedMap.get?_insert_of_ne _ hne _
  · exact owners_indexTmgi _ _

theorem ownersHold_createResult (hk : (c.view []).Keyed) (hc : c.OwnersHold) (key : SessionKey)
    (result : Except ProblemDetails SessionCreated) :
    (c.act (.event (.createResult key result))).OwnersHold := by
  cases h : (c.session? key).bind Session.waitingFor? with
  | none =>
    rw [act_unawaited h result]
    exact hc
  | some w =>
    obtain ⟨body, bundled⟩ := w
    obtain ⟨s, hs, hw⟩ := Option.bind_eq_some_iff.1 h
    have hown : s.key = key := hk.own hs
    subst hown
    cases result with
    | ok answer =>
      rw [act_created hs hw answer]
      exact ownersHold_settle hc _
    | error problem =>
      rw [act_refused hs hw problem]
      exact ownersHold_settle hc _

theorem ownersHold_addSubscription (hk : (c.view []).Keyed) (hc : c.OwnersHold)
    (session : SessionKey) (data : MbsSessionSubscription) :
    (c.act (.addSubscription session data)).OwnersHold := by
  cases hs : c.sessions.get? session with
  | none =>
    rwa [act_addSubscription_of_none hs]
  | some s =>
    have howners : (c.act (.addSubscription session data)).owners =
        c.owners.insert c.nextSubscription session := by
      simp only [act, addSubscription, session_of_get? hs]
      rfl
    intro k owner h
    rw [howners] at h
    by_cases hnew : k = c.nextSubscription
    · rw [hnew, SortedMap.get?_insert_self] at h
      obtain ⟨s', hs', hmem⟩ := View.get?_takeOver (v := c.view []) hs
        (.new c.nextSubscription session data)
      refine ⟨s', ?_, Session.mem_subscriptionKeys.2 (.inl (hnew ▸ hmem))⟩
      rw [← Option.some.inj h, session?, sessions_act hk]
      exact hs'
    · rw [SortedMap.get?_insert_of_ne _ hnew] at h
      obtain ⟨t, ht, hmem⟩ := hc k owner h
      obtain ⟨t', ht', hspared⟩ :=
        spared_act (k := k) (a := .addSubscription session data) hk trivial ht
      exact ⟨t', ht', hspared.held hmem⟩

theorem act_removeSubscription (c : Context) (key : SubscriptionKey) :
    c.act (.removeSubscription key) = c ∨
      ∃ o s s', c.owners.get? key = some o ∧ c.sessions.get? o = some s ∧
        s.removeSubscription key = .ok s' ∧
        c.act (.removeSubscription key) = if s'.subscriptionKeys.contains key then c.store s'
          else { c.store s' with owners := c.owners.erase key } := by
  simp only [act, removeSubscription, owner, bind, Except.bind]
  cases ho : c.owners.get? key with
  | none => exact .inl rfl
  | some o =>
    cases hs : c.sessions.get? o with
    | none =>
      simp only [session_of_get?_none hs]
      exact .inl rfl
    | some s =>
      simp only [session_of_get? hs]
      cases hr : s.removeSubscription key with
      | error e => exact .inl rfl
      | ok s' => exact .inr ⟨o, s, s', rfl, hs, hr, rfl⟩

-- What is withdrawn stays in the index as long as the session holds it.
theorem ownersHold_removeSubscription (hk : (c.view []).Keyed) (hc : c.OwnersHold)
    (key : SubscriptionKey) : (c.act (.removeSubscription key)).OwnersHold := by
  have hothers : ∀ k, k ≠ key → ∀ owner, c.owners.get? k = some owner →
      ∃ s, (c.act (.removeSubscription key)).session? owner = some s ∧ k ∈ s.subscriptionKeys := by
    intro k hne owner h
    obtain ⟨t, ht, hmem⟩ := hc k owner h
    obtain ⟨t', ht', hspared⟩ := spared_act (a := .removeSubscription key) hk hne ht
    exact ⟨t', ht', hspared.held hmem⟩
  rcases act_removeSubscription c key with hsame | ⟨o, s, s', ho, hs, hr, hact⟩
  · rwa [hsame]
  · have hown : s'.key = o := (Session.key_of_removeSubscription hr).trans (hk.own hs)
    intro k owner h
    by_cases hne : k = key
    · rw [hact] at h ⊢
      split at h
      · rename_i hheld
        have howner : owner = o := by
          rw [hne] at h
          exact Option.some.inj (h.symm.trans ho)
        rw [if_pos hheld, hne, howner, ← hown]
        exact ⟨s', SortedMap.get?_insert_self _ _ _, List.contains_iff_mem.1 hheld⟩
      · rw [hne] at h
        simp at h
    · refine hothers k hne owner ?_
      rw [hact] at h
      split at h
      · exact h
      · exact (SortedMap.get?_erase_of_ne _ hne).symm.trans h

theorem ownersHold_transferSubscription (hk : (c.view []).Keyed) (hc : c.OwnersHold)
    (key : SubscriptionKey) (target : SessionKey) :
    (c.act (.transferSubscription key target)).OwnersHold := by
  rcases wants_transferSubscription hk key target with hsame | ⟨howners, s, hs, hmem⟩
  · rwa [hsame]
  · intro k owner h
    rw [howners] at h
    by_cases hne : k = key
    · rw [hne, SortedMap.get?_insert_self] at h
      rw [hne, ← Option.some.inj h]
      exact ⟨s, hs, Session.mem_subscriptionKeys.2 (.inl hmem)⟩
    · rw [SortedMap.get?_insert_of_ne _ hne] at h
      obtain ⟨t, ht, hheld⟩ := hc k owner h
      obtain ⟨t', ht', hspared⟩ :=
        spared_act (a := .transferSubscription key target) hk hne ht
      exact ⟨t', ht', hspared.held hheld⟩

theorem ownersHold_handle (hk : (c.view []).Keyed) (hc : c.OwnersHold) {e : TransportEvent}
    (hnone : c.displaced (.event e) = []) : (c.act (.event e)).OwnersHold := by
  have hspares : (∀ k, (Action.event e).Spares k) → (c.act (.event e)).owners = c.owners →
      (c.act (.event e)).OwnersHold := fun ha => ownersHold_of_spares hk hc ha
  cases e with
  | createResult key result => exact ownersHold_createResult hk hc key result
  | patchResult key result =>
    cases result <;> exact hspares (fun _ => trivial) (owners_sessionPatched c key _)
  | subscriptionCreated key result =>
    have howners : (c.act (.event (.subscriptionCreated key result))).owners = c.owners :=
      owners_subscriptionCreated c key _
    cases result with
    | error problem => exact hspares (fun _ => trivial) howners
    | ok ack =>
      intro k owner h
      rw [howners] at h
      obtain ⟨s, hs, hmem⟩ := hc k owner h
      obtain ⟨s', hs', hspared⟩ := spared_confirmed (k := k) hk (by rw [hnone]; simp) hs
      exact ⟨s', hs', hspared.held hmem⟩
  | subscriptionUpdated key result =>
    exact hspares (fun _ => trivial) (owners_subscriptionUpdated c key _)
  | timeout target =>
    cases target with
    | createResource key =>
      show (c.creationTimedOut key).1.OwnersHold
      unfold creationTimedOut
      split
      · exact ownersHold_destroy hc key
      · exact hc
    | patchResource key => exact hspares (fun _ => trivial) (owners_sessionPatched c key .timedOut)
    | createSubscription key =>
      exact hspares (fun _ => trivial) (owners_subscriptionCreated c key _)
    | updateSubscription key =>
      exact hspares (fun _ => trivial) (owners_subscriptionUpdated c key _)

theorem ownersHold_act (hk : (c.view []).Keyed) (hc : c.OwnersHold) {a : Action}
    (hnone : c.displaced a = []) : (c.act a).OwnersHold := by
  have hspares : (∀ k, a.Spares k) → (c.act a).owners = c.owners → (c.act a).OwnersHold :=
    fun ha => ownersHold_of_spares hk hc ha
  cases a with
  | newSession => exact hspares (fun _ => trivial) (owners_newSession c)
  | watchSession key => exact hspares (fun _ => trivial) (owners_watchSession c key)
  | changeSession key change => exact hspares (fun _ => trivial) (owners_changeSession c key change)
  | deleteSession key => exact hspares (fun _ => trivial) (owners_deleteSession c key)
  | addSubscription session data => exact ownersHold_addSubscription hk hc session data
  | updateSubscription key changes =>
    exact hspares (fun _ => trivial) (owners_updateSubscription c key changes)
  | removeSubscription key => exact ownersHold_removeSubscription hk hc key
  | transferSubscription key target => exact ownersHold_transferSubscription hk hc key target
  | push key => exact ownersHold_push hc key
  | pushAll => exact ownersHold_pushAll hc
  | close =>
    intro k owner h
    simp [act, close] at h
  | takeIntents => exact hc
  | event e => exact ownersHold_handle hk hc hnone

/-! ## 4. Displaced subscriptions -/

-- What loses its place was wanted, and nobody holds it any more.
theorem gone_of_displaced (hk : (c.view []).Keyed)
    (honce : ∀ k, (c.view []).subscribers.count k ≤ 1) {key : SubscriptionKey}
    {ack : SubscriptionAck}
    (h : k ∈ c.displaced (.event (.subscriptionCreated key (.ok ack)))) :
    (∃ owner, c.Wants owner k) ∧
      ∀ owner s, (c.act (.event (.subscriptionCreated key (.ok ack)))).session? owner = some s →
        k ∉ s.subscriptionKeys := by
  cases hos : (c.owners.get? key).bind c.session? with
  | none => simp [displaced, hos] at h
  | some s =>
    simp only [displaced, hos] at h
    split at h
    · rename_i htaken
      obtain ⟨⟨s', calls⟩, hcreated⟩ := Option.isSome_iff_exists.1 htaken
      obtain ⟨o, ho, hs⟩ := get?_of_owner hos
      have hget : (c.view []).sessions.get? o = some s := hs
      have hn : s.subscriptionKeys.Nodup := View.nodup_of_count_subscribers honce hget
      have hwanted : k ∈ s.wantedKeys := by
        obtain ⟨sub, hsub, hkey⟩ := List.mem_map.1 h
        exact Session.mem_wantedKeys.2 (.inr ⟨ack.id, sub, Option.mem_toList.1 hsub, hkey⟩)
      refine ⟨⟨o, s, hs, hwanted⟩, fun owner t ht => ?_⟩
      have hview := World.view_act_confirmed (w := ⟨c, []⟩) hk ho hs hcreated
      have hsessions := congrArg View.sessions hview
      rw [session?, show (c.act (.event (.subscriptionCreated key (.ok ack)))).sessions =
        ((c.view []).put o (some s') []).sessions from hsessions] at ht
      rcases View.get?_put ht with ⟨-, hst⟩ | ⟨hne, ht⟩
      · rw [← Option.some.inj hst]
        exact Session.not_mem_of_confirmed hn hcreated h
      · exact View.not_mem_of_count_subscribers (honce k) hne hget ht
          (Session.mem_subscriptionKeys.2 (.inl hwanted))
    · simp at h

-- Only confirmations displace.
theorem confirmed_of_displaced {a : Action} (h : k ∈ c.displaced a) :
    ∃ key ack, a = .event (.subscriptionCreated key (.ok ack)) := by
  unfold displaced at h
  split at h
  · exact ⟨_, _, rfl⟩
  · simp at h

theorem not_keeps_of_displaced (hk : (c.view []).Keyed)
    (honce : ∀ k, (c.view []).subscribers.count k ≤ 1) {a : Action} (h : k ∈ c.displaced a) :
    ¬ c.Keeps a := by
  obtain ⟨key, ack, rfl⟩ := confirmed_of_displaced h
  obtain ⟨⟨owner, hwants⟩, hgone⟩ := gone_of_displaced hk honce h
  intro hkeeps
  rcases hkeeps owner k hwants with htakes | ⟨owner', s, hs, hmem⟩
  · cases htakes
  · exact hgone owner' s hs (Session.mem_subscriptionKeys.2 (.inl hmem))

theorem not_ownersHold_of_displaced (hk : (c.view []).Keyed)
    (honce : ∀ k, (c.view []).subscribers.count k ≤ 1) (hI : c.Indexed) {a : Action}
    (h : k ∈ c.displaced a) : ¬ (c.act a).OwnersHold := by
  obtain ⟨key, ack, rfl⟩ := confirmed_of_displaced h
  obtain ⟨⟨owner, s, hs, hmem⟩, hgone⟩ := gone_of_displaced hk honce h
  -- the index led to its session, and leads there still
  have hindex := hI owner k ⟨s, hs, Session.mem_subscriptionKeys.2 (.inl hmem)⟩
  rw [← owners_subscriptionCreated c key (Except.mapError .refused (.ok ack))] at hindex
  intro hholds
  obtain ⟨s', hs', hheld⟩ := hholds k owner hindex
  exact hgone owner s' hs' hheld

end Context

/-! ## 5. Runs -/

namespace World

/-- The subscriptions that lose their place to another at an action. -/
def displaced (w : World) (a : Action) : List SubscriptionKey := w.context.displaced a

theorem ownersHold_run (config : ClientConfig) {actions : List Action}
    (hnone : along displaced { context := { config } } actions = []) :
    (run config actions).context.OwnersHold := by
  induction actions using List.reverseRecOn with
  | nil =>
    intro k owner h
    simp [run, acts] at h
  | append_singleton actions a ih =>
    rw [along_append, List.append_eq_nil_iff] at hnone
    have hlast : (run config actions).displaced a = [] := (List.append_eq_nil_iff.1 hnone.2).1
    rw [run_snoc]
    exact Context.ownersHold_act (keyed_context config actions) (ih hnone.1) hlast

end World

/-- **Along a run no subscription vanishes unasked, and the index of owners leads to nothing that
is not there, exactly if no confirmation displaces another subscription.** -/
theorem subscriptions_kept_iff_none_displaced (config : ClientConfig) (actions : List Action) :
    (World.Throughout (fun w a => w.context.Keeps a) { context := { config } } actions ↔
        World.along World.displaced { context := { config } } actions = []) ∧
      ((∀ before, before <+: actions → (World.run config before).context.OwnersHold) ↔
        World.along World.displaced { context := { config } } actions = []) := by
  have honce := World.count_subscribers_run config
  refine ⟨⟨fun h => ?_, fun h => ?_⟩, fun h => ?_, fun h => ?_⟩
  · rw [List.eq_nil_iff_forall_not_mem]
    intro k hk
    obtain ⟨before, a, after, rfl, hdisplaced⟩ := World.mem_along.1 hk
    exact Context.not_keeps_of_displaced (World.keyed_context config before) (honce before)
      hdisplaced (World.throughout_append.1 h).2.1
  · induction actions using List.reverseRecOn with
    | nil => trivial
    | append_singleton actions a ih =>
      rw [World.along_append, List.append_eq_nil_iff] at h
      have hlast : (World.run config actions).displaced a = [] :=
        (List.append_eq_nil_iff.1 h.2).1
      exact World.throughout_append.2
        ⟨ih h.1, Context.keeps_act (World.keyed_context config actions) hlast, trivial⟩
  · rw [List.eq_nil_iff_forall_not_mem]
    intro k hk
    obtain ⟨before, a, after, rfl, hdisplaced⟩ := World.mem_along.1 hk
    have hprefix : before ++ [a] <+: before ++ a :: after := by
      rw [List.append_cons before a after]
      exact List.prefix_append _ _
    have hholds := h (before ++ [a]) hprefix
    rw [World.run_snoc] at hholds
    exact Context.not_ownersHold_of_displaced (World.keyed_context config before) (honce before)
      (World.indexed_run config before) hdisplaced hholds
  · rintro before ⟨after, rfl⟩
    rw [World.along_append, List.append_eq_nil_iff] at h
    exact World.ownersHold_run config h.1

/-- Two subscriptions of a registered session are sent. -/
def twoSent : List Action :=
  [.newSession, .push 1, .event (.createResult 1 (.ok { resourceId := "a" })),
    .addSubscription 1 {}, .addSubscription 1 {}, .push 1]

/-- Both are answered with the same id, and the first one is gone. -/
theorem subscription_lost_twoSent :
    ¬ World.Throughout (fun w a => w.context.Keeps a) { context := {} }
      (twoSent ++ [.event (.subscriptionCreated 1 (.ok { id := "s" })),
        .event (.subscriptionCreated 2 (.ok { id := "s" }))]) := by
  rw [(subscriptions_kept_iff_none_displaced _ _).1]
  exact List.cons_ne_nil 1 []

end MbsClient
