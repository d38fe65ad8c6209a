import MbsClient.Proofs.Context.Invariant
import MbsClient.Proofs.Session.Filing

/-!
# Index — every subscription is found, and is where it should be

The index of owners is kept apart from the sessions. It leads from every subscription that a session
holds to this session (`indexed_run`), so that together with what is known of the sessions no
subscription is in two places or in the wrong one (`exclusive_run`).
-/

namespace MbsClient

theorem SortedMap.get?_filter {κ ν : Type} [KeyOrder κ] {m : SortedMap κ ν} {keep : κ → ν → Bool}
    {k : κ} {v : ν} (h : m.get? k = some v) (hkeep : keep k v = true) :
    (m.filter keep).get? k = some v :=
  mem_entries.1 (List.mem_filter.2 ⟨mem_entries.2 h, hkeep⟩)

namespace View

/-! ## 1. Who holds a subscription -/

/-- The session under a key holds a subscription. -/
def Holds (v : View) (key : SessionKey) (k : SubscriptionKey) : Prop :=
  ∃ s, v.sessions.get? key = some s ∧ k ∈ s.subscriptionKeys

-- Where nothing comes in, nobody holds what he has not held before.
theorem holds_of_apply {v : View} {t : Transition} (ht : t.incoming = []) {key : SessionKey}
    {k : SubscriptionKey} (h : (v.apply t).Holds key k) : v.Holds key k := by
  obtain ⟨s', hs', hk⟩ := h
  cases sessionFrom hs' with
  | kept hs => exact ⟨s', hs, hk⟩
  | opened hkey hs =>
    rw [hs] at hk
    cases hk
  | moved hs hm =>
    have hcount := Session.count_subscriptionKeys_moved hm k
    rw [show Session.Move.incoming _ = [] from ht, List.count_nil] at hcount
    exact ⟨_, hs, List.count_pos_iff.1 (Nat.lt_of_lt_of_le (List.count_pos_iff.2 hk) hcount)⟩

theorem holds_of_foldl {v : View} {ts : List Transition} (hts : ∀ t ∈ ts, t.incoming = [])
    {key : SessionKey} {k : SubscriptionKey} (h : (ts.foldl apply v).Holds key k) :
    v.Holds key k := by
  induction ts generalizing v with
  | nil => exact h
  | cons t ts ih =>
    exact holds_of_apply (hts t List.mem_cons_self)
      (ih (fun u hu => hts u (List.mem_cons_of_mem _ hu)) h)

-- A take-over brings in the one subscription.
theorem holds_of_takeOver {v : View} {target : SessionKey} {sub : Subscription} {key : SessionKey}
    {k : SubscriptionKey} (h : (v.apply (.moved target (.takeOver sub))).Holds key k) :
    v.Holds key k ∨ (key = target ∧ k = sub.key) := by
  obtain ⟨s', hs', hk⟩ := h
  cases sessionFrom hs' with
  | kept hs => exact .inl ⟨s', hs, hk⟩
  | moved hs hm =>
    have hcount := Session.count_subscriptionKeys_moved hm k
    by_cases hsame : k = sub.key
    · exact .inr ⟨rfl, hsame⟩
    · have hnone : [sub.key].count k = 0 := List.count_eq_zero.2 (by simpa using hsame)
      rw [Session.Move.incoming, hnone] at hcount
      exact .inl ⟨_, hs, List.count_pos_iff.1
        (Nat.lt_of_lt_of_le (List.count_pos_iff.2 hk) hcount)⟩

theorem count_pos_of_holds {v : View} {key : SessionKey} {k : SubscriptionKey}
    (h : v.Holds key k) : 0 < v.subscribers.count k := by
  obtain ⟨s, hs, hk⟩ := h
  have herase := v.sessions.count_erase Session.subscriptionKeys k key
  rw [hs, Option.map_some, Option.getD_some] at herase
  have hpos := List.count_pos_iff.2 hk
  show 0 < (v.sessions.values.flatMap Session.subscriptionKeys).count k
  omega

-- What its only holder lets go nobody holds.
theorem not_holds_of_letGo {v : View} {owner : SessionKey} {s s' : Session}
    {key : SubscriptionKey} {sub : Subscription} (hv : v.subscribers.count key ≤ 1)
    (h : v.sessions.get? owner = some s) (hd : s.detach? key = some (sub, s'))
    (hkey : sub.key = key) (key' : SessionKey) :
    ¬ (v.apply (.moved owner (.letGo key))).Holds key' key := by
  intro hholds
  have hpos := count_pos_of_holds hholds
  have hput := count_subscribers_put h (.letGo key) key
  have hgone := Session.count_subscriptionKeys_detach? hd key
  simp only [Session.moved, hd, Option.map_some, Option.getD_some] at hput
  rw [hkey, List.count_singleton_self] at hgone
  omega

end View

namespace Context

/-! ## 2. The index of owners -/

variable {c c' : Context} {taken : List Intent}

/-- The index leads from a held subscription to the session that holds it. -/
def Indexed (c : Context) : Prop :=
  ∀ key k, (c.view []).Holds key k → c.owners.get? k = some key

-- The index may forget what nobody holds any more.
theorem indexed_of_kept (hI : c.Indexed)
    (hheld : ∀ key k, (c'.view []).Holds key k → (c.view []).Holds key k)
    (hkept : ∀ key k, (c'.view []).Holds key k → c.owners.get? k = some key →
      c'.owners.get? k = some key) : c'.Indexed :=
  fun key k h => hkept key k h (hI key k (hheld key k h))

theorem indexed_of_owners (hI : c.Indexed)
    (hheld : ∀ key k, (c'.view []).Holds key k → (c.view []).Holds key k)
    (howners : c'.owners = c.owners) : c'.Indexed :=
  indexed_of_kept hI hheld fun key k _ h => by rwa [howners]

-- A session that is looked up in the index anew is found as it is now.
theorem kept_reindex {s : Session} (hs : c.sessions.get? s.key = some s) {key : SessionKey}
    {k : SubscriptionKey} (h : (c.view []).Holds key k) (hk : c.owners.get? k = some key) :
    (c.reindex s).owners.get? k = some key := by
  apply SortedMap.get?_filter hk
  by_cases hkey : key = s.key
  · obtain ⟨t, ht, hmem⟩ := h
    have ht : c.sessions.get? key = some t := ht
    rw [hkey, hs] at ht
    simp [hkey, Option.some.inj ht, hmem]
  · simp [hkey]

-- Those who have stayed are still found when one has gone.
theorem kept_destroy {gone key : SessionKey} {k : SubscriptionKey}
    (h : ((c.destroy gone).view []).Holds key k) (hk : c.owners.get? k = some key) :
    (c.destroy gone).owners.get? k = some key := by
  apply SortedMap.get?_filter hk
  obtain ⟨t, ht, -⟩ := h
  by_cases hkey : key = gone
  · rw [hkey] at ht
    simp [view, destroy] at ht
  · simpa using hkey

theorem kept_push {key : SessionKey} {owner : SessionKey} {k : SubscriptionKey}
    (h : (((c.push key).toOption.getD c).view []).Holds owner k)
    (hk : c.owners.get? k = some owner) :
    ((c.push key).toOption.getD c).owners.get? k = some owner := by
  cases hs : c.sessions.get? key with
  | none =>
    simp only [push, session_of_get?_none hs]
    exact hk
  | some s =>
    simp only [push, session_of_get? hs, bind, Except.bind] at h ⊢
    split
    · rename_i s' intents hpush
      simp only [hpush] at h
      exact kept_reindex (c := (c.store s').emit intents) (SortedMap.get?_insert_self _ _ _) h hk
    · rename_i intents hpush
      simp only [hpush] at h
      exact kept_destroy (c := c.emit intents) h hk

theorem indexed_push (hk : (c.view []).Keyed) (hI : c.Indexed) (key : SessionKey) :
    ((c.push key).toOption.getD c).Indexed := by
  refine indexed_of_kept hI (fun owner k h => ?_) fun owner k => kept_push
  rw [view_push hk] at h
  exact View.holds_of_apply rfl h

theorem indexed_pushAll (hk : (c.view []).Keyed) (hI : c.Indexed) : c.pushAll.Indexed := by
  unfold pushAll
  generalize c.sessions.keys = keys
  induction keys generalizing c with
  | nil => exact hI
  | cons key keys ih =>
    refine ih ?_ (indexed_push hk hI key)
    rw [view_push hk]
    exact View.keyed_apply hk _

/-! ### Events -/

theorem owners_indexTmgi (c : Context) (s : Session) : (c.indexTmgi s).owners = c.owners := by
  unfold indexTmgi
  split <;> rfl

theorem sessions_indexTmgi (c : Context) (s : Session) : (c.indexTmgi s).sessions = c.sessions := by
  unfold indexTmgi
  split <;> rfl

theorem kept_sessionCreated {key : SessionKey} {result : Except ProblemDetails SessionCreated}
    {owner : SessionKey} {k : SubscriptionKey}
    (h : ((c.sessionCreated key result).1.view []).Holds owner k)
    (hk : c.owners.get? k = some owner) :
    (c.sessionCreated key result).1.owners.get? k = some owner := by
  unfold sessionCreated at h ⊢
  cases hs : c.session? key with
  | none => exact hk
  | some s =>
    cases hw : s.waitingFor? with
    | none =>
      simp only [hw]
      exact hk
    | some w =>
      have hsettled : ∀ s' : Session,
          ((((c.store s').indexTmgi s').reindex s').view []).Holds owner k →
            (((c.store s').indexTmgi s').reindex s').owners.get? k = some owner := by
        intro s' h
        have hget : ((c.store s').indexTmgi s').sessions.get? s'.key = some s' := by
          rw [sessions_indexTmgi]
          exact SortedMap.get?_insert_self _ _ _
        refine kept_reindex hget h ?_
        rw [owners_indexTmgi]
        exact hk
      simp only [hs, hw] at h ⊢
      cases result with
      | ok answer => exact hsettled _ h
      | error problem => exact hsettled _ h

theorem kept_creationTimedOut {key : SessionKey} {owner : SessionKey} {k : SubscriptionKey}
    (h : ((c.creationTimedOut key).1.view []).Holds owner k)
    (hk : c.owners.get? k = some owner) :
    (c.creationTimedOut key).1.owners.get? k = some owner := by
  unfold creationTimedOut at h ⊢
  split
  · rename_i calls hcalls
    rw [hcalls] at h
    exact kept_destroy h hk
  · exact hk

theorem owners_sessionPatched (c : Context) (key : SessionKey) (result : OperationResult) :
    (c.sessionPatched key result).1.owners = c.owners := by
  unfold sessionPatched
  split <;> rfl

theorem owners_subscriptionCreated (c : Context) (key : SubscriptionKey)
    (result : Except OperationResult SubscriptionAck) :
    (c.subscriptionCreated key result).1.owners = c.owners := by
  unfold subscriptionCreated
  split
  · rfl
  · split <;> rfl

theorem owners_subscriptionUpdated (c : Context) (key : SubscriptionKey)
    (result : Except OperationResult SubscriptionAck) :
    (c.subscriptionUpdated key result).1.owners = c.owners := by
  unfold subscriptionUpdated
  split <;> rfl

theorem kept_handle {e : TransportEvent} {owner : SessionKey} {k : SubscriptionKey}
    (h : ((c.handle e).1.view []).Holds owner k) (hk : c.owners.get? k = some owner) :
    (c.handle e).1.owners.get? k = some owner := by
  have hsame : ∀ owners, owners = c.owners → owners.get? k = some owner := by
    rintro owners rfl
    exact hk
  cases e with
  | createResult key result => exact kept_sessionCreated h hk
  | patchResult key result => cases result <;> exact hsame _ (owners_sessionPatched c key _)
  | subscriptionCreated key result => exact hsame _ (owners_subscriptionCreated c key _)
  | subscriptionUpdated key result => exact hsame _ (owners_subscriptionUpdated c key _)
  | timeout target =>
    cases target with
    | createResource key => exact kept_creationTimedOut h hk
    | patchResource key => exact hsame _ (owners_sessionPatched c key .timedOut)
    | createSubscription key => exact hsame _ (owners_subscriptionCreated c key _)
    | updateSubscription key => exact hsame _ (owners_subscriptionUpdated c key _)

/-! ### Operations -/

theorem owners_newSession (c : Context) : (c.act .newSession).owners = c.owners := by
  simp only [act, newSession]
  split <;> rfl

theorem owners_watchSession (c : Context) (key : SessionKey) :
    (c.act (.watchSession key)).owners = c.owners := by
  simp only [act, watchSession]
  cases c.session key <;> rfl

theorem owners_changeSession (c : Context) (key : SessionKey) (change : SessionChange) :
    (c.act (.changeSession key change)).owners = c.owners := by
  simp only [act, changeSession]
  cases c.session key with
  | error e => rfl
  | ok s =>
    simp only [bind, Except.bind]
    cases s.change change <;> rfl

theorem owners_deleteSession (c : Context) (key : SessionKey) :
    (c.act (.deleteSession key)).owners = c.owners := by
  simp only [act, deleteSession]
  cases c.session key <;> rfl

theorem owners_updateSubscription (c : Context) (key : SubscriptionKey)
    (changes : List SubscriptionChange) :
    (c.act (.updateSubscription key changes)).owners = c.owners := by
  simp only [act, updateSubscription, bind, Except.bind]
  split
  · rfl
  · split
    · rfl
    · split <;> rfl

theorem indexed_addSubscription (hk : (c.view []).Keyed) (hI : c.Indexed)
    (hfresh : ∀ key, ¬ (c.view []).Holds key c.nextSubscription) (session : SessionKey)
    (data : MbsSessionSubscription) : (c.act (.addSubscription session data)).Indexed := by
  intro key k h
  rw [view_addSubscription hk] at h
  cases hs : c.sessions.get? session with
  | none =>
    rw [View.apply_moved_none hs] at h
    rw [act_addSubscription_of_none hs]
    exact hI key k h
  | some s =>
    have howners : (c.act (.addSubscription session data)).owners =
        c.owners.insert c.nextSubscription session := by
      simp only [act, addSubscription, session_of_get? hs]
      rfl
    rw [howners]
    rcases View.holds_of_takeOver h with h | ⟨rfl, rfl⟩
    · -- nobody has held the key before it is handed out
      have hne : k ≠ c.nextSubscription := by
        rintro rfl
        exact hfresh key h
      rw [SortedMap.get?_insert_of_ne _ hne]
      exact hI key k h
    · exact SortedMap.get?_insert_self _ _ _

theorem indexed_removeSubscription (hk : (c.view []).Keyed) (hI : c.Indexed)
    (key : SubscriptionKey) : (c.act (.removeSubscription key)).Indexed := by
  refine indexed_of_kept hI (fun owner k h => ?_) fun owner k h howner => ?_
  · rw [view_removeSubscription hk] at h
    refine View.holds_of_foldl (incoming_script (fun _ _ => ?_) fun _ _ => ?_) h <;>
      exact Action.noConfusion
  · simp only [act, removeSubscription, Context.owner, bind, Except.bind] at h ⊢
    cases ho : c.owners.get? key with
    | none => exact howner
    | some o =>
      simp only [ho] at h ⊢
      cases hs : c.sessions.get? o with
      | none =>
        simp only [session_of_get?_none hs]
        exact howner
      | some s =>
        simp only [session_of_get? hs] at h ⊢
        cases hr : s.removeSubscription key with
        | error e => exact howner
        | ok s' =>
          simp only [hr, pure, Except.pure, Except.toOption, Option.getD_some] at h ⊢
          split
          · exact howner
          · rename_i hgone
            rw [if_neg hgone] at h
            -- what the index forgets its owner has let go
            have hne : k ≠ key := by
              rintro rfl
              obtain ⟨t, ht, hmem⟩ := h
              have ht : (c.sessions.insert s'.key s').get? owner = some t := ht
              have hown : owner = s'.key := by
                rw [Session.key_of_removeSubscription hr, hk.own hs]
                exact Option.some.inj (howner.symm.trans ho)
              rw [hown, SortedMap.get?_insert_self] at ht
              rw [← Option.some.inj ht] at hmem
              exact hgone (List.contains_iff_mem.2 hmem)
            exact (SortedMap.get?_erase_of_ne _ hne).trans howner

-- A transfer fails, or the index follows the subscription to the target.
theorem act_transferSubscription (c : Context) (key : SubscriptionKey)
    (target : SessionKey) :
    c.act (.transferSubscription key target) = c ∨
      ∃ o s sub holder, c.sessions.get? o = some s ∧ s.detach? key = some (sub, holder) ∧
        c.script (.transferSubscription key target) =
          [.moved o (.letGo key), .moved target (.takeOver sub)] ∧
        (c.act (.transferSubscription key target)).owners = c.owners.insert key target := by
  rcases transferSubscription_cases c key target with
    ⟨e, herror, -⟩ | ⟨o, s, sub, holder, t, hs, hd, -, hmoves, hok⟩
  · rw [act, herror]
    exact .inl rfl
  · refine .inr ⟨o, s, sub, holder, hs, hd, hmoves, ?_⟩
    rw [act, hok]
    rfl

theorem indexed_transferSubscription (hk : (c.view []).Keyed)
    (honce : ∀ k, (c.view []).subscribers.count k ≤ 1) (hI : c.Indexed) (key : SubscriptionKey)
    (target : SessionKey) : (c.act (.transferSubscription key target)).Indexed := by
  rcases act_transferSubscription c key target with
    hsame | ⟨o, s, sub, holder, hs, hd, hscript, howners⟩
  · rwa [hsame]
  · have hkey : sub.key = key := (Session.mem_of_detach? hd).2
    intro owner k h
    rw [view_transferSubscription hk, hscript, List.foldl_cons, List.foldl_cons,
      List.foldl_nil] at h
    rw [howners]
    rcases View.holds_of_takeOver h with h | ⟨rfl, rfl⟩
    · -- between the two steps nobody holds the subscription
      have hne : k ≠ key := by
        rintro rfl
        exact View.not_holds_of_letGo (honce k) hs hd hkey owner h
      rw [SortedMap.get?_insert_of_ne _ hne]
      exact hI owner k (View.holds_of_apply rfl h)
    · rw [hkey]
      exact SortedMap.get?_insert_self _ _ _

/-! ### Actions -/

-- Only additions and transfers bring subscriptions in.
theorem holds_of_act (hk : (c.view []).Keyed) {a : Action}
    (hadd : ∀ session data, a ≠ .addSubscription session data)
    (htransfer : ∀ key target, a ≠ .transferSubscription key target) (key : SessionKey)
    (k : SubscriptionKey) (h : ((c.act a).view []).Holds key k) : (c.view []).Holds key k := by
  have hscript : (World.act ⟨c, []⟩ a).view.Holds key k := h
  rw [World.view_act (w := ⟨c, []⟩) hk] at hscript
  exact View.holds_of_foldl (incoming_script hadd htransfer) hscript

theorem indexed_act (hk : (c.view []).Keyed) (honce : ∀ k, (c.view []).subscribers.count k ≤ 1)
    (hfresh : ∀ key, ¬ (c.view []).Holds key c.nextSubscription) (hI : c.Indexed) (a : Action) :
    (c.act a).Indexed := by
  have hheld := fun hadd htransfer => holds_of_act (a := a) hk hadd htransfer
  cases a with
  | addSubscription session data => exact indexed_addSubscription hk hI hfresh session data
  | removeSubscription key => exact indexed_removeSubscription hk hI key
  | transferSubscription key target => exact indexed_transferSubscription hk honce hI key target
  | push key => exact indexed_push hk hI key
  | pushAll => exact indexed_pushAll hk hI
  | takeIntents => exact hI
  | close =>
    rintro key k ⟨s, hs, -⟩
    simp [act, close, view] at hs
  | event e =>
    exact indexed_of_kept hI (hheld (fun _ _ => Action.noConfusion) fun _ _ => Action.noConfusion)
      fun owner k => kept_handle
  | _ =>
    refine indexed_of_owners hI
      (hheld (fun _ _ => Action.noConfusion) fun _ _ => Action.noConfusion) ?_
    first
    | exact owners_newSession c
    | exact owners_watchSession c _
    | exact owners_changeSession c _ _
    | exact owners_deleteSession c _
    | exact owners_updateSubscription c _ _

end Context

/-! ## 3. Runs -/

namespace World

theorem lt_nextSubscription_of_holds {config : ClientConfig} {actions : List Action}
    {key : SessionKey} {k : SubscriptionKey} (h : (run config actions).view.Holds key k) :
    k < (run config actions).context.nextSubscription := by
  have hpos := View.count_pos_of_holds h
  have hhanded := count_handedOut_run config actions k
  split at hhanded
  · assumption
  · omega

theorem indexed_run (config : ClientConfig) (actions : List Action) :
    (run config actions).context.Indexed := by
  induction actions using List.reverseRecOn with
  | nil =>
    rintro key k ⟨s, hs, -⟩
    simp [run, acts, Context.view] at hs
  | append_singleton actions a ih =>
    have hk := keyed_run config actions
    rw [run_snoc]
    refine Context.indexed_act (keyed_context config actions) (count_subscribers_run config actions)
      (fun key h => ?_) ih a
    have hbelow := lt_nextSubscription_of_holds h
    exact Nat.lt_irrefl _ hbelow

/-- The rider rides, and all subscriptions lie where they belong. -/
theorem filed_run (config : ClientConfig) (actions : List Action) :
    (run config actions).view.All fun s => s.Rides ∧ s.Filed := by
  refine all_run (fun key => ⟨Session.rides_new key, Session.filed_new key⟩) ?_ actions
  rintro m s s' - hn ⟨hrides, hfiled⟩ hs'
  exact ⟨Session.rides_moved hrides hs', Session.filed_moved hn hrides hfiled hs'⟩

end World

namespace Context

/-- No subscription is in two places or in the wrong one. -/
structure Exclusive (c : Context) : Prop where
  /-- A key is in one bucket of one session at most. -/
  once : (c.sessions.values.flatMap Session.subscriptionKeys).Nodup
  /-- The subscription names its session, and the index leads there. -/
  owned : ∀ key s, c.session? key = some s → ∀ sub ∈ s.held,
    sub.session = key ∧ c.owners.get? sub.key = some key
  labelled : ∀ key s, c.session? key = some s → ∀ id sub, s.active.get? id = some sub →
    sub.id = some id
  /-- Of a subscription that is not registered, or is to be deleted, nothing is known. -/
  unknown : ∀ key s, c.session? key = some s →
    ∀ sub ∈ s.pendingNew ++ s.pendingDelete.map Prod.snd, sub.id = none ∧ sub.acked = none
  /-- All keys in use have been handed out. -/
  below : ∀ key s, c.session? key = some s →
    key < c.nextSession ∧ ∀ k ∈ s.subscriptionKeys, k < c.nextSubscription

end Context

/-- **No subscription is ever in two places or in the wrong one.** -/
theorem exclusive_run (config : ClientConfig) (actions : List Action) :
    (World.run config actions).context.Exclusive := by
  have hk := World.keyed_run config actions
  have hlabelled := World.labelled_run config actions
  have hfiled := fun key s h => (World.filed_run config actions key s h).2
  have hholds : ∀ key s, (World.run config actions).context.session? key = some s →
      ∀ k ∈ s.subscriptionKeys, (World.run config actions).view.Holds key k :=
    fun key s hs k hmem => ⟨s, hs, hmem⟩
  refine ⟨?_, fun key s hs sub hsub => ⟨?_, ?_⟩, fun key s hs => (hlabelled key s hs).active,
    fun key s hs sub hsub => ?_, fun key s hs => ⟨hk.below hs, fun k hmem => ?_⟩⟩
  · exact List.nodup_iff_count_le_one.2 (World.count_subscribers_run config actions)
  · exact ((hfiled key s hs).held hsub).trans (hk.own hs)
  · refine World.indexed_run config actions key sub.key (hholds key s hs sub.key ?_)
    rw [← Session.map_key_held]
    exact List.mem_map_of_mem hsub
  · rcases List.mem_append.1 hsub with hsub | hsub
    · exact ⟨(hlabelled key s hs).new sub hsub, ((hfiled key s hs).new sub hsub).2⟩
    · obtain ⟨⟨id, t⟩, ht, rfl⟩ := List.mem_map.1 hsub
      exact ((hfiled key s hs).leaving id t ht).2
  · exact World.lt_nextSubscription_of_holds (hholds key s hs k hmem)

end MbsClient
