import MbsClient.Proofs.Context.Ledger
import MbsClient.Proofs.Session.Subscribers

/-!
# Subscribers — no subscription is had twice

A key is handed out once, and from then on one session at most has the subscription, in one of its
buckets (`count_subscribers_run`).
-/

namespace MbsClient

namespace Context

/-- The configuration, and the key that the next subscription takes. -/
def settings (c : Context) : ClientConfig × SubscriptionKey := (c.config, c.nextSubscription)

theorem settings_push (c : Context) (key : SessionKey) :
    ((c.push key).toOption.getD c).settings = c.settings := by
  cases h : c.sessions.get? key with
  | none =>
    simp only [push, session_of_get?_none h]
    rfl
  | some s =>
    simp only [push, session_of_get? h, bind, Except.bind]
    split <;> rfl

theorem settings_pushAll (c : Context) :
    c.pushAll.settings = c.settings := by
  unfold pushAll
  generalize c.sessions.keys = keys
  induction keys generalizing c with
  | nil => rfl
  | cons key keys ih => rw [List.foldl_cons, ih, settings_push]

theorem settings_indexTmgi (c : Context) (s : Session) :
    (c.indexTmgi s).settings = c.settings := by
  unfold indexTmgi
  split <;> rfl

theorem settings_handle (c : Context) (e : TransportEvent) :
    (c.handle e).1.settings = c.settings := by
  have hpatched : ∀ key result,
      (c.sessionPatched key result).1.settings = c.settings := by
    intro key result
    unfold sessionPatched
    split <;> rfl
  have hcreated : ∀ key result,
      (c.subscriptionCreated key result).1.settings = c.settings := by
    intro key result
    unfold subscriptionCreated
    split
    · rfl
    · split <;> rfl
  have hupdated : ∀ key result,
      (c.subscriptionUpdated key result).1.settings = c.settings := by
    intro key result
    unfold subscriptionUpdated
    split <;> rfl
  cases e with
  | createResult key result =>
    simp only [handle, sessionCreated]
    split
    · rfl
    · split
      · rfl
      · exact settings_indexTmgi _ _
  | patchResult key result => cases result <;> exact hpatched key _
  | subscriptionCreated key result => exact hcreated key _
  | subscriptionUpdated key result => exact hupdated key _
  | timeout target =>
    cases target with
    | createResource key =>
      simp only [handle, creationTimedOut]
      split <;> rfl
    | patchResource key => exact hpatched key _
    | createSubscription key => exact hcreated key (.error .timedOut)
    | updateSubscription key => exact hupdated key (.error .timedOut)

-- Only a new subscription takes a key.
theorem settings_act (c : Context) (a : Action)
    (ha : ∀ session data, a ≠ .addSubscription session data) :
    (c.act a).settings = c.settings := by
  cases a with
  | newSession =>
    simp only [act, newSession]
    split <;> rfl
  | watchSession key =>
    simp only [act, watchSession]
    cases c.session key <;> rfl
  | changeSession key change =>
    simp only [act, changeSession]
    cases c.session key with
    | error e => rfl
    | ok s =>
      simp only [bind, Except.bind]
      cases s.change change <;> rfl
  | deleteSession key =>
    simp only [act, deleteSession]
    cases c.session key <;> rfl
  | addSubscription session data => exact absurd rfl (ha session data)
  | updateSubscription key changes =>
    simp only [act, updateSubscription, bind, Except.bind]
    split
    · rfl
    · split
      · rfl
      · split <;> rfl
  | removeSubscription key =>
    simp only [act, removeSubscription, bind, Except.bind]
    cases c.owner key with
    | error e => rfl
    | ok owner =>
      dsimp only
      cases c.session owner with
      | error e => rfl
      | ok s =>
        dsimp only
        cases s.removeSubscription key with
        | error e => rfl
        | ok s' =>
          simp only [pure, Except.pure, Except.toOption, Option.getD_some]
          split <;> rfl
  | transferSubscription key target =>
    rcases transferSubscription_cases c key target with
      ⟨e, herror, -⟩ | ⟨_, _, _, _, _, -, -, -, -, hok⟩
    · rw [act, herror]
      rfl
    · rw [act, hok]
      rfl
  | push key => exact settings_push c key
  | pushAll => exact settings_pushAll c
  | close => rfl
  | takeIntents => rfl
  | event e => exact settings_handle c e

theorem nextSubscription_act (c : Context) (a : Action)
    (ha : ∀ session data, a ≠ .addSubscription session data) :
    (c.act a).nextSubscription = c.nextSubscription :=
  congrArg Prod.snd (settings_act c a ha)

theorem nextSubscription_addSubscription {c : Context} {session : SessionKey} {s : Session}
    (h : c.sessions.get? session = some s) (data : MbsSessionSubscription) :
    (c.act (.addSubscription session data)).nextSubscription = c.nextSubscription + 1 := by
  simp only [act, addSubscription, session_of_get? h]
  rfl

-- The configuration never changes.
theorem config_act (c : Context) (a : Action) : (c.act a).config = c.config := by
  by_cases hadd : ∃ session data, a = .addSubscription session data
  · obtain ⟨session, data, rfl⟩ := hadd
    simp only [act, addSubscription]
    cases c.session session <;> rfl
  · exact congrArg Prod.fst
      (settings_act c a fun session data heq => hadd ⟨session, data, heq⟩)

end Context

/-! ## Counting the subscriptions of all sessions -/

/-- The subscriptions that a step brings in. -/
def Transition.incoming : Transition → List SubscriptionKey
  | .moved _ m => m.incoming
  | _ => []

-- Neither an addition nor a transfer brings anything in.
theorem Context.incoming_script {c : Context} {a : Action}
    (hadd : ∀ session data, a ≠ .addSubscription session data)
    (htransfer : ∀ key target, a ≠ .transferSubscription key target) :
    ∀ t ∈ c.script a, t.incoming = [] := by
  intro t ht
  cases Context.makes_of_mem_script ht with
  | added => exact absurd rfl (hadd _ _)
  | takenOver => exact absurd rfl (htransfer _ _)
  | _ => rfl

-- At most the last step brings a subscription in.
theorem Context.incoming_dropLast_script (c : Context) (a : Action) :
    ∀ t ∈ (c.script a).dropLast, t.incoming = [] := by
  intro t ht
  cases Context.makes_of_mem_script (List.dropLast_subset _ ht) with
  | added => simp [Context.script] at ht
  | takenOver =>
    rename_i key target sub
    rcases Context.transferSubscription_cases c key target with
      ⟨e, -, hnone⟩ | ⟨_, _, _, _, _, -, -, -, hmoves, -⟩
    · simp [Context.script, hnone] at ht
    · simp [Context.script, hmoves] at ht
  | _ => rfl

namespace View

/-- The subscriptions of all sessions and buckets. -/
def subscribers (v : View) : List SubscriptionKey := v.held Session.subscriptionKeys

theorem count_subscribers_put {v : View} {key : SessionKey} {s : Session}
    (h : v.sessions.get? key = some s) (m : Session.Move) (k : SubscriptionKey) :
    (v.apply (.moved key m)).subscribers.count k + s.subscriptionKeys.count k =
      v.subscribers.count k + (((s.moved m).1.map Session.subscriptionKeys).getD []).count k := by
  rw [apply_moved h]
  exact count_held_put h Session.subscriptionKeys k (s.moved m).1 (s.moved m).2

theorem count_subscribers_apply {v : View} (hk : v.Keyed) (t : Transition) (k : SubscriptionKey) :
    (v.apply t).subscribers.count k ≤ v.subscribers.count k + t.incoming.count k := by
  cases t with
  | opened =>
    refine Nat.le_trans (Nat.le_of_eq ?_) (Nat.le_add_right _ _)
    exact count_held_opened hk (fun _ => rfl) k
  | moved key m =>
    cases h : v.sessions.get? key with
    | none =>
      rw [apply_moved_none h]
      exact Nat.le_add_right _ _
    | some s =>
      have hput := count_subscribers_put h m k
      rw [Transition.incoming]
      cases hs' : (s.moved m).1 with
      | none =>
        rw [hs', Option.map_none, Option.getD_none, List.count_nil] at hput
        omega
      | some s' =>
        have hmoved := Session.count_subscriptionKeys_moved hs' k
        rw [hs', Option.map_some, Option.getD_some] at hput
        omega
  | orphaned intents => exact Nat.le_add_right _ _

theorem count_subscribers_foldl {v : View} (hk : v.Keyed) {ts : List Transition}
    (hts : ∀ t ∈ ts, t.incoming = []) (k : SubscriptionKey) :
    (ts.foldl apply v).subscribers.count k ≤ v.subscribers.count k := by
  induction ts generalizing v with
  | nil => exact Nat.le_refl _
  | cons t ts ih =>
    have hfirst := count_subscribers_apply hk t k
    rw [hts t List.mem_cons_self, List.count_nil] at hfirst
    rw [List.foldl_cons]
    exact Nat.le_trans (ih (keyed_apply hk t) fun u hu => hts u (List.mem_cons_of_mem _ hu)) hfirst

-- What one session lets go and another takes over is had no more often.
theorem count_subscribers_transfer {v : View} (hk : v.Keyed) {owner target : SessionKey}
    {s s' : Session} {key : SubscriptionKey} {sub : Subscription}
    (h : v.sessions.get? owner = some s) (hd : s.detach? key = some (sub, s'))
    (k : SubscriptionKey) :
    ([.moved owner (.letGo key), .moved target (.takeOver sub)].foldl apply v).subscribers.count k ≤
      v.subscribers.count k := by
  -- what the second step brings in the first has taken off
  have hput := count_subscribers_put h (.letGo key) k
  have htaken := count_subscribers_apply (keyed_apply hk (.moved owner (.letGo key)))
    (.moved target (.takeOver sub)) k
  rw [List.foldl_cons, List.foldl_cons, List.foldl_nil]
  have hgone := Session.count_subscriptionKeys_detach? hd k
  simp only [Session.moved, hd, Option.map_some, Option.getD_some] at hput
  simp only [Transition.incoming, Session.Move.incoming] at htaken
  omega

-- Two sessions do not have one subscription if no subscription is had twice.
theorem not_mem_of_count_subscribers {v : View} {k : SubscriptionKey}
    (hv : v.subscribers.count k ≤ 1) {key key' : SessionKey} (hne : key' ≠ key) {s s' : Session}
    (hs : v.sessions.get? key = some s) (hs' : v.sessions.get? key' = some s')
    (hk : k ∈ s.subscriptionKeys) : k ∉ s'.subscriptionKeys := by
  intro hk'
  -- taking both sessions off leaves less than nothing
  have herase := v.sessions.count_erase Session.subscriptionKeys k key
  have hother := (v.sessions.erase key).count_erase Session.subscriptionKeys k key'
  rw [SortedMap.get?_erase_of_ne _ hne, hs', Option.map_some, Option.getD_some] at hother
  rw [hs, Option.map_some, Option.getD_some] at herase
  have hpos := List.count_pos_iff.2 hk
  have hpos' := List.count_pos_iff.2 hk'
  have hv : (v.sessions.values.flatMap Session.subscriptionKeys).count k ≤ 1 := hv
  omega

end View

namespace World

-- The next key comes to those that have been handed out.
theorem count_le_handedOut (next k : Nat) :
    (if k < next then 1 else 0) + [next].count k ≤ if k < next + 1 then 1 else 0 := by
  rw [List.count_singleton]
  by_cases hk : k = next
  · simp [hk]
  · have hne : (next == k) = false := by simpa using fun heq => hk heq.symm
    have hlt : k < next ↔ k < next + 1 := by omega
    rw [hne, if_congr hlt rfl rfl]
    exact Nat.le_refl _

-- A key is had once at most, and not before it has been handed out.
theorem count_subscribers_act {w : World} (hk : w.view.Keyed) (a : Action) {k : SubscriptionKey}
    (hw : w.view.subscribers.count k ≤ if k < w.context.nextSubscription then 1 else 0) :
    (w.act a).view.subscribers.count k ≤
      if k < (w.act a).context.nextSubscription then 1 else 0 := by
  by_cases hadd : ∃ session data, a = .addSubscription session data
  · -- an addition: the key that comes in is the one that is handed out with it
    obtain ⟨session, data, rfl⟩ := hadd
    have hact : (w.act (.addSubscription session data)).view =
        w.view.apply (.moved session (.takeOver (.new w.context.nextSubscription session data))) :=
      view_act hk _
    cases hs : w.context.sessions.get? session with
    | none =>
      have hnext : (w.act (.addSubscription session data)).context.nextSubscription =
          w.context.nextSubscription :=
        congrArg Context.nextSubscription (Context.act_addSubscription_of_none hs data)
      rw [hact, View.apply_moved_none hs, hnext]
      exact hw
    | some s =>
      have hnext : (w.act (.addSubscription session data)).context.nextSubscription =
          w.context.nextSubscription + 1 :=
        Context.nextSubscription_addSubscription hs data
      have hcount := View.count_subscribers_apply hk
        (.moved session (.takeOver (.new w.context.nextSubscription session data))) k
      rw [hact, hnext]
      refine Nat.le_trans hcount ?_
      simp only [Transition.incoming, Session.Move.incoming, Subscription.new]
      exact Nat.le_trans (Nat.add_le_add_right hw _) (count_le_handedOut _ k)
  · have hnext : (w.act a).context.nextSubscription = w.context.nextSubscription :=
      Context.nextSubscription_act w.context a fun session data heq => hadd ⟨session, data, heq⟩
    rw [hnext]
    refine Nat.le_trans ?_ hw
    by_cases htransfer : ∃ key target, a = .transferSubscription key target
    · -- a transfer: what one session takes over the other has let go
      obtain ⟨key, target, rfl⟩ := htransfer
      rw [view_act hk, Context.script]
      rcases Context.transferSubscription_cases w.context key target with
        ⟨e, -, hnone⟩ | ⟨o, s, sub, holder, t, hs, hd, -, hmoves, -⟩
      · rw [hnone]
        exact Nat.le_refl _
      · rw [hmoves]
        exact View.count_subscribers_transfer hk hs hd k
    · rw [view_act hk]
      exact View.count_subscribers_foldl hk (Context.incoming_script
        (fun session data heq => hadd ⟨session, data, heq⟩)
        fun key target heq => htransfer ⟨key, target, heq⟩) k

-- Before its key is handed out nobody has a subscription.
theorem count_handedOut_run (config : ClientConfig) (actions : List Action)
    (k : SubscriptionKey) :
    (run config actions).view.subscribers.count k ≤
      if k < (run config actions).context.nextSubscription then 1 else 0 := by
  induction actions using List.reverseRecOn with
  | nil => exact Nat.zero_le _
  | append_singleton actions a ih =>
    rw [run_snoc]
    exact count_subscribers_act (keyed_run config actions) a ih

/-- **No subscription is had twice**, be it by one session or by two. -/
theorem count_subscribers_run (config : ClientConfig) (actions : List Action)
    (k : SubscriptionKey) : (run config actions).view.subscribers.count k ≤ 1 := by
  have hhanded := count_handedOut_run config actions k
  split at hhanded
  · exact hhanded
  · exact Nat.le_trans hhanded (Nat.zero_le _)

theorem config_run (config : ClientConfig) (actions : List Action) :
    (run config actions).context.config = config := by
  induction actions using List.reverseRecOn with
  | nil => rfl
  | append_singleton actions a ih =>
    rw [run_snoc]
    exact (Context.config_act _ a).trans ih

end World

end MbsClient
