import MbsClient.Proofs.Context.Invariant
import MbsClient.Proofs.Session.Outstanding

/-!
# Pushes — what an action asks for

Requests are sent by pushes only. The sessions that an action pushes are pushed one after the other,
each as it was before, and no two of them have a target in common. So an action sends one request
for a target at most (`nodup_targets_sent`).
-/

namespace MbsClient

/-! ## 1. Sessions that are pushed one after the other -/

namespace View

/-- The steps that push some sessions. -/
def pushes (config : ClientConfig) (keys : List SessionKey) : List Transition :=
  keys.map fun key => .moved key (.push config)

variable {config : ClientConfig} {keys : List SessionKey}

-- Each session is pushed as it was at first.
theorem get?_pushes (hn : keys.Nodup) (v : View) (k : SessionKey) :
    ((pushes config keys).foldl apply v).sessions.get? k =
      if k ∈ keys then (v.sessions.get? k).bind fun s => (s.push config).1
      else v.sessions.get? k := by
  induction keys generalizing v with
  | nil => rfl
  | cons key keys ih =>
    have hcons := List.nodup_cons.1 hn
    rw [pushes, List.map_cons, List.foldl_cons]
    refine (ih hcons.2 _).trans ?_
    rw [get?_apply_moved]
    by_cases hk : k = key
    · subst hk
      simp only [hcons.1, if_false, if_true, List.mem_cons_self]
      rfl
    · simp only [hk, if_false, List.mem_cons, false_or]

theorem sent_pushes (hn : keys.Nodup) (v : View) :
    v.sent (pushes config keys) = keys.flatMap fun key => v.sends (.moved key (.push config)) := by
  induction keys generalizing v with
  | nil => rfl
  | cons key keys ih =>
    have hcons := List.nodup_cons.1 hn
    rw [pushes, List.map_cons, sent, List.flatMap_cons]
    refine congrArg _ ((ih hcons.2 _).trans ?_)
    refine List.flatMap_congr fun k hk => ?_
    have hne : k ≠ key := fun heq => hcons.1 (heq ▸ hk)
    simp only [sends, get?_apply_moved, if_neg hne]

theorem mem_sent_pushes (hn : keys.Nodup) {v : View} {i : Intent} :
    i ∈ v.sent (pushes config keys) ↔
      ∃ key ∈ keys, ∃ s, v.sessions.get? key = some s ∧ i ∈ (s.push config).2 := by
  rw [sent_pushes hn, List.mem_flatMap]
  refine exists_congr fun key => and_congr_right fun _ => ?_
  simp only [sends]
  cases v.sessions.get? key with
  | none => simp
  | some s => simp [Session.moved]

end View

namespace World

/-- The intents that an action emits. -/
def sent (w : World) (a : Action) : List Intent := (w.act a).emitted.drop w.emitted.length

theorem sent_eq {w : World} (hk : w.view.Keyed) (a : Action) :
    w.sent a = w.view.sent (w.context.script a) := by
  have hemitted : (w.act a).emitted = w.emitted ++ w.view.sent (w.context.script a) := by
    have hview := congrArg View.emitted (view_act hk a)
    rwa [View.emitted_foldl_eq] at hview
  rw [sent, hemitted, List.drop_left]

end World

/-! ## 2. Actions that push -/

/-- Pushes one session or all. -/
def Action.Pushes (key : SessionKey) (a : Action) : Prop := a = .push key ∨ a = .pushAll

-- Only pushes send requests.
theorem Action.Makes.push_of_targets {config : ClientConfig} {a : Action} {tr : Transition}
    (h : a.Makes config tr) {v : View} {i : Intent} (hi : i ∈ v.sends tr) {t : Target}
    (ht : t ∈ i.targets) :
    ∃ key s, a.Pushes key ∧ tr = .moved key (.push config) ∧ v.sessions.get? key = some s ∧
      i ∈ (s.push config).2 := by
  cases View.sentBy hi with
  | moved hs hmem =>
    cases Session.sends_of_mem hmem with
    | letGo => cases ht
    | pushed hpush =>
      cases h with
      | pushed => exact ⟨_, _, .inl rfl, rfl, hs, hpush⟩
      | allPushed => exact ⟨_, _, .inr rfl, rfl, hs, hpush⟩
    | released => cases ht
  | orphaned hmem => rcases h.orphans i hmem with ⟨key, id, rfl⟩ | ⟨id, rfl⟩ <;> cases ht

namespace Context

variable {c : Context} {key : SessionKey} {a : Action}

theorem script_of_pushes (h : a.Pushes key) :
    ∃ keys, keys.Nodup ∧ c.script a = View.pushes c.config keys := by
  rcases h with rfl | rfl
  · exact ⟨[key], List.nodup_singleton key, rfl⟩
  · exact ⟨c.sessions.keys, c.sessions.nodup_keys, rfl⟩

-- When its turn comes, a session is still as it was.
theorem get?_before_push {config : ClientConfig} {before after : List Transition} {v : View}
    (h : c.script a = before ++ .moved key (.push config) :: after) :
    a.Pushes key ∧ (before.foldl View.apply v).sessions.get? key = v.sessions.get? key := by
  have hpushes : a.Pushes key := by
    cases makes_of_mem_script (h ▸ List.mem_append_cons_self) with
    | pushed => exact .inl rfl
    | allPushed => exact .inr rfl
  obtain ⟨keys, hn, hscript⟩ := script_of_pushes (c := c) hpushes
  rw [h] at hscript
  obtain ⟨first, rest, rfl, rfl, hrest⟩ := List.map_eq_append_iff.1 hscript.symm
  obtain ⟨key', last, rfl, hkey, -⟩ := List.map_eq_cons_iff.1 hrest
  obtain rfl : key' = key := (Transition.moved.inj hkey).1
  have hfresh : key' ∉ first := fun hmem =>
    (List.nodup_append.1 hn).2.2 key' hmem key' List.mem_cons_self rfl
  exact ⟨hpushes, (View.get?_pushes (List.nodup_append.1 hn).1 v key').trans (if_neg hfresh)⟩

end Context

/-! ## 3. One request for a target -/

namespace View

variable {v : View} {key key' : SessionKey} {s s' : Session} {t : Target}

-- Two sessions have no target in common.
theorem not_mem_targets (hk : v.Keyed) (honce : ∀ k, v.subscribers.count k ≤ 1)
    (hs : v.sessions.get? key = some s) (hs' : v.sessions.get? key' = some s') (hne : key' ≠ key)
    (ht : t ∈ s.targets) : t ∉ s'.targets := by
  intro ht'
  have hkeys : s'.key ≠ s.key := by rwa [hk.own hs, hk.own hs']
  cases t with
  | creation k =>
    have hkey := Session.creation_mem_targets.1 ht
    exact hkeys ((Session.creation_mem_targets.1 ht').trans hkey.symm)
  | patch k =>
    have hkey := Session.patch_mem_targets.1 ht
    exact hkeys ((Session.patch_mem_targets.1 ht').trans hkey.symm)
  | subscription k =>
    have hheld := Session.mem_subscriptionKeys.2 (.inl (Session.subscription_mem_targets.1 ht))
    have hheld' := Session.mem_subscriptionKeys.2 (.inl (Session.subscription_mem_targets.1 ht'))
    exact not_mem_of_count_subscribers (honce k) hne hs hs' hheld hheld'

variable {config : ClientConfig} {keys : List SessionKey}

/-- **Sessions that are pushed send one request for a target at most.** -/
theorem nodup_targets_pushes (hk : v.Keyed) (honce : ∀ k, v.subscribers.count k ≤ 1)
    (hn : keys.Nodup) : ((v.sent (pushes config keys)).flatMap Intent.targets).Nodup := by
  have hsent : ∀ key t, t ∈ (v.sends (.moved key (.push config))).flatMap Intent.targets →
      ∃ s, v.sessions.get? key = some s ∧ t ∈ s.targets := by
    intro key t ht
    simp only [sends] at ht
    split at ht
    · rename_i s hs
      exact ⟨s, hs, (Session.targets_push config s).subset ht⟩
    · cases ht
  rw [sent_pushes hn, List.flatMap_assoc, List.nodup_flatMap]
  constructor
  · intro key _
    simp only [sends]
    split
    · rename_i s hs
      exact (Session.nodup_targets (nodup_of_count_subscribers honce hs)).sublist
        (Session.targets_push config s)
    · exact List.nodup_nil
  · refine hn.imp fun {key key'} hne t ht ht' => ?_
    obtain ⟨s, hs, ht⟩ := hsent key t ht
    obtain ⟨s', hs', ht'⟩ := hsent key' t ht'
    exact not_mem_targets hk honce hs hs' (Ne.symm hne) ht ht'

end View

namespace World

variable {w : World} {i : Intent} {t : Target} {a : Action}

-- What an action asks for is asked for by a session that it pushes.
theorem pushes_of_sent (hk : w.view.Keyed) (hi : i ∈ w.sent a) (ht : t ∈ i.targets) :
    ∃ key, a.Pushes key := by
  rw [sent_eq hk] at hi
  obtain ⟨before, tr, after, hscript, hi⟩ := View.exists_of_mem_sent hi
  have hmakes := Context.makes_of_mem_script (hscript ▸ List.mem_append_cons_self)
  obtain ⟨key, -, ha, -⟩ := hmakes.push_of_targets hi ht
  exact ⟨key, ha⟩

/-- **No action asks for a target twice.** -/
theorem nodup_targets_sent (config : ClientConfig) (actions : List Action) (a : Action) :
    (((run config actions).sent a).flatMap Intent.targets).Nodup := by
  have hk := keyed_run config actions
  by_cases ha : ∃ key, a.Pushes key
  · obtain ⟨key, ha⟩ := ha
    obtain ⟨keys, hn, hscript⟩ := Context.script_of_pushes (c := (run config actions).context) ha
    rw [sent_eq hk, hscript]
    exact View.nodup_targets_pushes hk (count_subscribers_run config actions) hn
  · have hnil : ((run config actions).sent a).flatMap Intent.targets = [] := by
      rw [List.eq_nil_iff_forall_not_mem]
      intro t ht
      obtain ⟨i, hi, ht⟩ := List.mem_flatMap.1 ht
      exact ha (pushes_of_sent hk hi ht)
    rw [hnil]
    exact List.nodup_nil

end World

end MbsClient
