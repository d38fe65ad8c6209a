import MbsClient.Proofs.Context.Kept
import MbsClient.Proofs.Context.Stale
import MbsClient.Proofs.Session.Repeat

/-!
# Repeat — a second push does nothing

A session rests when it has nothing to send and every entry of the index of owners that leads to it
is for a subscription that it holds. A push brings a session to rest, and no push of another session
disturbs it; and pushing a session at rest leaves the whole context as it is (`push_twice`).
-/

namespace MbsClient

namespace Context

variable {c c' : Context} {key : SessionKey} {s : Session}

/-! ## 1. Sessions at rest -/

/-- A push of the session would do nothing. -/
def Rests (c : Context) (key : SessionKey) : Prop :=
  ∀ s, c.session? key = some s → s.push c.config = (some s, []) ∧
    ∀ k, c.owners.get? k = some key → k ∈ s.subscriptionKeys

theorem rests_of_none (h : c.session? key = none) : c.Rests key := by
  intro s hs
  rw [h] at hs
  cases hs

-- An index that leads to held subscriptions only loses nothing.
theorem reindex_self (h : ∀ k, c.owners.get? k = some s.key → k ∈ s.subscriptionKeys) :
    c.reindex s = c := by
  have hfilter : (c.owners.filter fun sub owner =>
      owner != s.key || s.subscriptionKeys.contains sub) = c.owners := by
    apply SortedMap.ext_entries
    refine List.filter_eq_self.2 fun e he => ?_
    by_cases howner : e.2 = s.key
    · have hmem := h e.1 (howner ▸ SortedMap.mem_entries.1 he)
      simp [hmem]
    · simp [howner]
  rw [reindex, hfilter]

-- Pushing a session at rest leaves the context as it is.
theorem push_of_rests (hk : (c.view []).Keyed) (h : c.Rests key) (hs : c.session? key = some s) :
    c.push key = .ok c := by
  obtain ⟨hpush, hindex⟩ := h s hs
  have hown : s.key = key := hk.own hs
  have hkept : c.reindex s = c := reindex_self fun k hget => hindex k (hown ▸ hget)
  simp only [push, session_of_get? hs, bind, Except.bind, hpush, emit_nil, store_self hk hs, hkept]
  rfl

theorem act_push_of_rests (hk : (c.view []).Keyed) (h : c.Rests key) : c.act (.push key) = c := by
  cases hs : c.session? key with
  | none =>
    simp only [act, push, session_of_get?_none hs]
    rfl
  | some s =>
    rw [act, push_of_rests hk h hs]
    rfl

/-! ## 2. A push brings a session to rest -/

theorem keyed_act_push (hk : (c.view []).Keyed) (key : SessionKey) :
    ((c.act (.push key)).view []).Keyed := by
  rw [act, view_push hk]
  exact View.keyed_apply hk _

theorem rests_push_self (hk : (c.view []).Keyed) (key : SessionKey) :
    (c.act (.push key)).Rests key := by
  cases hs : c.session? key with
  | none =>
    have hsame : c.act (.push key) = c := by
      simp only [act, push, session_of_get?_none hs]
      rfl
    rw [hsame]
    exact rests_of_none hs
  | some s =>
    have hown : s.key = key := hk.own hs
    simp only [act, push, session_of_get? hs, bind, Except.bind]
    split
    · rename_i s' intents hpush
      have hs' : (s.push c.config).1 = some s' := by rw [hpush]
      have hkey : s'.key = key := (Session.key_of_push hs').trans hown
      intro t ht
      have hst : s' = t := by
        have hget : (c.sessions.insert s'.key s').get? key = some t := ht
        rw [hkey, SortedMap.get?_insert_self] at hget
        exact Option.some.inj hget
      refine ⟨hst ▸ Session.push_push hs', fun k hget => ?_⟩
      -- what the pushed session does not hold has just been dropped
      have hkeep := (SortedMap.get?_filter_iff.1 hget).2
      rw [hkey] at hkeep
      rw [← hst]
      simpa using hkeep
    · exact rests_of_none (SortedMap.get?_erase_self _ _)

-- The index only loses entries in a push.
theorem owners_push {k : SubscriptionKey} {owner : SessionKey}
    (h : (c.act (.push key)).owners.get? k = some owner) : c.owners.get? k = some owner := by
  cases hs : c.session? key with
  | none =>
    simp only [act, push, session_of_get?_none hs] at h
    exact h
  | some s =>
    simp only [act, push, session_of_get? hs, bind, Except.bind] at h
    split at h
    · exact (SortedMap.get?_filter_iff.1 h).1
    · exact (SortedMap.get?_filter_iff.1 h).1

-- A session at rest stays at rest whatever is pushed.
theorem rests_push (hk : (c.view []).Keyed) (h : c.Rests key) (key' : SessionKey) :
    (c.act (.push key')).Rests key := by
  by_cases hkey : key = key'
  · subst hkey
    exact rests_push_self hk key
  · intro s hs
    rw [act, session?_push_of_ne hk hkey] at hs
    obtain ⟨hpush, hindex⟩ := h s hs
    refine ⟨?_, fun k hget => hindex k (owners_push hget)⟩
    rw [act, push_config]
    exact hpush

/-! ## 3. All sessions -/

theorem pushAll_eq (c : Context) :
    c.pushAll = c.sessions.keys.foldl (fun c key => c.act (.push key)) c := rfl

theorem rests_foldl {keys : List SessionKey} (hk : (c.view []).Keyed)
    (h : key ∈ keys ∨ c.Rests key) :
    (keys.foldl (fun c key => c.act (.push key)) c).Rests key := by
  induction keys generalizing c with
  | nil => exact h.resolve_left List.not_mem_nil
  | cons first keys ih =>
    refine ih (keyed_act_push hk first) ?_
    rcases h with h | h
    · rcases List.mem_cons.1 h with rfl | h
      · exact .inr (rests_push_self hk key)
      · exact .inl h
    · exact .inr (rests_push hk h first)

theorem keyed_pushAll (hk : (c.view []).Keyed) : (c.pushAll.view []).Keyed := by
  rw [view_pushAll hk]
  exact View.keyed_foldl hk _

theorem rests_pushAll (hk : (c.view []).Keyed) (key : SessionKey) : c.pushAll.Rests key := by
  rw [pushAll_eq]
  refine rests_foldl hk ?_
  cases hs : c.session? key with
  | none => exact .inr (rests_of_none hs)
  | some s => exact .inl (SortedMap.isSome_get?.1 (by rw [← session?, hs]; rfl))

theorem foldl_push_of_rests (hk : (c.view []).Keyed) (h : ∀ key, c.Rests key)
    (keys : List SessionKey) : keys.foldl (fun c key => c.act (.push key)) c = c := by
  induction keys with
  | nil => rfl
  | cons key keys ih => rw [List.foldl_cons, act_push_of_rests hk (h key), ih]

end Context

/-! ## 4. Along a run -/

/-- **Pushing twice is pushing once.** After any run, a push that follows a push of the same session
leaves the context with its outbox as it is, or fails if the session is gone; and pushing all
sessions a second time does nothing. -/
theorem World.push_twice (config : ClientConfig) (actions : List Action) :
    (∀ key, ((run config actions).context.act (.push key)).push key =
        if (((run config actions).context.act (.push key)).session? key).isSome then
          .ok ((run config actions).context.act (.push key))
        else .error (.sessionNotFound key)) ∧
      (run config actions).context.pushAll.pushAll = (run config actions).context.pushAll := by
  have hk := keyed_context config actions
  generalize (run config actions).context = c at hk
  constructor
  · intro key
    have hk' := Context.keyed_act_push hk key
    cases hs : (c.act (.push key)).session? key with
    | none =>
      simp only [Context.push, Context.session_of_get?_none hs]
      rfl
    | some s => exact Context.push_of_rests hk' (Context.rests_push_self hk key) hs
  · exact Context.foldl_push_of_rests (Context.keyed_pushAll hk) (Context.rests_pushAll hk) _

end MbsClient
